import PageScript.Proofs.Decoding
import PageScript.Proofs.TokenLists

/-!
# Ill-formed words

Any bytes fall, from the left, into characters and ill-formed pieces, in one way only: where no
character stands, the longest beginning of one is a piece, or else a single byte. Decoding keeps the
characters and writes one replacement for each piece.
-/
namespace PageScript.Text.Utf8
open String (utf8EncodeChar)

/-- The bytes of characters one after the other. -/
def WellFormed (bs : Bytes) : Prop := ∃ cs : List Char, bs = cs.flatMap utf8EncodeChar

/-- Bytes with which a character begins. -/
def Begins (bs : Bytes) : Prop := ∃ c, bs <+: utf8EncodeChar c

/-- A piece in front of other bytes, where no character stands: the longest beginning of a
character, or else one byte. -/
structure Subpart (piece rest : Bytes) : Prop where
  ne_nil : piece ≠ []
  no_char : ∀ c, ¬ utf8EncodeChar c <+: piece ++ rest
  begins : Begins piece ∨ piece.length = 1
  longest : ∀ other, other <+: piece ++ rest → Begins other → other.length ≤ piece.length

inductive Piece where
  | char (c : Char)
  | ill (bytes : Bytes)
  deriving DecidableEq, Repr

/-- The character that is written for a piece. -/
def Piece.sign : Piece → Char
  | char c => c
  | ill _ => replacement

/-- Bytes fall into pieces. -/
inductive Decomposes : Bytes → List Piece → Prop where
  | nil : Decomposes [] []
  | char (c : Char) {rest : Bytes} {ps : List Piece} (h : Decomposes rest ps) :
      Decomposes (utf8EncodeChar c ++ rest) (.char c :: ps)
  | ill {piece rest : Bytes} {ps : List Piece} (hs : Subpart piece rest) (h : Decomposes rest ps) :
      Decomposes (piece ++ rest) (.ill piece :: ps)

/-- Bytes of which the first is in a range and the others can continue a character. -/
def InRange : UInt8 → UInt8 → Bytes → Prop
  | _, _, [] => True
  | low, high, b :: bs => (low ≤ b ∧ b ≤ high) ∧ InRange 0x80 0xBF bs

theorem inRange_append {low high : UInt8} {xs ys : Bytes} (h : InRange low high (xs ++ ys)) :
    InRange low high xs := by
  induction xs generalizing low high with
  | nil => trivial
  | cons x xs ih => exact ⟨h.1, ih h.2⟩

theorem inRange_replicate (n : ℕ) : InRange 0x80 0xBF (List.replicate n 0x80) := by
  induction n with
  | zero => trivial
  | succ n ih => exact ⟨by decide, ih⟩

theorem val_ofNat {v : ℕ} (h : v < 0xD800 ∨ 0xDFFF < v ∧ v < 0x110000) :
    (Char.ofNat v).val.toNat = v := by
  have hv : v.isValidChar := h
  simp [Char.ofNat, hv, Char.ofNatAux]

theorem encodeChar_one {b : UInt8} (h : b.toNat < 0x80) :
    ∃ v, utf8EncodeChar (Char.ofNat v) = [b] := by
  refine ⟨b.toNat, ?_⟩
  unfold utf8EncodeChar
  rw [val_ofNat (by omega)]
  dsimp only
  rw [if_pos (by omega), UInt8.ofNat_toNat]

theorem encodeChar_two {b x : UInt8} (hb : 0xC2 ≤ b.toNat ∧ b.toNat < 0xE0)
    (hx : 0x80 ≤ x.toNat ∧ x.toNat ≤ 0xBF) :
    ∃ v, utf8EncodeChar (Char.ofNat v) = [b, x] := by
  generalize hv : (b.toNat - 0xC0) * 64 + (x.toNat - 0x80) = v
  refine ⟨v, ?_⟩
  have hfirst : v / 64 % 32 + 192 = b.toNat := by omega
  have hsecond : v % 64 + 128 = x.toNat := by omega
  unfold utf8EncodeChar
  rw [val_ofNat (by omega)]
  dsimp only
  rw [if_neg (by omega), if_pos (by omega), hfirst, hsecond]
  simp only [UInt8.ofNat_toNat]

theorem encodeChar_three {b x y : UInt8} (hb : 0xE0 ≤ b.toNat ∧ b.toNat < 0xF0)
    (hx : 0x80 ≤ x.toNat ∧ x.toNat ≤ 0xBF) (hlow : b.toNat = 0xE0 → 0xA0 ≤ x.toNat)
    (hhigh : b.toNat = 0xED → x.toNat ≤ 0x9F) (hy : 0x80 ≤ y.toNat ∧ y.toNat ≤ 0xBF) :
    ∃ v, utf8EncodeChar (Char.ofNat v) = [b, x, y] := by
  generalize hv : ((b.toNat - 0xE0) * 64 + (x.toNat - 0x80)) * 64 + (y.toNat - 0x80) = v
  refine ⟨v, ?_⟩
  have hfirst : v / 4096 % 16 + 224 = b.toNat := by omega
  have hsecond : v / 64 % 64 + 128 = x.toNat := by omega
  have hthird : v % 64 + 128 = y.toNat := by omega
  unfold utf8EncodeChar
  rw [val_ofNat (by omega)]
  dsimp only
  rw [if_neg (by omega), if_neg (by omega), if_pos (by omega), hfirst, hsecond, hthird]
  simp only [UInt8.ofNat_toNat]

theorem encodeChar_four {b x y z : UInt8} (hb : 0xF0 ≤ b.toNat ∧ b.toNat < 0xF5)
    (hx : 0x80 ≤ x.toNat ∧ x.toNat ≤ 0xBF) (hlow : b.toNat = 0xF0 → 0x90 ≤ x.toNat)
    (hhigh : b.toNat = 0xF4 → x.toNat ≤ 0x8F) (hy : 0x80 ≤ y.toNat ∧ y.toNat ≤ 0xBF)
    (hz : 0x80 ≤ z.toNat ∧ z.toNat ≤ 0xBF) :
    ∃ v, utf8EncodeChar (Char.ofNat v) = [b, x, y, z] := by
  generalize hv : (((b.toNat - 0xF0) * 64 + (x.toNat - 0x80)) * 64 + (y.toNat - 0x80)) * 64 +
    (z.toNat - 0x80) = v
  refine ⟨v, ?_⟩
  have hfirst : v / 262144 % 8 + 240 = b.toNat := by omega
  have hsecond : v / 4096 % 64 + 128 = x.toNat := by omega
  have hthird : v / 64 % 64 + 128 = y.toNat := by omega
  have hfourth : v % 64 + 128 = z.toNat := by omega
  unfold utf8EncodeChar
  rw [val_ofNat (by omega)]
  dsimp only
  rw [if_neg (by omega), if_neg (by omega), if_neg (by omega), hfirst, hsecond, hthird, hfourth]
  simp only [UInt8.ofNat_toNat]

theorem lead?_eq_none {n : ℕ} (hn : n < 256) (h : 0x80 ≤ n ∧ n < 0xC2 ∨ 0xF5 ≤ n) :
    lead? (UInt8.ofNat n) = none := by
  have hb := toNat_ofNat hn
  have h₁ : ¬ n < 0x80 := by omega
  rcases h with h | h
  · simp [lead?, UInt8.lt_iff_toNat_lt, hb, h₁, h.2]
  · have h₂ : ¬ n < 0xC2 := by omega
    have h₃ : ¬ n < 0xE0 := by omega
    have h₄ : ¬ n < 0xF0 := by omega
    have h₅ : ¬ n < 0xF5 := by omega
    simp [lead?, UInt8.lt_iff_toNat_lt, hb, h₁, h₂, h₃, h₄, h₅]

theorem inRange_tail {x : UInt8} {xs : Bytes} (h : InRange 0x80 0xBF (x :: xs)) :
    (0x80 ≤ x.toNat ∧ x.toNat ≤ 0xBF) ∧ InRange 0x80 0xBF xs :=
  ⟨⟨UInt8.le_iff_toNat_le.mp h.1.1, UInt8.le_iff_toNat_le.mp h.1.2⟩, h.2⟩

theorem inRange_narrow {n m k : ℕ} {low high x : UInt8} {xs : Bytes} (hlow : 0x80 ≤ low.toNat)
    (hhigh : high.toNat ≤ 0xBF)
    (h : InRange (if n = m then low else 0x80) (if n = k then high else 0xBF) (x :: xs)) :
    (0x80 ≤ x.toNat ∧ x.toNat ≤ 0xBF) ∧ (n = m → low.toNat ≤ x.toNat) ∧
      (n = k → x.toNat ≤ high.toNat) := by
  obtain ⟨⟨hl, hh⟩, -⟩ := h
  rw [UInt8.le_iff_toNat_le] at hl hh
  have h80 : (0x80 : UInt8).toNat = 0x80 := rfl
  have hBF : (0xBF : UInt8).toNat = 0xBF := rfl
  split_ifs at hl hh <;> refine ⟨by omega, by omega, by omega⟩

/-- A first byte and as many bytes as it announces, in their ranges, are those of a character. -/
theorem exists_char {b : UInt8} {l : Lead} {bs : Bytes} (hl : lead? b = some l)
    (hr : InRange l.low l.high bs) (hn : bs.length = l.following) :
    ∃ c, utf8EncodeChar c = b :: bs := by
  obtain ⟨n, hb, rfl⟩ : ∃ n < 256, b = UInt8.ofNat n := ⟨b.toNat, b.toNat_lt, by simp⟩
  have hbn := toNat_ofNat hb
  by_cases h₁ : n < 0x80
  · rw [lead?_one h₁] at hl
    obtain rfl := Option.some.inj hl
    obtain rfl := List.eq_nil_of_length_eq_zero hn
    obtain ⟨v, hv⟩ := encodeChar_one (b := UInt8.ofNat n) (by omega)
    exact ⟨_, hv⟩
  by_cases h₂ : n < 0xC2
  · rw [lead?_eq_none hb (by omega)] at hl
    cases hl
  by_cases h₃ : n < 0xE0
  · rw [lead?_two (by omega) h₃] at hl
    obtain rfl := Option.some.inj hl
    obtain ⟨x, rfl⟩ := List.length_eq_one_iff.mp hn
    obtain ⟨v, hv⟩ := encodeChar_two (b := UInt8.ofNat n) (by omega) (inRange_tail hr).1
    exact ⟨_, hv⟩
  by_cases h₄ : n < 0xF0
  · rw [lead?_three (by omega) h₄] at hl
    obtain rfl := Option.some.inj hl
    obtain ⟨x, y, rfl⟩ := List.length_eq_two.mp hn
    obtain ⟨hx, hlow, hhigh⟩ := inRange_narrow (by decide) (by decide) hr
    obtain ⟨v, hv⟩ := encodeChar_three (b := UInt8.ofNat n) (by omega) hx (by rwa [hbn])
      (by rwa [hbn]) (inRange_tail hr.2).1
    exact ⟨_, hv⟩
  by_cases h₅ : n < 0xF5
  · rw [lead?_four (by omega) h₅] at hl
    obtain rfl := Option.some.inj hl
    obtain ⟨x, y, z, rfl⟩ := List.length_eq_three.mp hn
    obtain ⟨hx, hlow, hhigh⟩ := inRange_narrow (by decide) (by decide) hr
    obtain ⟨v, hv⟩ := encodeChar_four (b := UInt8.ofNat n) (by omega) hx (by rwa [hbn])
      (by rwa [hbn]) (inRange_tail hr.2).1 (inRange_tail hr.2.2).1
    exact ⟨_, hv⟩
  · rw [lead?_eq_none hb (by omega)] at hl
    cases hl

/-- Reading what a first byte announces takes bytes in their ranges, all of them or up to the first
that is in none. -/
theorem follow_taken (n : ℕ) (low high : UInt8) (value : ℕ) (bs : Bytes) :
    ∃ taken, bs = taken ++ (follow n low high value bs).2 ∧ InRange low high taken ∧
      ((follow n low high value bs).1.isSome ∧ taken.length = n ∨
        (follow n low high value bs).1 = none ∧ taken.length < n ∧
          ∀ x more, (follow n low high value bs).2 = x :: more →
            ¬ InRange low high (taken ++ [x])) := by
  induction n generalizing low high value bs with
  | zero => exact ⟨[], rfl, trivial, .inl ⟨rfl, rfl⟩⟩
  | succ n ih =>
    cases bs with
    | nil => exact ⟨[], rfl, trivial, .inr ⟨rfl, Nat.succ_pos n, by simp [follow]⟩⟩
    | cons b bs =>
      rw [follow]
      split_ifs with hb
      · obtain ⟨taken, hbs, hr, hends⟩ := ih 0x80 0xBF (value * 64 + (b.toNat - 0x80)) bs
        refine ⟨b :: taken, congrArg (b :: ·) hbs, ⟨hb, hr⟩, ?_⟩
        rcases hends with ⟨hsome, hlen⟩ | ⟨hnone, hlen, hstop⟩
        · exact .inl ⟨hsome, congrArg (· + 1) hlen⟩
        · refine .inr ⟨hnone, Nat.succ_lt_succ hlen, fun x more hx hin => ?_⟩
          exact hstop x more hx hin.2
      · refine ⟨[], rfl, trivial, .inr ⟨rfl, Nat.succ_pos n, fun x more hx hin => hb ?_⟩⟩
        obtain ⟨rfl, -⟩ := List.cons.inj hx
        exact hin.1

theorem encodeChar_eq_cons (c : Char) :
    ∃ b l bs, utf8EncodeChar c = b :: bs ∧ lead? b = some l ∧ InRange l.low l.high bs ∧
      bs.length = l.following := by
  have hp := pieces_encodeChar c []
  rw [List.append_nil, pieces] at hp
  cases he : utf8EncodeChar c with
  | nil => simp [he, pieces] at hp
  | cons b bs =>
    rw [he, pieces_cons] at hp
    obtain ⟨hfirst, hrest⟩ := List.cons.inj hp
    cases hl : lead? b with
    | none => simp [split, hl] at hfirst
    | some l =>
      rw [split_of_lead? hl] at hfirst hrest
      obtain ⟨taken, hbs, hr, hends⟩ := follow_taken l.following l.low l.high l.bits bs
      have hnil : (follow l.following l.low l.high l.bits bs).2 = [] := by
        cases hf : (follow l.following l.low l.high l.bits bs).2 with
        | nil => rfl
        | cons x more => simp [hf, pieces_cons] at hrest
      rw [hnil, List.append_nil] at hbs
      subst hbs
      rcases hends with ⟨-, hlen⟩ | ⟨hnone, -⟩
      · exact ⟨b, l, bs, rfl, hl, hr, hlen⟩
      · simp [hnone] at hfirst

theorem low_le_high {b : UInt8} {l : Lead} (h : lead? b = some l) : l.low ≤ l.high := by
  unfold lead? at h
  grind

/-- Bytes in their ranges can be followed by others up to any length. -/
theorem exists_longer {low high : UInt8} {bs : Bytes} {n : ℕ} (hle : low ≤ high)
    (hr : InRange low high bs) (hn : bs.length ≤ n) :
    ∃ more, InRange low high (bs ++ more) ∧ (bs ++ more).length = n := by
  induction bs generalizing low high n with
  | nil =>
    cases n with
    | zero => exact ⟨[], trivial, rfl⟩
    | succ n =>
      exact ⟨low :: List.replicate n 0x80, ⟨⟨UInt8.le_refl low, hle⟩, inRange_replicate n⟩,
        by simp⟩
  | cons b bs ih =>
    cases n with
    | zero => simp at hn
    | succ n =>
      obtain ⟨more, hmore, hlen⟩ := ih (by decide) hr.2 (Nat.le_of_succ_le_succ hn)
      exact ⟨more, ⟨hr.1, hmore⟩, congrArg (· + 1) hlen⟩

theorem begins_cons_iff {b : UInt8} {bs : Bytes} :
    Begins (b :: bs) ↔
      ∃ l, lead? b = some l ∧ bs.length ≤ l.following ∧ InRange l.low l.high bs := by
  constructor
  · rintro ⟨c, hc⟩
    obtain ⟨b', l, bs', he, hl, hr, hlen⟩ := encodeChar_eq_cons c
    rw [he] at hc
    obtain ⟨rfl, more, rfl⟩ := List.cons_prefix_cons.mp hc
    exact ⟨l, hl, by rw [← hlen]; simp, inRange_append hr⟩
  · rintro ⟨l, hl, hlen, hr⟩
    obtain ⟨more, hmore, hn⟩ := exists_longer (low_le_high hl) hr hlen
    obtain ⟨c, hc⟩ := exists_char hl hmore hn
    exact ⟨c, hc ▸ List.prefix_append (b :: bs) more⟩

/-- In front of any bytes a character stands, or a piece that is read as one. -/
theorem pieces_cons_cases (b : UInt8) (bs : Bytes) :
    (∃ c rest, b :: bs = utf8EncodeChar c ++ rest) ∨
      ∃ piece rest, b :: bs = piece ++ rest ∧ Subpart piece rest ∧
        pieces (b :: bs) = none :: pieces rest := by
  cases hl : lead? b with
  | none =>
    have hnot : ∀ t, ¬ Begins (b :: t) := by
      intro t ht
      obtain ⟨l, hsome, -⟩ := begins_cons_iff.mp ht
      cases hl.symm.trans hsome
    refine .inr ⟨[b], bs, rfl, ⟨by simp, fun c hc => ?_, .inr rfl, fun other ho hb => ?_⟩, ?_⟩
    · obtain ⟨b', l, bs', he, hsome, -⟩ := encodeChar_eq_cons c
      rw [he] at hc
      obtain ⟨rfl, -⟩ := List.cons_prefix_cons.mp hc
      cases hl.symm.trans hsome
    · cases other with
      | nil => simp
      | cons x t =>
        obtain ⟨rfl, -⟩ := List.cons_prefix_cons.mp ho
        exact absurd hb (hnot t)
    · rw [pieces_cons]
      simp [split, hl]
  | some l =>
    obtain ⟨taken, hbs, hr, hends⟩ := follow_taken l.following l.low l.high l.bits bs
    rcases hends with ⟨-, hlen⟩ | ⟨hnone, hlen, hstop⟩
    · obtain ⟨c, hc⟩ := exists_char hl hr hlen
      refine .inl ⟨c, (follow l.following l.low l.high l.bits bs).2, ?_⟩
      rw [hc, List.cons_append, ← hbs]
    · generalize hrest : (follow l.following l.low l.high l.bits bs).2 = rest at hbs hstop
      -- the byte behind the taken ones is out of range, so no beginning reaches further
      have hmost : ∀ t, t <+: bs → InRange l.low l.high t → t.length ≤ taken.length := by
        intro t ht htr
        by_contra hlt
        have htaken : taken <+: t := List.prefix_of_prefix_length_le
          (by rw [hbs]; exact List.prefix_append _ _) ht (by omega)
        obtain ⟨later, rfl⟩ := htaken
        cases later with
        | nil => simp at hlt
        | cons x later =>
          rw [hbs, List.prefix_append_right_inj] at ht
          obtain ⟨more, hmore⟩ := ht
          refine hstop x (later ++ more) hmore.symm ?_
          rw [List.append_cons] at htr
          exact inRange_append htr
      refine .inr ⟨b :: taken, rest, congrArg (b :: ·) hbs,
        ⟨by simp, fun c hc => ?_, ?_, fun other ho hb => ?_⟩, ?_⟩
      · obtain ⟨b', l', bs', he, hl', hr', hlen'⟩ := encodeChar_eq_cons c
        rw [he, List.cons_append, ← hbs] at hc
        obtain ⟨rfl, hp⟩ := List.cons_prefix_cons.mp hc
        obtain rfl := Option.some.inj (hl.symm.trans hl')
        have hle := hmost bs' hp hr'
        omega
      · exact .inl (begins_cons_iff.mpr ⟨l, hl, hlen.le, hr⟩)
      · cases other with
        | nil => simp
        | cons x t =>
          rw [List.cons_append, ← hbs] at ho
          obtain ⟨rfl, ht⟩ := List.cons_prefix_cons.mp ho
          obtain ⟨l', hl', -, hr'⟩ := begins_cons_iff.mp hb
          obtain rfl := Option.some.inj (hl.symm.trans hl')
          exact Nat.succ_le_succ (hmost t ht hr')
      · rw [pieces_cons, split_of_lead? hl, hnone, hrest]
        rfl

theorem Subpart.length_le {piece rest piece' rest' : Bytes} (h : Subpart piece rest)
    (h' : Subpart piece' rest') (he : piece' ++ rest' = piece ++ rest) :
    piece'.length ≤ piece.length := by
  rcases h'.begins with hb | hone
  · exact h.longest piece' (he ▸ List.prefix_append piece' rest') hb
  · have hpos := List.length_pos_iff.mpr h.ne_nil
    omega

theorem Subpart.unique {piece rest piece' rest' : Bytes} (h : Subpart piece rest)
    (h' : Subpart piece' rest') (he : piece ++ rest = piece' ++ rest') :
    piece = piece' ∧ rest = rest' :=
  List.append_inj he (Nat.le_antisymm (h'.length_le h he) (h.length_le h' he.symm))

theorem encodeChar_append_inj {c c' : Char} {rest rest' : Bytes}
    (h : utf8EncodeChar c ++ rest = utf8EncodeChar c' ++ rest') : c = c' ∧ rest = rest' := by
  have hp := congrArg pieces h
  rw [pieces_encodeChar, pieces_encodeChar] at hp
  obtain rfl := Option.some.inj (List.cons.inj hp).1
  exact ⟨rfl, List.append_cancel_left h⟩

theorem encodeChar_ne_nil (c : Char) : utf8EncodeChar c ≠ [] := by
  obtain ⟨b, l, bs, he, -⟩ := encodeChar_eq_cons c
  simp [he]

def Piece.char? : Piece → Option Char
  | char c => some c
  | ill _ => none

theorem pieces_of_subpart {piece rest : Bytes} (h : Subpart piece rest) :
    pieces (piece ++ rest) = none :: pieces rest := by
  obtain ⟨b, more, rfl⟩ := List.exists_cons_of_ne_nil h.ne_nil
  rcases pieces_cons_cases b (more ++ rest) with ⟨c, later, hc⟩ | ⟨piece', rest', he, h', hp⟩
  · exact absurd ⟨later, hc.symm⟩ (h.no_char c)
  · obtain ⟨rfl, rfl⟩ := h'.unique h he.symm
    exact hp

theorem Decomposes.pieces_eq {w : Bytes} {ps : List Piece} (h : Decomposes w ps) :
    pieces w = ps.map Piece.char? := by
  induction h with
  | nil => simp [pieces]
  | char c h ih =>
    rw [pieces_encodeChar, ih]
    rfl
  | ill hs h ih =>
    rw [pieces_of_subpart hs, ih]
    rfl

theorem Decomposes.unique {w : Bytes} {ps qs : List Piece} (h : Decomposes w ps)
    (h' : Decomposes w qs) : qs = ps := by
  induction h generalizing qs with
  | nil =>
    generalize hw : ([] : Bytes) = w at h'
    cases h' with
    | nil => rfl
    | char c => exact absurd (List.append_eq_nil_iff.mp hw.symm).1 (encodeChar_ne_nil c)
    | ill hs => exact absurd (List.append_eq_nil_iff.mp hw.symm).1 hs.ne_nil
  | @char c rest ps h ih =>
    generalize hw : utf8EncodeChar c ++ rest = w at h'
    cases h' with
    | nil => exact absurd (List.append_eq_nil_iff.mp hw).1 (encodeChar_ne_nil c)
    | char c' hrest =>
      obtain ⟨rfl, rfl⟩ := encodeChar_append_inj hw
      rw [ih hrest]
    | ill hs => exact absurd (hw ▸ List.prefix_append _ rest) (hs.no_char c)
  | @ill piece rest ps hs h ih =>
    generalize hw : piece ++ rest = w at h'
    cases h' with
    | nil => exact absurd (List.append_eq_nil_iff.mp hw).1 hs.ne_nil
    | @char c' rest' _ hrest =>
      exact absurd (hw.symm ▸ List.prefix_append _ rest') (hs.no_char c')
    | ill hs' hrest =>
      obtain ⟨rfl, rfl⟩ := hs.unique hs' hw
      rw [ih hrest]

theorem exists_decomposes (w : Bytes) : ∃ ps, Decomposes w ps := by
  induction hn : w.length using Nat.strong_induction_on generalizing w with
  | _ n ih =>
    cases w with
    | nil => exact ⟨[], .nil⟩
    | cons b bs =>
      rcases pieces_cons_cases b bs with ⟨c, rest, he⟩ | ⟨piece, rest, he, hs, -⟩
      · have hpos := List.length_pos_iff.mpr (encodeChar_ne_nil c)
        have hlen := congrArg List.length he
        rw [List.length_append, hn] at hlen
        obtain ⟨ps, hps⟩ := ih rest.length (by omega) rest rfl
        rw [he]
        exact ⟨_, .char c hps⟩
      · have hpos := List.length_pos_iff.mpr hs.ne_nil
        have hlen := congrArg List.length he
        rw [List.length_append, hn] at hlen
        obtain ⟨ps, hps⟩ := ih rest.length (by omega) rest rfl
        rw [he]
        exact ⟨_, .ill hs hps⟩

theorem Decomposes.decode_eq {w : Bytes} {ps : List Piece} (h : Decomposes w ps) :
    decode w = String.ofList (ps.map Piece.sign) := by
  have hsign : ∀ p : Piece, p.char?.getD replacement = p.sign := by
    intro p
    cases p <;> rfl
  rw [decode, h.pieces_eq, List.map_map]
  exact congrArg String.ofList (List.map_congr_left fun p _ => hsign p)

theorem wellFormed_iff {w : Bytes} : WellFormed w ↔ ∃ s, w = encode s := by
  constructor
  · rintro ⟨cs, rfl⟩
    exact ⟨String.ofList cs, by simp [encode]⟩
  · rintro ⟨s, rfl⟩
    exact ⟨s.toList, rfl⟩

theorem Decomposes.eq_flatMap {w : Bytes} {ps : List Piece} (h : Decomposes w ps)
    {cs : List Char} (hps : ps.map Piece.char? = cs.map some) : w = cs.flatMap utf8EncodeChar := by
  induction h generalizing cs with
  | nil =>
    obtain rfl := List.map_eq_nil_iff.mp hps.symm
    rfl
  | char c h ih =>
    cases cs with
    | nil => cases hps
    | cons c' cs =>
      obtain ⟨hc, hrest⟩ := List.cons.inj hps
      obtain rfl := Option.some.inj hc
      rw [ih hrest, List.flatMap_cons]
  | ill hs h ih =>
    cases cs with
    | nil => cases hps
    | cons c' cs => cases (List.cons.inj hps).1

theorem eq_map_some_of_mapM {xs : List (Option Char)} {cs : List Char}
    (h : xs.mapM id = some cs) : xs = cs.map some := by
  induction xs generalizing cs with
  | nil =>
    obtain rfl := by simpa using h
    rfl
  | cons x xs ih =>
    rw [List.mapM_cons] at h
    cases x with
    | none => cases h
    | some c =>
      cases hxs : xs.mapM id with
      | none => simp [hxs] at h
      | some cs' =>
        obtain rfl := by simpa [hxs] using h
        rw [ih hxs]
        rfl

/-- Strict decoding reads just the well-formed words, and reads them as lossy decoding does. -/
theorem decode?_eq_some_iff {w : Bytes} {s : String} :
    decode? w = some s ↔ WellFormed w ∧ s = decode w := by
  constructor
  · intro h
    obtain ⟨cs, hcs, -⟩ := Option.map_eq_some_iff.mp h
    obtain ⟨ps, hps⟩ := exists_decomposes w
    have hall := eq_map_some_of_mapM hcs
    rw [hps.pieces_eq] at hall
    have hw : WellFormed w := ⟨cs, hps.eq_flatMap hall⟩
    obtain ⟨t, rfl⟩ := wellFormed_iff.mp hw
    rw [decode?_encode] at h
    exact ⟨hw, by rw [decode_encode, Option.some.inj h]⟩
  · rintro ⟨hw, rfl⟩
    obtain ⟨t, rfl⟩ := wellFormed_iff.mp hw
    rw [decode?_encode, decode_encode]

theorem encode_decode_eq_iff {w : Bytes} : encode (decode w) = w ↔ WellFormed w := by
  constructor
  · intro h
    exact wellFormed_iff.mpr ⟨decode w, h.symm⟩
  · intro hw
    obtain ⟨s, rfl⟩ := wellFormed_iff.mp hw
    rw [decode_encode]

end PageScript.Text.Utf8

namespace PageScript
open Text (Bytes)
open Text.Utf8 (decode decode? encode Decomposes Piece WellFormed)

def wordsOf (ws : List (Bytes × ℕ)) : List Token := ws.map fun w => .word w.1 w.2

def Draft.texts (draft : Option Draft) : List String := draft.toList.flatMap (·.command.texts)

theorem Draft.texts_add (bytes : Bytes) (line : ℕ) (draft : Option Draft) :
    (add bytes line draft).command.texts = texts draft ++ [decode bytes] := by
  cases draft with
  | none => rfl
  | some d => simp [texts, add, command, Command.texts]

namespace Parser

/-- Words are added to a command that has its name, up to the boundary. -/
theorem exists_command_of_some (d : Draft) (ws : List (Bytes × ℕ)) (last : ℕ)
    (later : List (Except LineError Token)) (pulled : List Token) :
    ∃ c, (assemble ((wordsOf ws).map .ok ++ .ok (.boundary last) :: later) (some d) pulled).item =
        some (.ok c) ∧ c.texts = d.command.texts ++ ws.map (decode ·.1) := by
  induction ws generalizing d pulled with
  | nil =>
    refine ⟨d.command, ?_, by simp⟩
    rw [assemble]
    rfl
  | cons w ws ih =>
    obtain ⟨c, hc, htexts⟩ := ih (Draft.add w.1 w.2 (some d)) (.word w.1 w.2 :: pulled)
    refine ⟨c, ?_, by simp [htexts, Draft.texts_add, Draft.texts]⟩
    rw [assemble]
    exact hc

/-- A parser stores the words before a boundary decoded, in their order and behind those that it
has already. -/
theorem exists_command (draft : Option Draft) (before after : List (Bytes × ℕ)) (w : Bytes × ℕ)
    (last : ℕ) (later : List (Except LineError Token)) :
    let items : List (Except LineError Token) :=
      (wordsOf (before ++ w :: after)).map .ok ++ .ok (.boundary last) :: later
    ∃ c, (Parser.mk items draft false).next.1 = some (.ok c) ∧
      c.texts = Draft.texts draft ++ (before ++ w :: after).map (decode ·.1) := by
  obtain ⟨first, more, hws⟩ := List.exists_cons_of_ne_nil (l := before ++ w :: after) (by simp)
  obtain ⟨c, hc, htexts⟩ := exists_command_of_some (Draft.add first.1 first.2 draft) more last later
    [.word first.1 first.2]
  rw [hws]
  refine ⟨c, ?_, by simp [htexts, Draft.texts_add]⟩
  change (assemble _ draft []).item = _
  rw [assemble]
  exact hc

end Parser

/-- What is stored for a word, wherever it stands in a command and whatever follows the command: its
bytes fall into characters and ill-formed pieces in one way, and the text is these characters with
one replacement for each piece. So it has the bytes of the word just if the word is well-formed, and
then strict decoding gives the same; it is empty for no word with bytes; its own bytes give it
again; and a well-formed beginning is decoded by itself. -/
theorem word_decoded_in_pieces (w : Bytes) :
    (∃ ps, Decomposes w ps ∧ (∀ qs, Decomposes w qs → qs = ps) ∧
      decode w = String.ofList (ps.map Piece.sign)) ∧
    (∀ (draft : Option Draft) (before after : List (Bytes × ℕ)) (line last : ℕ)
        (later : List (Except LineError Token)),
      let items : List (Except LineError Token) :=
        (wordsOf (before ++ (w, line) :: after)).map .ok ++ .ok (.boundary last) :: later
      ∃ c, (Parser.mk items draft false).next.1 = some (.ok c) ∧
        c.texts = Draft.texts draft ++ before.map (decode ·.1) ++
          decode w :: after.map (decode ·.1)) ∧
    (encode (decode w) = w ↔ WellFormed w) ∧
    (∀ s, decode? w = some s ↔ WellFormed w ∧ s = decode w) ∧
    (w ≠ [] → decode w ≠ "") ∧
    decode (encode (decode w)) = decode w ∧
    ∀ u, WellFormed u → decode (u ++ w) = decode u ++ decode w := by
  obtain ⟨ps, hps⟩ := Text.Utf8.exists_decomposes w
  refine ⟨⟨ps, hps, fun qs hqs => hps.unique hqs, hps.decode_eq⟩, ?_,
    Text.Utf8.encode_decode_eq_iff, fun s => Text.Utf8.decode?_eq_some_iff,
    Text.Utf8.decode_ne_empty, Text.Utf8.decode_encode _, ?_⟩
  · intro draft before after line last later
    obtain ⟨c, hc, htexts⟩ := Parser.exists_command draft before after (w, line) last later
    exact ⟨c, hc, by rw [htexts]; simp⟩
  · intro u hu
    obtain ⟨s, rfl⟩ := Text.Utf8.wellFormed_iff.mp hu
    rw [Text.Utf8.decode_encode_append, Text.Utf8.decode_encode]

end PageScript
