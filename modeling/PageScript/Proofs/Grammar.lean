import Mathlib
import PageScript.Token

/-!
# The grammar of tokens

The tokens of a byte string, said position by position and without a machine. A byte is literal
behind an odd run of backslashes; the other backslashes are markers, the other blanks and newlines
separate. A word is all content with no separator in between, and is given where the separator
behind it stands.
-/
namespace PageScript

def Token.carried : Token → Text.Bytes
  | word bytes _ => bytes
  | boundary _ => []

namespace Grammar
open Text (Bytes)
open Lexer (backslash space tab newline)

inductive Role where
  | marker
  | blank
  | lineEnd
  | content
  deriving DecidableEq, Repr

/-- The length of the run of backslashes that ends just before a position. -/
def slashes (bs : Bytes) (i : ℕ) : ℕ :=
  ((bs.take i).reverse.takeWhile (· = backslash)).length

def literal (bs : Bytes) (i : ℕ) : Bool := slashes bs i % 2 = 1

def role (literal : Bool) (b : UInt8) : Role :=
  if literal then .content
  else if b = backslash then .marker
  else if b = space ∨ b = tab then .blank
  else if b = newline then .lineEnd
  else .content

/-- No byte and so no role stands at the end of the string. -/
def roleAt (bs : Bytes) (i : ℕ) : Option Role := bs[i]?.map (role (literal bs i))

def IsContent (bs : Bytes) (i : ℕ) : Prop := roleAt bs i = some .content

def IsSeparator (bs : Bytes) (i : ℕ) : Prop :=
  roleAt bs i = some .blank ∨ roleAt bs i = some .lineEnd

instance (bs : Bytes) (i : ℕ) : Decidable (IsContent bs i) := by
  unfold IsContent
  infer_instance

instance (bs : Bytes) (i : ℕ) : Decidable (IsSeparator bs i) := by
  unfold IsSeparator
  infer_instance

def bytesAt (bs : Bytes) (ps : List ℕ) : Bytes := ps.filterMap (bs[·]?)

/-- The content before a position with no separator in between. -/
def group (bs : Bytes) (i : ℕ) : List ℕ :=
  (List.range i).filter fun p => IsContent bs p ∧ ∀ q < i, p < q → ¬ IsSeparator bs q

/-- The line of a position counts all newlines before it, the literal ones too. -/
def lineAt (bs : Bytes) (i : ℕ) : ℕ := 1 + (bs.take i).count newline

/-- The word that a separator or the end at a position closes. -/
def wordAt (bs : Bytes) (i : ℕ) : List Token :=
  match group bs i with
  | [] => []
  | p :: ps => [.word (bytesAt bs (p :: ps)) (lineAt bs p)]

def tokensAt (bs : Bytes) (i : ℕ) : List Token :=
  match roleAt bs i with
  | some .blank => wordAt bs i
  | some .lineEnd | none => wordAt bs i ++ [.boundary (lineAt bs i)]
  | some .marker | some .content => []

/-- The tokens that the bytes of a string complete before its end is reached. -/
def closed (bs : Bytes) : List Token := (List.range bs.length).flatMap (tokensAt bs)

/-- The tokens of a string that ends there: those of its bytes, then those of the end. -/
def tokens (bs : Bytes) : List Token := (List.range (bs.length + 1)).flatMap (tokensAt bs)

def contentBytes (bs : Bytes) : Bytes := bytesAt bs ((List.range bs.length).filter (IsContent bs))

theorem tokens_eq_closed_append (bs : Bytes) : tokens bs = closed bs ++ tokensAt bs bs.length := by
  simp [tokens, closed, List.range_succ]

theorem slashes_succ {bs : Bytes} {i : ℕ} {b : UInt8} (hb : bs[i]? = some b) :
    slashes bs (i + 1) = if b = backslash then slashes bs i + 1 else 0 := by
  simp only [slashes, List.take_add_one, hb, Option.toList_some, List.reverse_append,
    List.reverse_singleton, List.singleton_append, List.takeWhile_cons]
  split_ifs <;> simp_all

/-- The byte behind a marker is literal, and no other. -/
theorem literal_succ {bs : Bytes} {i : ℕ} {b : UInt8} (hb : bs[i]? = some b) :
    literal bs (i + 1) = decide (roleAt bs i = some .marker) := by
  have hs := slashes_succ hb
  simp only [literal, hs, roleAt, hb, Option.map_some, role]
  -- a backslash makes the run before it one longer, so only an even run makes it a marker
  by_cases hl : slashes bs i % 2 = 1
  · by_cases hbs : b = backslash
    · simp [hl, hbs]
      omega
    · simp [hl, hbs]
  · by_cases hbs : b = backslash
    · simp [hl, hbs]
      omega
    · simp only [hl, hbs, if_false, decide_false, Bool.false_eq_true]
      split_ifs <;> simp

theorem literal_zero (bs : Bytes) : literal bs 0 = false := by
  simp [literal, slashes]

theorem lineAt_zero (bs : Bytes) : lineAt bs 0 = 1 := by
  simp [lineAt]

theorem lineAt_length (bs : Bytes) : lineAt bs bs.length = 1 + bs.count newline := by
  simp [lineAt]

theorem lineAt_succ {bs : Bytes} {i : ℕ} {b : UInt8} (hb : bs[i]? = some b) :
    lineAt bs (i + 1) = if b = newline then lineAt bs i + 1 else lineAt bs i := by
  simp only [lineAt, List.take_add_one, hb, Option.toList_some, List.count_append,
    List.count_singleton, beq_iff_eq]
  split_ifs <;> rfl

theorem not_isContent_of_isSeparator {bs : Bytes} {i : ℕ} (h : IsSeparator bs i) :
    ¬ IsContent bs i := by
  rcases h with h | h <;> simp [IsContent, h]

theorem mem_group {bs : Bytes} {i p : ℕ} :
    p ∈ group bs i ↔ p < i ∧ IsContent bs p ∧ ∀ q < i, p < q → ¬ IsSeparator bs q := by
  simp [group]

theorem group_zero (bs : Bytes) : group bs 0 = [] := rfl

theorem group_succ_of_isSeparator {bs : Bytes} {i : ℕ} (h : IsSeparator bs i) :
    group bs (i + 1) = [] := by
  apply List.eq_nil_iff_forall_not_mem.mpr
  intro p hp
  obtain ⟨hlt, hc, hq⟩ := mem_group.mp hp
  rcases Nat.lt_succ_iff_lt_or_eq.mp hlt with hpi | rfl
  · exact hq i (Nat.lt_succ_self i) hpi h
  · exact not_isContent_of_isSeparator h hc

/-- Passing a byte that does not separate keeps the group, and adds the byte if it is content. -/
theorem group_succ {bs : Bytes} {i : ℕ} (h : ¬ IsSeparator bs i) :
    group bs (i + 1) = group bs i ++ if IsContent bs i then [i] else [] := by
  -- position i is not a separator, so the test of the earlier positions stays the same
  have hkept : ∀ p ∈ List.range i,
      decide (IsContent bs p ∧ ∀ q < i + 1, p < q → ¬ IsSeparator bs q) =
        decide (IsContent bs p ∧ ∀ q < i, p < q → ¬ IsSeparator bs q) := by
    intro p _
    apply decide_eq_decide.mpr
    refine and_congr_right fun _ => ⟨fun hq q hqi => hq q (by omega), fun hq q hqi hpq => ?_⟩
    rcases Nat.lt_succ_iff_lt_or_eq.mp hqi with hlt | rfl
    · exact hq q hlt hpq
    · exact h
  have hlast : (IsContent bs i ∧ ∀ q < i + 1, i < q → ¬ IsSeparator bs q) ↔ IsContent bs i :=
    and_iff_left fun q hq hiq => by omega
  simp only [group, List.range_succ, List.filter_append, List.filter_congr hkept,
    List.filter_singleton, hlast]
  by_cases hc : IsContent bs i <;> simp [hc]

theorem exists_of_isContent {bs : Bytes} {i : ℕ} (h : IsContent bs i) : ∃ b, bs[i]? = some b := by
  cases hb : bs[i]? with
  | none => simp [IsContent, roleAt, hb] at h
  | some b => exact ⟨b, rfl⟩

theorem bytesAt_append (bs : Bytes) (ps qs : List ℕ) :
    bytesAt bs (ps ++ qs) = bytesAt bs ps ++ bytesAt bs qs := by
  simp [bytesAt]

theorem bytesAt_group_eq_nil {bs : Bytes} {i : ℕ} :
    bytesAt bs (group bs i) = [] ↔ group bs i = [] := by
  constructor
  · intro h
    apply List.eq_nil_iff_forall_not_mem.mpr
    intro p hp
    obtain ⟨b, hb⟩ := exists_of_isContent (mem_group.mp hp).2.1
    have hn := List.filterMap_eq_nil_iff.mp h p hp
    simp [hb] at hn
  · intro h
    rw [h]
    rfl

theorem literal_append (d x : Bytes) : literal (d ++ x) d.length = literal d d.length := by
  simp [literal, slashes]

theorem ne_nil_of_mem_wordAt {bs w : Bytes} {i line : ℕ} (h : Token.word w line ∈ wordAt bs i) :
    w ≠ [] := by
  unfold wordAt at h
  split at h
  · simp at h
  · rename_i p ps hg
    obtain ⟨rfl, -⟩ := by simpa using h
    rw [← hg, ne_eq, bytesAt_group_eq_nil, hg]
    simp

theorem ne_nil_of_mem_tokens {bs w : Bytes} {line : ℕ} (h : Token.word w line ∈ tokens bs) :
    w ≠ [] := by
  obtain ⟨i, _, hi⟩ := List.mem_flatMap.mp h
  unfold tokensAt at hi
  split at hi
  · exact ne_nil_of_mem_wordAt hi
  · exact ne_nil_of_mem_wordAt (by simpa using hi)
  · exact ne_nil_of_mem_wordAt (by simpa using hi)
  · simp at hi
  · simp at hi

theorem carried_wordAt (bs : Bytes) (i : ℕ) :
    (wordAt bs i).flatMap Token.carried = bytesAt bs (group bs i) := by
  unfold wordAt
  split
  · rename_i hg
    simp [hg, bytesAt]
  · rename_i p ps hg
    simp [hg, Token.carried]

/-- The words closed before a position and the group still open there hold the content so far. -/
theorem carried_before (bs : Bytes) {i : ℕ} (hi : i ≤ bs.length) :
    ((List.range i).flatMap (tokensAt bs)).flatMap Token.carried ++ bytesAt bs (group bs i) =
      bytesAt bs ((List.range i).filter (IsContent bs)) := by
  induction i with
  | zero => rfl
  | succ i ih =>
    have hb : bs[i]? = some bs[i] := List.getElem?_eq_getElem (by omega)
    have hw := carried_wordAt bs i
    have hi := ih (by omega)
    simp only [List.range_succ, List.flatMap_append, List.filter_append, bytesAt_append, ← hi]
    cases hr : role (literal bs i) bs[i] with
    | marker =>
      have hr : roleAt bs i = some .marker := by simp [roleAt, hb, hr]
      have hsep : ¬ IsSeparator bs i := by simp [IsSeparator, hr]
      have hg := group_succ hsep
      simp [hg, tokensAt, IsContent, hr, bytesAt]
    | blank =>
      have hr : roleAt bs i = some .blank := by simp [roleAt, hb, hr]
      have hg := group_succ_of_isSeparator (.inl hr)
      simp [hg, tokensAt, IsContent, hr, bytesAt, hw]
    | lineEnd =>
      have hr : roleAt bs i = some .lineEnd := by simp [roleAt, hb, hr]
      have hg := group_succ_of_isSeparator (.inr hr)
      simp [hg, tokensAt, IsContent, hr, bytesAt, hw, Token.carried]
    | content =>
      have hr : roleAt bs i = some .content := by simp [roleAt, hb, hr]
      have hsep : ¬ IsSeparator bs i := by simp [IsSeparator, hr]
      have hg := group_succ hsep
      simp [hg, tokensAt, IsContent, hr, bytesAt]

theorem carried_tokens (bs : Bytes) : (tokens bs).flatMap Token.carried = contentBytes bs := by
  have hw := carried_wordAt bs bs.length
  have hc := carried_before bs le_rfl
  have hl : tokensAt bs bs.length = wordAt bs bs.length ++ [.boundary (lineAt bs bs.length)] := by
    simp [tokensAt, roleAt]
  rw [tokens_eq_closed_append, hl, contentBytes, ← hc, ← hw]
  simp [closed, Token.carried]

end Grammar

end PageScript
