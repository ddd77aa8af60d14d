import Mathlib
import PageScript.Text.Utf8

namespace PageScript.Text.Utf8

theorem toNat_ofNat {n : ℕ} (h : n < 256) : (UInt8.ofNat n).toNat = n := by
  simp [Nat.mod_eq_of_lt h]

theorem lead?_one {n : ℕ} (h : n < 0x80) : lead? (UInt8.ofNat n) = some ⟨0, 0x80, 0xBF, n⟩ := by
  have hn := toNat_ofNat (show n < 256 by omega)
  simp [lead?, UInt8.lt_iff_toNat_lt, hn, h]

theorem lead?_two {n : ℕ} (hl : 0xC2 ≤ n) (hh : n < 0xE0) :
    lead? (UInt8.ofNat n) = some ⟨1, 0x80, 0xBF, n - 0xC0⟩ := by
  have hn := toNat_ofNat (show n < 256 by omega)
  have h₁ : ¬ n < 0x80 := by omega
  have h₂ : ¬ n < 0xC2 := by omega
  simp [lead?, UInt8.lt_iff_toNat_lt, hn, h₁, h₂, hh]

theorem lead?_three {n : ℕ} (hl : 0xE0 ≤ n) (hh : n < 0xF0) :
    lead? (UInt8.ofNat n) = some
      ⟨2, if n = 0xE0 then 0xA0 else 0x80, if n = 0xED then 0x9F else 0xBF, n - 0xE0⟩ := by
  have hn := toNat_ofNat (show n < 256 by omega)
  have h₁ : ¬ n < 0x80 := by omega
  have h₂ : ¬ n < 0xC2 := by omega
  have h₃ : ¬ n < 0xE0 := by omega
  simp [lead?, UInt8.lt_iff_toNat_lt, ← UInt8.toNat_inj, hn, h₁, h₂, h₃, hh]

theorem lead?_four {n : ℕ} (hl : 0xF0 ≤ n) (hh : n < 0xF5) :
    lead? (UInt8.ofNat n) = some
      ⟨3, if n = 0xF0 then 0x90 else 0x80, if n = 0xF4 then 0x8F else 0xBF, n - 0xF0⟩ := by
  have hn := toNat_ofNat (show n < 256 by omega)
  have h₁ : ¬ n < 0x80 := by omega
  have h₂ : ¬ n < 0xC2 := by omega
  have h₃ : ¬ n < 0xE0 := by omega
  have h₄ : ¬ n < 0xF0 := by omega
  simp [lead?, UInt8.lt_iff_toNat_lt, ← UInt8.toNat_inj, hn, h₁, h₂, h₃, h₄, hh]

theorem follow_step {m : ℕ} (n : ℕ) {low high : UInt8} (value : ℕ) (bs : Bytes)
    (hl : low.toNat ≤ m) (hh : m ≤ high.toNat) :
    follow (n + 1) low high value (UInt8.ofNat m :: bs) =
      follow n 0x80 0xBF (value * 64 + (m - 0x80)) bs := by
  have hm := toNat_ofNat (show m < 256 by have := high.toNat_lt; omega)
  simp [follow, UInt8.le_iff_toNat_le, hm, hl, hh]

theorem follow_tail (n value x : ℕ) (bs : Bytes) :
    follow (n + 1) 0x80 0xBF value (UInt8.ofNat (x % 64 + 0x80) :: bs) =
      follow n 0x80 0xBF (value * 64 + x % 64) bs := by
  have hl : (0x80 : UInt8).toNat ≤ x % 64 + 0x80 := by
    change 128 ≤ x % 64 + 128
    omega
  have hh : x % 64 + 0x80 ≤ (0xBF : UInt8).toNat := by
    change x % 64 + 128 ≤ 191
    omega
  rw [follow_step n value bs hl hh, Nat.add_sub_cancel]

theorem split_of_lead? {b : UInt8} {l : Lead} (h : lead? b = some l) (bs : Bytes) :
    split b bs = ((follow l.following l.low l.high l.bits bs).1.map Char.ofNat,
      (follow l.following l.low l.high l.bits bs).2) := by
  simp [split, h]

theorem pieces_one {v : ℕ} (h : v < 0x80) (bs : Bytes) :
    pieces (UInt8.ofNat v :: bs) = some (Char.ofNat v) :: pieces bs := by
  rw [pieces_cons, split_of_lead? (lead?_one h)]
  simp [follow]

theorem pieces_two {v : ℕ} (hl : 0x80 ≤ v) (hh : v < 0x800) (bs : Bytes) :
    pieces (UInt8.ofNat (v / 64 + 0xC0) :: UInt8.ofNat (v % 64 + 0x80) :: bs) =
      some (Char.ofNat v) :: pieces bs := by
  have hlead := lead?_two (show 0xC2 ≤ v / 64 + 0xC0 by omega) (by omega)
  have hval : v / 64 * 64 + v % 64 = v := by omega
  rw [pieces_cons, split_of_lead? hlead, Nat.add_sub_cancel, follow_tail, hval]
  simp [follow]

/-- A surrogate would be out of the range of the second byte. -/
theorem pieces_three {v : ℕ} (hl : 0x800 ≤ v) (hh : v < 0x10000)
    (hv : v < 0xD800 ∨ 0xDFFF < v) (bs : Bytes) :
    pieces (UInt8.ofNat (v / 4096 + 0xE0) :: UInt8.ofNat (v / 64 % 64 + 0x80) ::
      UInt8.ofNat (v % 64 + 0x80) :: bs) = some (Char.ofNat v) :: pieces bs := by
  have hlead := lead?_three (show 0xE0 ≤ v / 4096 + 0xE0 by omega) (by omega)
  have hlow : (if v / 4096 + 0xE0 = 0xE0 then (0xA0 : UInt8) else 0x80).toNat ≤
      v / 64 % 64 + 0x80 := by
    split_ifs
    · change 160 ≤ v / 64 % 64 + 128
      omega
    · change 128 ≤ v / 64 % 64 + 128
      omega
  have hhigh : v / 64 % 64 + 0x80 ≤
      (if v / 4096 + 0xE0 = 0xED then (0x9F : UInt8) else 0xBF).toNat := by
    split_ifs
    · change v / 64 % 64 + 128 ≤ 159
      omega
    · change v / 64 % 64 + 128 ≤ 191
      omega
  have hval : (v / 4096 * 64 + v / 64 % 64) * 64 + v % 64 = v := by omega
  rw [pieces_cons, split_of_lead? hlead, Nat.add_sub_cancel, follow_step _ _ _ hlow hhigh,
    Nat.add_sub_cancel, follow_tail, hval]
  simp [follow]

theorem pieces_four {v : ℕ} (hl : 0x10000 ≤ v) (hh : v < 0x110000) (bs : Bytes) :
    pieces (UInt8.ofNat (v / 262144 + 0xF0) :: UInt8.ofNat (v / 4096 % 64 + 0x80) ::
      UInt8.ofNat (v / 64 % 64 + 0x80) :: UInt8.ofNat (v % 64 + 0x80) :: bs) =
      some (Char.ofNat v) :: pieces bs := by
  have hlead := lead?_four (show 0xF0 ≤ v / 262144 + 0xF0 by omega) (by omega)
  have hlow : (if v / 262144 + 0xF0 = 0xF0 then (0x90 : UInt8) else 0x80).toNat ≤
      v / 4096 % 64 + 0x80 := by
    split_ifs
    · change 144 ≤ v / 4096 % 64 + 128
      omega
    · change 128 ≤ v / 4096 % 64 + 128
      omega
  have hhigh : v / 4096 % 64 + 0x80 ≤
      (if v / 262144 + 0xF0 = 0xF4 then (0x8F : UInt8) else 0xBF).toNat := by
    split_ifs
    · change v / 4096 % 64 + 128 ≤ 143
      omega
    · change v / 4096 % 64 + 128 ≤ 191
      omega
  have hval : ((v / 262144 * 64 + v / 4096 % 64) * 64 + v / 64 % 64) * 64 + v % 64 = v := by omega
  rw [pieces_cons, split_of_lead? hlead, Nat.add_sub_cancel, follow_step _ _ _ hlow hhigh,
    Nat.add_sub_cancel, follow_tail, follow_tail, hval]
  simp [follow]

theorem pieces_encodeChar (c : Char) (bs : Bytes) :
    pieces (String.utf8EncodeChar c ++ bs) = some c :: pieces bs := by
  have hc : Char.ofNat c.val.toNat = c := Char.ofNat_toNat c
  have hv : c.val.toNat < 0xD800 ∨ 0xDFFF < c.val.toNat ∧ c.val.toNat < 0x110000 := c.valid
  unfold String.utf8EncodeChar
  generalize c.val.toNat = v at hc hv ⊢
  subst hc
  dsimp only
  -- every byte is cut to its width, but the share of the first one never exceeds it
  split_ifs with h₁ h₂ h₃
  · exact pieces_one (by omega) bs
  · have he : v / 64 % 0x20 = v / 64 := by omega
    rw [he]
    exact pieces_two (by omega) (by omega) bs
  · have he : v / 4096 % 0x10 = v / 4096 := by omega
    rw [he]
    exact pieces_three (by omega) (by omega) (by omega) bs
  · have he : v / 262144 % 0x08 = v / 262144 := by omega
    rw [he]
    exact pieces_four (by omega) (by omega) bs

theorem pieces_encode_append (s : String) (bs : Bytes) :
    pieces (encode s ++ bs) = s.toList.map some ++ pieces bs := by
  unfold encode
  induction s.toList with
  | nil => rfl
  | cons c cs ih =>
    rw [List.flatMap_cons, List.append_assoc, pieces_encodeChar, ih]
    rfl

theorem decode_encode_append (s : String) (bs : Bytes) :
    decode (encode s ++ bs) = s ++ decode bs := by
  simp [decode, pieces_encode_append, Function.comp_def, String.ofList_append]

theorem decode_encode (s : String) : decode (encode s) = s := by
  have h := decode_encode_append s []
  rw [List.append_nil] at h
  rw [h]
  simp [decode, pieces]

theorem decode?_encode (s : String) : decode? (encode s) = some s := by
  have h := pieces_encode_append s []
  rw [List.append_nil] at h
  have hm : (s.toList.map some).mapM id = some s.toList := by
    have hp := List.mapM_pure (m := Option) (f := id) (l := s.toList)
    rw [List.map_id] at hp
    rw [List.mapM_map]
    exact hp
  rw [decode?, h, pieces, List.append_nil, hm]
  simp

theorem decode_ne_empty {bs : Bytes} (h : bs ≠ []) : decode bs ≠ "" := by
  obtain ⟨b, rest, rfl⟩ := List.exists_cons_of_ne_nil h
  simp [decode, pieces_cons]

theorem encode_ne_nil {s : String} (h : s ≠ "") : encode s ≠ [] := by
  intro he
  apply h
  rw [← decode_encode s, he]
  simp [decode, pieces]

end PageScript.Text.Utf8
