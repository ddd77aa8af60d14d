import PageScript.Proofs.Decoding

namespace PageScript.Text.Utf8

theorem ofNat_cons_lt_iff {m n : ℕ} (hm : m < 256) (hn : n < 256) (xs ys : Bytes) :
    UInt8.ofNat m :: xs < UInt8.ofNat n :: ys ↔ m < n ∨ m = n ∧ xs < ys := by
  rw [List.cons_lt_cons_iff, UInt8.lt_iff_toNat_lt, ← UInt8.toNat_inj, toNat_ofNat hm,
    toNat_ofNat hn]

theorem toNat_val_lt (c : Char) : c.val.toNat < 0x110000 := by
  have hv : c.val.toNat < 0xD800 ∨ 0xDFFF < c.val.toNat ∧ c.val.toNat < 0x110000 := c.valid
  omega

/-- The bytes of a smaller character come first, whatever follows either. -/
theorem encodeChar_append_lt {c d : Char} (h : c < d) (xs ys : Bytes) :
    String.utf8EncodeChar c ++ xs < String.utf8EncodeChar d ++ ys := by
  have hlt : c.val.toNat < d.val.toNat := h
  have hc := toNat_val_lt c
  have hd := toNat_val_lt d
  unfold String.utf8EncodeChar
  generalize c.val.toNat = m at hlt hc ⊢
  generalize d.val.toNat = n at hlt hd ⊢
  have hm : m / 262144 % 8 = m / 262144 := by omega
  have hn : n / 262144 % 8 = n / 262144 := by omega
  dsimp only
  rw [hm, hn]
  clear hm hn
  -- of two widths the first bytes decide, within one width the first digit that differs
  split_ifs
  all_goals
    simp (disch := omega) only [List.cons_append, List.nil_append, ofNat_cons_lt_iff]
    omega

theorem encode_lt_encode {s t : String} (h : s < t) : encode s < encode t := by
  have hchars : List.Lex (· < ·) s.toList t.toList := h
  unfold encode
  generalize s.toList = cs at hchars ⊢
  generalize t.toList = ds at hchars ⊢
  induction hchars with
  | @nil d ds =>
    have hne := String.utf8EncodeChar_ne_nil (c := d)
    obtain ⟨b, bytes, hb⟩ := List.exists_cons_of_ne_nil hne
    rw [List.flatMap_nil, List.flatMap_cons, hb]
    exact List.nil_lt_cons _ _
  | rel hlt => exact encodeChar_append_lt hlt _ _
  | cons _ ih =>
    rw [List.flatMap_cons, List.flatMap_cons]
    exact List.append_left_lt ih

end PageScript.Text.Utf8
