import PageScript.Directive
import PageScript.Proofs.Dimensions

/-!
# Faults of dimensions

Why a text is refused as a dimension, said without reading it from the left. A value is known to be
too large as soon as the digits at the beginning make it so, whatever stands behind them; any other
fault of form is found only when no value is too large.
-/
namespace PageScript.Dimension

/-- At least one digit and nothing else behind an optional plus sign, with this value. -/
def Decimal (value : String) (n : ℕ) : Prop :=
  ∃ digits, (value.toList = digits ∨ value.toList = '+' :: digits) ∧ digits ≠ [] ∧
    (∀ c ∈ digits, c.isDigit = true) ∧ numeral digits = n

def withoutPlus : List Char → List Char
  | '+' :: cs => cs
  | cs => cs

/-- The digits behind an optional plus sign, up to the first character that is none. -/
def leadingDigits (cs : List Char) : List Char := (withoutPlus cs).takeWhile Char.isDigit

/-- The reason for which a text is refused. -/
inductive Unfit (value : String) : String → Prop
  | zero (form : Decimal value 0) : Unfit value "must be positive"
  | empty (nothing : value = "") : Unfit value "cannot parse integer from empty string"
  | tooLarge (large : 2 ^ 32 ≤ numeral (leadingDigits value.toList)) :
      Unfit value "number too large to fit in target type"
  | invalidDigit (something : value ≠ "") (small : numeral (leadingDigits value.toList) < 2 ^ 32)
      (form : ∀ n, ¬ Decimal value n) : Unfit value "invalid digit found in string"

theorem limit_lt_iff {n : ℕ} : limit < n ↔ 2 ^ 32 ≤ n := by
  have hlimit : limit = 4294967295 := by decide
  omega

theorem extend_nil (n : ℕ) : extend n [] = n := by simp only [extend, List.foldl_nil]

/-- Reading more digits fails for their value alone exactly if the next of them are too many. -/
theorem accumulate_eq_tooLarge_iff {n : ℕ} (cs : List Char) (hn : n ≤ limit) :
    accumulate n cs = .error .tooLarge ↔ limit < extend n (cs.takeWhile Char.isDigit) := by
  induction cs generalizing n with
  | nil =>
    rw [List.takeWhile_nil, extend_nil]
    simp [accumulate]
    omega
  | cons c cs ih =>
    by_cases hc : c.isDigit = true
    · rw [List.takeWhile_cons_of_pos hc, extend_cons]
      simp only [accumulate, digit?_of_isDigit hc]
      split_ifs with hlarge
      · have hle := le_extend (n * 10 + (c.toNat - '0'.toNat)) (cs.takeWhile Char.isDigit)
        simp only [true_iff]
        omega
      · exact ih (by omega)
    · rw [List.takeWhile_cons_of_neg hc, extend_nil]
      simp [accumulate, digit?_of_not_isDigit hc]
      omega

/-- Among digits nothing can be missing, and a value of zero is no fault yet. -/
theorem fault_of_accumulate {n : ℕ} {cs : List Char} {fault : Fault}
    (h : accumulate n cs = .error fault) : fault = .invalidDigit ∨ fault = .tooLarge := by
  fun_induction accumulate n cs with
  | case1 => cases h
  | case2 => exact .inl (Except.error.inj h).symm
  | case3 => exact .inr (Except.error.inj h).symm
  | case4 _ _ _ _ _ _ ih => exact ih h

/-- Only a text without characters is refused as empty, and no text is as zero before it is read. -/
theorem fault_of_unsigned {cs : List Char} {fault : Fault} (h : unsigned cs = .error fault) :
    (cs = [] ∧ fault = .empty) ∨ (cs ≠ [] ∧ (fault = .invalidDigit ∨ fault = .tooLarge)) := by
  revert h
  fun_cases unsigned cs with
  | case1 =>
    intro h
    exact .inl ⟨rfl, (Except.error.inj h).symm⟩
  | case2 =>
    intro h
    exact .inr ⟨List.cons_ne_nil _ _, .inl (Except.error.inj h).symm⟩
  | case3 ds hne =>
    intro h
    exact .inr ⟨List.cons_ne_nil _ _, fault_of_accumulate h⟩
  | case4 _ hnil hone hplus =>
    intro h
    exact .inr ⟨hnil, fault_of_accumulate h⟩

theorem withoutPlus_of_ne {cs : List Char} (h : ∀ ds, cs ≠ '+' :: ds) : withoutPlus cs = cs := by
  unfold withoutPlus
  split
  · rename_i ds
    exact absurd rfl (h ds)
  · rfl

/-- A number is too large if the digits at the beginning are, also when it is not read further. -/
theorem unsigned_eq_tooLarge_iff (cs : List Char) :
    unsigned cs = .error .tooLarge ↔ 2 ^ 32 ≤ numeral (leadingDigits cs) := by
  have hread : ∀ ds, accumulate 0 ds = .error .tooLarge ↔
      limit < numeral (ds.takeWhile Char.isDigit) := by
    intro ds
    rw [accumulate_eq_tooLarge_iff ds (Nat.zero_le _), numeral_eq_extend]
  have hnone : ¬ limit < numeral [] := by decide
  rw [← limit_lt_iff]
  fun_cases unsigned cs with
  | case1 => simpa [leadingDigits, withoutPlus] using hnone
  | case2 => simpa [leadingDigits, withoutPlus] using hnone
  | case3 ds hne => exact hread ds
  | case4 _ hnil hone hplus =>
    rw [leadingDigits, withoutPlus_of_ne fun ds => hplus ds]
    exact hread cs

section Decimal

variable {value : String} {n : ℕ}

theorem numeral_leadingDigits (h : Decimal value n) :
    numeral (leadingDigits value.toList) = n := by
  obtain ⟨digits, hcs, hne, hd, rfl⟩ := h
  have hrest : withoutPlus value.toList = digits := by
    rcases hcs with hcs | hcs
    · rw [hcs]
      exact withoutPlus_of_ne fun ds => ne_plus_of_isDigit hd ds
    · rw [hcs]
      rfl
  rw [leadingDigits, hrest, List.takeWhile_eq_self_iff.mpr hd]

theorem unsigned_eq_ok_iff_decimal :
    unsigned value.toList = .ok n ↔ Decimal value n ∧ n < 2 ^ 32 := by
  rw [unsigned_eq_ok_iff, ← Nat.not_le, ← limit_lt_iff, Nat.not_lt]
  constructor
  · rintro ⟨digits, hcs, hne, hd, hv, hn⟩
    exact ⟨⟨digits, hcs, hne, hd, hv⟩, hn⟩
  · rintro ⟨⟨digits, hcs, hne, hd, hv⟩, hn⟩
    exact ⟨digits, hcs, hne, hd, hv, hn⟩

theorem denotes_iff_decimal {n : UInt32} :
    Denotes value n ↔ Decimal value n.toNat ∧ 0 < n.toNat := by
  constructor
  · rintro ⟨digits, hcs, hne, hd, hv, hpos⟩
    exact ⟨⟨digits, hcs, hne, hd, hv⟩, hpos⟩
  · rintro ⟨⟨digits, hcs, hne, hd, hv⟩, hpos⟩
    exact ⟨digits, hcs, hne, hd, hv, hpos⟩

theorem parse_eq_error_iff {fault : Fault} :
    parse value = .error fault ↔ unsigned value.toList = .error fault ∨
      (unsigned value.toList = .ok 0 ∧ fault = .zero) := by
  unfold parse
  cases hu : unsigned value.toList with
  | error f => simp [bind, Except.bind]
  | ok m =>
    by_cases hz : m = 0
    · simp [bind, Except.bind, hz, eq_comm]
    · simp [bind, Except.bind, hz]

theorem unfit_iff {reason : String} :
    Unfit value reason ↔ ∃ fault, parse value = .error fault ∧ fault.reason = reason := by
  constructor
  · intro h
    cases h with
    | zero form =>
      have hread := unsigned_eq_ok_iff_decimal.mpr ⟨form, by decide⟩
      exact ⟨.zero, parse_eq_error_iff.mpr (.inr ⟨hread, rfl⟩), rfl⟩
    | empty nothing =>
      subst nothing
      exact ⟨.empty, rfl, rfl⟩
    | tooLarge large =>
      have hread := (unsigned_eq_tooLarge_iff value.toList).mpr large
      exact ⟨.tooLarge, parse_eq_error_iff.mpr (.inl hread), rfl⟩
    | invalidDigit something small form =>
      -- what is left is neither read nor refused for one of the other reasons
      refine ⟨.invalidDigit, parse_eq_error_iff.mpr (.inl ?_), rfl⟩
      cases hu : unsigned value.toList with
      | ok m => exact absurd (unsigned_eq_ok_iff_decimal.mp hu).1 (form m)
      | error fault =>
        rcases fault_of_unsigned hu with ⟨hnil, -⟩ | ⟨-, rfl | rfl⟩
        · exact absurd (String.toList_eq_nil_iff.mp hnil) something
        · rfl
        · have hlarge := (unsigned_eq_tooLarge_iff value.toList).mp hu
          omega
  · rintro ⟨fault, hparse, rfl⟩
    rcases parse_eq_error_iff.mp hparse with hu | ⟨hu, rfl⟩
    · rcases fault_of_unsigned hu with ⟨hnil, rfl⟩ | ⟨hne, rfl | rfl⟩
      · exact .empty (String.toList_eq_nil_iff.mp hnil)
      · have hsmall : numeral (leadingDigits value.toList) < 2 ^ 32 := by
          by_contra hlarge
          rw [Nat.not_lt, ← unsigned_eq_tooLarge_iff, hu] at hlarge
          cases hlarge
        refine .invalidDigit (mt String.toList_eq_nil_iff.mpr hne) hsmall fun n hn => ?_
        rw [numeral_leadingDigits hn] at hsmall
        rw [unsigned_eq_ok_iff_decimal.mpr ⟨hn, hsmall⟩] at hu
        cases hu
      · exact .tooLarge ((unsigned_eq_tooLarge_iff value.toList).mp hu)
    · exact .zero (unsigned_eq_ok_iff_decimal.mp hu).1

theorem maxdim_eq_ok_iff {m : UInt32} :
    Directive.maxdim value = .ok m ↔ Decimal value m.toNat ∧ 0 < m.toNat := by
  rw [← denotes_iff_decimal, ← parse_eq_ok_iff]
  unfold Directive.maxdim
  cases parse value <;> simp

theorem maxdim_eq_error_iff {e : DirectiveError} :
    Directive.maxdim value = .error e ↔
      ∃ reason, Unfit value reason ∧ e = .invalidValue "background-maxdim" value reason := by
  have hfault : Directive.maxdim value = .error e ↔
      ∃ fault, parse value = .error fault ∧
        e = .invalidValue "background-maxdim" value fault.reason := by
    unfold Directive.maxdim
    cases parse value with
    | ok n => simp
    | error fault => simp [Directive.invalid, Directive.command, eq_comm]
  rw [hfault]
  constructor
  · rintro ⟨fault, hparse, rfl⟩
    exact ⟨fault.reason, unfit_iff.mpr ⟨fault, hparse, rfl⟩, rfl⟩
  · rintro ⟨reason, hunfit, rfl⟩
    obtain ⟨fault, hparse, rfl⟩ := unfit_iff.mp hunfit
    exact ⟨fault, hparse, rfl⟩

end Decimal

/-- The largest dimension is accepted exactly if it is written as a positive decimal that fits, and
its value is that of the digits. Anything else is refused with the text as it was given, for the
reason that its characters give. -/
theorem maxdim_accepts_positive_decimals (value : String) :
    (∀ n : ℕ, (∃ m : UInt32, m.toNat = n ∧ Directive.maxdim value = .ok m) ↔
      Decimal value n ∧ 1 ≤ n ∧ n ≤ 2 ^ 32 - 1) ∧
    ∀ e, Directive.maxdim value = .error e ↔
      ∃ reason, Unfit value reason ∧ e = .invalidValue "background-maxdim" value reason := by
  refine ⟨fun n => ⟨?_, ?_⟩, fun e => maxdim_eq_error_iff⟩
  · rintro ⟨m, rfl, hm⟩
    obtain ⟨hdecimal, hpos⟩ := maxdim_eq_ok_iff.mp hm
    have hlt := m.toNat_lt
    exact ⟨hdecimal, hpos, by omega⟩
  · rintro ⟨hdecimal, hpos, hle⟩
    have hnat : (UInt32.ofNat n).toNat = n :=
      UInt32.toNat_ofNat_of_lt' (by simp only [UInt32.size]; omega)
    refine ⟨UInt32.ofNat n, hnat, maxdim_eq_ok_iff.mpr ?_⟩
    rw [hnat]
    exact ⟨hdecimal, hpos⟩

end PageScript.Dimension
