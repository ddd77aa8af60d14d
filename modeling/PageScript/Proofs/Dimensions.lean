import Mathlib
import PageScript.Dimension

namespace PageScript.Dimension

/-- The value of decimal digits of which the last counts ones. -/
def numeral (digits : List Char) : ℕ :=
  Nat.ofDigits 10 (digits.reverse.map fun c => c.toNat - '0'.toNat)

/-- At least one digit and nothing else behind an optional plus sign, with a value that is positive
and fits. -/
def Denotes (value : String) (n : UInt32) : Prop :=
  ∃ digits, (value.toList = digits ∨ value.toList = '+' :: digits) ∧ digits ≠ [] ∧
    (∀ c ∈ digits, c.isDigit = true) ∧ numeral digits = n.toNat ∧ 0 < n.toNat

def extend (n : ℕ) (cs : List Char) : ℕ := cs.foldl (fun n c => n * 10 + (c.toNat - '0'.toNat)) n

theorem extend_cons (n : ℕ) (c : Char) (cs : List Char) :
    extend n (c :: cs) = extend (n * 10 + (c.toNat - '0'.toNat)) cs := by
  simp only [extend, List.foldl_cons]

theorem le_extend (n : ℕ) (cs : List Char) : n ≤ extend n cs := by
  induction cs generalizing n with
  | nil => exact le_rfl
  | cons c cs ih =>
    have hi := ih (n * 10 + (c.toNat - '0'.toNat))
    rw [extend_cons]
    omega

theorem numeral_eq_extend (digits : List Char) : numeral digits = extend 0 digits := by
  simp only [numeral, extend, Nat.ofDigits_eq_foldr, List.foldr_map, List.foldr_reverse]
  congr 1
  funext n c
  simp
  ring

theorem digit?_of_isDigit {c : Char} (h : c.isDigit = true) :
    digit? c = some (c.toNat - '0'.toNat) := by
  have hc : '0' ≤ c ∧ c ≤ '9' := by simpa [Char.isDigit, Char.le_def] using h
  simp [digit?, hc]

theorem digit?_of_not_isDigit {c : Char} (h : ¬ c.isDigit = true) : digit? c = none := by
  have hc : ¬ ('0' ≤ c ∧ c ≤ '9') := by simpa [Char.isDigit, Char.le_def] using h
  simp [digit?, hc]

/-- Reading more digits succeeds when there is nothing else and the whole value fits: on the way to
it no value is larger. -/
theorem accumulate_eq_ok_iff {n m : ℕ} (cs : List Char) (hn : n ≤ limit) :
    accumulate n cs = .ok m ↔
      (∀ c ∈ cs, c.isDigit = true) ∧ extend n cs = m ∧ m ≤ limit := by
  induction cs generalizing n with
  | nil =>
    have he : extend n [] = n := by simp only [extend, List.foldl_nil]
    simp only [accumulate, he, Except.ok.injEq, List.not_mem_nil, false_implies, implies_true,
      true_and]
    exact ⟨fun h => ⟨h, h ▸ hn⟩, And.left⟩
  | cons c cs ih =>
    by_cases hc : c.isDigit = true
    · simp only [accumulate, digit?_of_isDigit hc, extend_cons, List.forall_mem_cons, hc, true_and]
      split_ifs with hlarge
      · have hle := le_extend (n * 10 + (c.toNat - '0'.toNat)) cs
        constructor
        · simp
        · rintro ⟨-, he, hm⟩
          omega
      · exact ih (by omega)
    · simp [accumulate, digit?_of_not_isDigit hc, hc]

theorem accumulate_zero_eq_ok_iff {m : ℕ} (cs : List Char) :
    accumulate 0 cs = .ok m ↔ (∀ c ∈ cs, c.isDigit = true) ∧ numeral cs = m ∧ m ≤ limit := by
  rw [accumulate_eq_ok_iff cs (Nat.zero_le _), numeral_eq_extend]

theorem ne_plus_of_isDigit {cs : List Char} (h : ∀ c ∈ cs, c.isDigit = true) (ds : List Char) :
    cs ≠ '+' :: ds := by
  rintro rfl
  exact absurd (h '+' List.mem_cons_self) (by decide)

/-- Behind the sign, if there is one, all characters are digits and there is one. -/
theorem unsigned_eq_ok_iff {m : ℕ} (cs : List Char) :
    unsigned cs = .ok m ↔
      ∃ digits, (cs = digits ∨ cs = '+' :: digits) ∧ digits ≠ [] ∧
        (∀ c ∈ digits, c.isDigit = true) ∧ numeral digits = m ∧ m ≤ limit := by
  fun_cases unsigned cs with
  | case1 =>
    constructor
    · simp
    · rintro ⟨digits, hcs, hne, -⟩
      simp_all
  | case2 =>
    constructor
    · simp
    · rintro ⟨digits, rfl | hcs, hne, hd, -⟩
      · exact absurd rfl (ne_plus_of_isDigit hd [])
      · simp_all
  | case3 ds hne =>
    rw [accumulate_zero_eq_ok_iff]
    constructor
    · intro h
      exact ⟨ds, .inr rfl, fun hnil => hne hnil, h⟩
    · rintro ⟨digits, rfl | hcs, -, h⟩
      · exact absurd rfl (ne_plus_of_isDigit h.1 ds)
      · obtain rfl : ds = digits := by simpa using hcs
        exact h
  | case4 _ hnil hone hplus =>
    rw [accumulate_zero_eq_ok_iff]
    constructor
    · intro h
      exact ⟨cs, .inl rfl, hnil, h⟩
    · rintro ⟨digits, rfl | hcs, -, h⟩
      · exact h
      · exact absurd hcs (hplus digits)

theorem parse_eq_ok_iff {value : String} {n : UInt32} : parse value = .ok n ↔ Denotes value n := by
  have hlimit : limit = 4294967295 := by decide
  have hn := n.toNat_lt
  have hparse : parse value = .ok n ↔ unsigned value.toList = .ok n.toNat ∧ 0 < n.toNat := by
    unfold parse
    cases hu : unsigned value.toList with
    | error fault => simp [bind, Except.bind]
    | ok m =>
      obtain ⟨-, -, -, -, -, hm⟩ := (unsigned_eq_ok_iff _).mp hu
      have hnat : UInt32.ofNat m = n ↔ m = n.toNat := by
        constructor
        · rintro rfl
          exact (UInt32.toNat_ofNat_of_lt' (by simp only [UInt32.size]; omega)).symm
        · rintro rfl
          exact UInt32.ofNat_toNat
      simp only [bind, Except.bind, Except.ok.injEq]
      split_ifs with hz
      · simp
        omega
      · rw [Except.ok.injEq, hnat]
        omega
  rw [hparse, unsigned_eq_ok_iff]
  constructor
  · rintro ⟨⟨digits, hcs, hne, hd, hv, -⟩, hpos⟩
    exact ⟨digits, hcs, hne, hd, hv, hpos⟩
  · rintro ⟨digits, hcs, hne, hd, hv, hpos⟩
    exact ⟨⟨digits, hcs, hne, hd, hv, by omega⟩, hpos⟩

end PageScript.Dimension
