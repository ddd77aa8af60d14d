import Mathlib

namespace PageScript.Calls

variable {σ α : Type} (next : σ → Option α × σ)

def after : ℕ → σ → σ
  | 0, s => s
  | n + 1, s => after n (next s).2

def answer (n : ℕ) (s : σ) : Option α := (next (after next n s)).1

/-- The calls give these items in order, and nothing for ever after. -/
def Yields (s : σ) (items : List α) : Prop := ∀ n, answer next n s = items[n]?

theorem answer_zero (s : σ) : answer next 0 s = (next s).1 := rfl

theorem answer_succ (n : ℕ) (s : σ) : answer next (n + 1) s = answer next n (next s).2 := rfl

theorem after_add (m n : ℕ) (s : σ) : after next (m + n) s = after next n (after next m s) := by
  induction m generalizing s with
  | zero => rw [Nat.zero_add, after]
  | succ m ih => rw [Nat.succ_add, after, after, ih]

variable {next}

/-- A list of items that every call unfolds by one is what the calls give. -/
theorem yields_of_step (items : σ → List α)
    (hstep : ∀ s, items s = (next s).1.toList ++ items (next s).2)
    (hend : ∀ s, (next s).1 = none → items s = []) (s : σ) : Yields next s (items s) := by
  intro n
  induction n generalizing s with
  | zero =>
    rw [answer_zero]
    cases hn : (next s).1 with
    | none => simp [hend s hn]
    | some a =>
      rw [hstep s, hn]
      rfl
  | succ n ih =>
    rw [answer_succ, ih]
    cases hn : (next s).1 with
    | none =>
      have he := hstep s
      rw [hend s hn, hn] at he
      simp only [Option.toList_none, List.nil_append] at he
      simp [← he, hend s hn]
    | some a =>
      rw [hstep s, hn]
      rfl

end PageScript.Calls
