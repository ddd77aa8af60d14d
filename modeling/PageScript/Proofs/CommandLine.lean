import Mathlib
import PageScript.Cli.Arguments

namespace PageScript.Cli

def Request.word : Request → String
  | run _ => "run"
  | check _ => "check"
  | showConfig => "config"

/-- The word of a command, whether it takes a file, and the request that it makes of one. -/
inductive Asks : String → Bool → (Option String → Request) → Prop
  | run : Asks "run" true .run
  | check : Asks "check" true .check
  | config : Asks "config" false fun _ => .showConfig

theorem bind_eq_ok {α β : Type} {x : Except Notice α} {f : α → Except Notice β} {b : β} :
    (x >>= f) = .ok b ↔ ∃ a, x = .ok a ∧ f a = .ok b := by
  cases x <;> simp [bind, Except.bind]

theorem bind_error_ne_ok {α β : Type} {x : Except Notice α} {n : Notice} {b : β} :
    (x >>= fun _ => .error n) ≠ .ok b := by
  cases x <;> simp [bind, Except.bind]

namespace Options

/-- What an option makes of options that are settled. -/
inductive Taken (arg : String) (a : Options) : Options → Prop
  | json (named : arg = "--json") (new : a.json = false) : Taken arg a { a with json := true }
  | logJson (named : arg = "--log-json") (new : a.logJson = false) :
      Taken arg a { a with logJson := true }
  | config (named : arg = "--config") : Taken arg a { a with awaiting := true }
  | attached {value : String} (named : attached? "--config=" arg = some value) (filled : value ≠ "")
      (new : a.config = .none) : Taken arg a { a with config := some value, pending := .none }

variable {o o₁ a : Options} {outer : Bool} {arg : String}

theorem withConfig_eq_ok {value : String} :
    o.withConfig value = .ok a ↔
      value ≠ "" ∧ o.config = .none ∧ { o with config := some value, pending := .none } = a := by
  unfold withConfig
  by_cases hv : value = "" <;> cases hc : o.config <;> simp [hv]

theorem awaiting_of_settle (h : o.settle = .ok a) : o.awaiting = false := by
  cases hw : o.awaiting with
  | false => rfl
  | true => simp [settle, hw] at h

theorem settle_eq_self (hw : o.awaiting = false) (hp : o.pending = .none) : o.settle = .ok o := by
  simp [settle, hw, hp]

theorem settled_of_settle (h : o.settle = .ok a) : a.awaiting = false ∧ a.pending = .none := by
  have hw := awaiting_of_settle h
  simp only [settle, hw, Bool.false_eq_true, if_false] at h
  cases hp : o.pending with
  | none =>
    simp only [hp, Except.ok.injEq] at h
    subst h
    exact ⟨hw, hp⟩
  | some value =>
    simp only [hp] at h
    obtain ⟨-, -, rfl⟩ := withConfig_eq_ok.mp h
    exact ⟨hw, rfl⟩

theorem short_ne_ok : o.short outer arg ≠ .ok o₁ := by
  unfold short
  split
  · exact bind_error_ne_ok
  · exact bind_error_ne_ok
  · simp

theorem take_eq_ok : o.take outer arg = .ok o₁ ↔ ∃ a, o.settle = .ok a ∧ Taken arg a o₁ := by
  constructor
  · intro h
    unfold take at h
    split_ifs at h with hjson hlog hconfig hhelp hversion
    · obtain ⟨a, hs, h⟩ := bind_eq_ok.mp h
      split_ifs at h with hnew
      cases h
      exact ⟨a, hs, .json hjson (by simpa using hnew)⟩
    · obtain ⟨a, hs, h⟩ := bind_eq_ok.mp h
      split_ifs at h with hnew
      cases h
      exact ⟨a, hs, .logJson hlog (by simpa using hnew)⟩
    · obtain ⟨a, hs, h⟩ := bind_eq_ok.mp h
      cases h
      exact ⟨a, hs, .config hconfig⟩
    · exact absurd h bind_error_ne_ok
    · exact absurd h bind_error_ne_ok
    · exact absurd h bind_error_ne_ok
    · cases hv : attached? "--config=" arg with
      | none =>
        rw [hv] at h
        exact absurd h short_ne_ok
      | some value =>
        rw [hv] at h
        obtain ⟨a, hs, h⟩ := bind_eq_ok.mp h
        obtain ⟨hfilled, hnew, rfl⟩ := withConfig_eq_ok.mp h
        exact ⟨a, hs, .attached hv hfilled hnew⟩
  · rintro ⟨a, hs, ht⟩
    cases ht with
    | json named new => simp [take, named, hs, new, bind, Except.bind]
    | logJson named new => simp [take, named, hs, new, bind, Except.bind]
    | config named => simp [take, named, hs, bind, Except.bind]
    | @attached value named filled new =>
      have hne : ∀ {name}, attached? "--config=" name = Option.none → arg ≠ name := by
        rintro name hn rfl
        rw [hn] at named
        cases named
      have hw : a.withConfig value = .ok { a with config := some value, pending := .none } :=
        withConfig_eq_ok.mpr ⟨filled, new, rfl⟩
      unfold take
      rw [if_neg (hne (by decide)), if_neg (hne (by decide)), if_neg (hne (by decide)),
        if_neg (hne (by decide)), if_neg (hne (by decide)), named]
      exact bind_eq_ok.mpr ⟨a, hs, hw⟩

end Options

section Command

variable {outer more : List String} {arg : String} {o : Options} {i : Invocation}

section Asks

variable {word : String} {takesFile : Bool} {request : Option String → Request}

theorem Asks.plain (h : Asks word takesFile request) : Options.isOption word = false := by
  cases h <;> decide

end Asks

/-- Arguments are refused whatever follows, or leave the same options for whatever follows. -/
def ReadsOn (o : Options) (args : List String) : Prop :=
  (∃ n, ∀ rest, readOuter o (args ++ rest) = .error n) ∨
    ∃ o', o'.awaiting = false ∧ ∀ rest, readOuter o (args ++ rest) = readOuter o' rest

theorem ReadsOn.cons {x : Except Notice Options}
    (hx : ∀ rest, readOuter o (arg :: rest) = x >>= (readOuter · rest))
    (hmore : ∀ o₁, x = .ok o₁ → ReadsOn o₁ more) : ReadsOn o (arg :: more) := by
  cases x with
  | error n => exact .inl ⟨n, fun rest => hx _⟩
  | ok o₁ =>
    obtain ⟨n, hn⟩ | ⟨o', ho', h⟩ := hmore o₁ rfl
    · exact .inl ⟨n, fun rest => (hx _).trans (hn rest)⟩
    · exact .inr ⟨o', ho', fun rest => (hx _).trans (h rest)⟩

end Command

end PageScript.Cli
