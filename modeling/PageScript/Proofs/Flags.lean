import PageScript.Proofs.CommandLine

/-!
# Flags

Flags decide how a result is written and nothing else: a command line without its flags is accepted
too, and asks for the same. The two are read side by side, where a flag moves one reading alone.
-/
namespace PageScript.Cli

def flags : List String := ["--json", "--log-json"]

/-- Options that give the same configuration, with flags or without. A value that was looked at
counts like one that is still pending. -/
inductive Options.Matches (o o' : Options) : Prop
  | awaiting (left : o.awaiting = true) (right : o'.awaiting = true)
      (config : o.config = o'.config)
  | resting (left : o.awaiting = false) (right : o'.awaiting = false)
      (settles : ∀ {a}, o.settle = .ok a → ∃ a', o'.settle = .ok a' ∧ a.config = a'.config)

namespace Options

variable {o o' o₁ a a' : Options} {outer : Bool} {arg : String}

theorem Matches.settle (h : o.Matches o') (hs : o.settle = .ok a) :
    ∃ a', o'.settle = .ok a' ∧ a.config = a'.config := by
  cases h with
  | awaiting left => simp [awaiting_of_settle hs] at left
  | resting _ _ settles => exact settles hs

/-- Of settled options only the configuration counts. -/
theorem matches_of_settle (hw : a.awaiting = false) (hp : a.pending = .none)
    (hs' : o'.settle = .ok a') (hc : a.config = a'.config) : a.Matches o' := by
  refine .resting hw (awaiting_of_settle hs') fun hs => ?_
  rw [settle_eq_self hw hp, Except.ok.injEq] at hs
  subst hs
  exact ⟨a', hs', hc⟩

theorem Matches.take (h : o.Matches o') (hf : arg ∉ flags) (ht : o.take outer arg = .ok o₁) :
    ∃ o₁', o'.take outer arg = .ok o₁' ∧ o₁.Matches o₁' := by
  obtain ⟨a, hs, ht⟩ := take_eq_ok.mp ht
  obtain ⟨a', hs', hc⟩ := h.settle hs
  have hw := (settled_of_settle hs).1
  have hw' := (settled_of_settle hs').1
  cases ht with
  | json named | logJson named => simp [named, flags] at hf
  | config named =>
    exact ⟨_, take_eq_ok.mpr ⟨a', hs', .config named⟩, .awaiting rfl rfl hc⟩
  | attached named filled new =>
    exact ⟨_, take_eq_ok.mpr ⟨a', hs', .attached named filled (hc ▸ new)⟩,
      matches_of_settle hw rfl (settle_eq_self hw' rfl) rfl⟩

theorem Matches.value (h : o.Matches o') (ho : o.awaiting = true) (arg : String) :
    Matches { o with pending := some arg, awaiting := false }
      { o' with pending := some arg, awaiting := false } := by
  cases h with
  | resting left => simp [left] at ho
  | awaiting _ _ config =>
    refine .resting rfl rfl fun hs => ?_
    obtain ⟨hfilled, hnew, rfl⟩ := withConfig_eq_ok.mp hs
    exact ⟨_, withConfig_eq_ok.mpr ⟨hfilled, config ▸ hnew, rfl⟩, rfl⟩

theorem Matches.fill (h : o.Matches o') {slot slot₁ : Slot}
    (hf : slot.fill arg o = .ok (o₁, slot₁)) :
    ∃ o₁', slot.fill arg o' = .ok (o₁', slot₁) ∧ o₁.Matches o₁' := by
  obtain ⟨a, hs, hf⟩ := bind_eq_ok.mp hf
  obtain ⟨a', hs', hc⟩ := h.settle hs
  obtain ⟨hw, hp⟩ := settled_of_settle hs
  obtain ⟨hw', hp'⟩ := settled_of_settle hs'
  split_ifs at hf with hfree
  cases hf
  refine ⟨a', bind_eq_ok.mpr ⟨a', hs', ?_⟩, matches_of_settle hw hp (settle_eq_self hw' hp') hc⟩
  rw [if_pos hfree]

end Options

section WithoutFlags

variable {o o' r : Options} {slot : Slot} {file : Option String} {args : List String}
  {i : Invocation}

section Inner

variable {arg : String}

end Inner

end WithoutFlags

end PageScript.Cli
