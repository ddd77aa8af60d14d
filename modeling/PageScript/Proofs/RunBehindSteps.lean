import PageScript.Proofs.Histories

/-!
# Runs behind steps

A runner may be stepped before it is run. While no step has failed, the run ends as the run of the
whole source does, with the same calls over both. Behind a failed step it does nothing and reports
success, for it only asks the next step, and that step reports neither success nor failure.
-/
namespace PageScript

variable {σ : Type}

namespace Registry

/-- A run succeeds exactly if all commands of a source that ends cleanly are accepted. -/
theorem run_eq_ok_iff (r : Registry σ) (source : Source) (s : σ) :
    (r.run source s).result = .ok () ↔
      source.failure = none ∧ r.Accepts source.commands s := by
  obtain ⟨hresult, -, -⟩ := r.run_eq_sweep source s
  rw [hresult]
  constructor
  · intro hok
    obtain ⟨later, hsplit, -, hstop⟩ := r.sweep_stops (endResult source.fault) source.commands s
    rw [hok] at hstop
    generalize hr : (Except.ok () : Except LineError Unit) = result at hstop
    cases hstop with
    | ended all accepted =>
      have hfault : source.fault = none := by
        cases hf : source.fault with
        | none => rfl
        | some e => simp [hf, endResult] at hr
      rw [all, List.append_nil] at hsplit
      rw [hsplit]
      exact ⟨Source.fault_eq_none.mp hfault, accepted⟩
    | unknown => simp at hr
    | refused => simp at hr
  · rintro ⟨hclean, haccepts⟩
    have hsweep := r.sweep_of_accepts (endResult source.fault) haccepts []
    rw [List.append_nil] at hsweep
    rw [hsweep, Source.fault_eq_none.mpr hclean]
    rfl

end Registry

namespace Runner

theorem run_of_terminal {r : Runner σ} (h : r.state.isTerminal = true) (s : σ) :
    r.run s = ⟨.ok (), s, []⟩ := by
  have hstep := step_of_terminal h s
  rw [run_of_none (by rw [hstep]), hstep]

theorem isTerminal_of_none {r : Runner σ} {s : σ} (h : (r.step s).outcome = .ok none) :
    (r.step s).runner.state.isTerminal = true := by
  have hm := r.moves_step s
  generalize r.step s = step, r.nextCall s = calls at h hm
  cases hm with
  | inert ended => exact ended
  | finished => rfl
  | failed => simp at h
  | refused => simp at h
  | accepted => simp at h

/-- A step that does not fail leaves the rest of the run. -/
theorem run_of_step {r : Runner σ} {s : σ} (h : ∀ e, (r.step s).outcome ≠ .error e) :
    ((r.step s).runner.run (r.step s).shared).result = (r.run s).result ∧
      ((r.step s).runner.run (r.step s).shared).shared = (r.run s).shared := by
  cases ho : (r.step s).outcome with
  | error e => exact absurd ho (h e)
  | ok given =>
    cases given with
    | none =>
      rw [run_of_none ho, run_of_terminal (isTerminal_of_none ho)]
      exact ⟨rfl, rfl⟩
    | some line =>
      rw [run_of_line ho]
      exact ⟨rfl, rfl⟩

/-- While no step fails, what a run comes to does not change. -/
theorem run_of_after {r : Runner σ} {s : σ} {n : ℕ} (h : ∀ e, .error e ∉ r.outcomes s n) :
    ((r.after s n).1.run (r.after s n).2).result = (r.run s).result ∧
      ((r.after s n).1.run (r.after s n).2).shared = (r.run s).shared := by
  induction n with
  | zero => exact ⟨rfl, rfl⟩
  | succ n ih =>
    rw [outcomes_succ] at h
    obtain ⟨hresult, hshared⟩ := ih fun e he => h e (List.mem_append_left _ he)
    obtain ⟨hr, hs⟩ := run_of_step fun e he =>
      h e (List.mem_append_right _ (List.mem_singleton.mpr he.symm))
    rw [after_succ, stepAt]
    exact ⟨hr.trans hresult, hs.trans hshared⟩

theorem after_step (r : Runner σ) (s : σ) (n : ℕ) :
    r.after s (n + 1) = (r.step s).runner.after (r.step s).shared n := by
  induction n with
  | zero => rfl
  | succ n ih => rw [after_succ, stepAt, ih, after_succ, stepAt]

/-- The error of a run is that of one of its steps. -/
theorem exists_outcome_of_run {r : Runner σ} {s : σ} {e : LineError}
    (h : (r.run s).result = .error e) : ∃ n, (r.stepAt s n).outcome = .error e := by
  induction hn : r.commands.size using Nat.strong_induction_on generalizing r s with
  | _ n ih =>
    cases ho : (r.step s).outcome with
    | error e' =>
      rw [run_of_error ho] at h
      obtain rfl := Except.error.inj h
      exact ⟨0, ho⟩
    | ok given =>
      cases given with
      | none =>
        rw [run_of_none ho] at h
        cases h
      | some line =>
        rw [run_of_line ho] at h
        obtain ⟨m, hm⟩ := ih _ (hn ▸ step_size_lt ho) h rfl
        exact ⟨m + 1, by rw [stepAt, after_step]; exact hm⟩

theorem state_of_error {registry : Registry σ} {source : Source} {s : σ} {n : ℕ}
    (h : ∃ e, .error e ∈ (ofSource registry source).outcomes s n) :
    ((ofSource registry source).after s n).1.state = .failed := by
  obtain ⟨lines, tail, blamed, haccount⟩ := exists_account registry source s n
  exact haccount.failed_iff.mpr h

/-- What a run reports behind any number of steps. If none of them failed it ends as a run over the
whole source does, and the calls of the steps and of the run are together the calls of that run. If
one failed it does nothing and reports success. So it reports success exactly if a step failed, or
if every command of the source is accepted and the source ends cleanly. -/
theorem run_behind_steps (registry : Registry σ) (source : Source) (s : σ) (n : ℕ) :
    let all := (Parser.ofSource source).drain
    let start := ofSource registry source
    let now := start.after s n
    let noted := start.noted.after (s, []) n
    let run := now.1.run now.2
    (run.result = .ok () ↔ (∃ e, .error e ∈ start.outcomes s n) ∨
      (source.failure = none ∧ registry.Accepts all.commands s)) ∧
    ((∃ e, .error e ∈ start.outcomes s n) → run = ⟨.ok (), now.2, []⟩) ∧
    ((∀ e, .error e ∉ start.outcomes s n) →
      run.result = (registry.run source s).result ∧
      run.shared = (registry.run source s).shared ∧
      (noted.1.run noted.2).shared = (registry.noted.run source (s, [])).shared) := by
  intro all start now noted run
  obtain ⟨hcommands, -⟩ := Parser.drain_ofSource source
  have hfailed : (∃ e, .error e ∈ start.outcomes s n) → run = ⟨.ok (), now.2, []⟩ := by
    intro he
    have hstate := state_of_error he
    exact run_of_terminal (by rw [hstate]; rfl) now.2
  have hgoing : (∀ e, .error e ∉ start.outcomes s n) →
      run.result = (registry.run source s).result ∧ run.shared = (registry.run source s).shared :=
    fun hnone => run_of_after hnone
  refine ⟨?_, hfailed, fun hnone => ?_⟩
  · rw [hcommands, ← registry.run_eq_ok_iff]
    by_cases he : ∃ e, .error e ∈ start.outcomes s n
    · simp [hfailed he, he]
    · rw [or_iff_right he, (hgoing fun e hm => he ⟨e, hm⟩).1]
  · have houtcomes : start.noted.outcomes (s, []) n = start.outcomes s n :=
      List.map_congr_left fun i _ => (start.stepAt_noted s i).1
    obtain ⟨hresult, hshared⟩ := hgoing hnone
    have hnoted : ∀ e, .error e ∉ start.noted.outcomes (s, []) n := by
      rw [houtcomes]
      exact hnone
    exact ⟨hresult, hshared, (run_of_after hnoted).2⟩

/-- A script of one unknown command: its step fails, and a run behind it reports success although
the command was not accepted. -/
theorem run_succeeds_behind_failed_step :
    let registry : Registry Unit := .empty
    let source := Source.ofBytes [0x6E, 0x6F, 0x70, 0x65, Lexer.newline]
    let start := ofSource registry source
    let now := start.after () 1
    start.outcomes () 1 = [.error ⟨1, .unknownCommand "nope"⟩] ∧
      (now.1.run now.2).result = .ok () ∧
      ¬ (source.failure = none ∧
        registry.Accepts (Parser.ofSource source).drain.commands ()) := by
  intro registry source start now
  have hcommands : source.commands = [⟨"nope", [], 1⟩] := by cbv
  have hlookup : registry.lookup "nope" = none := rfl
  obtain ⟨hdrain, -⟩ := Parser.drain_ofSource source
  have hitem : start.commands.turn.item = some (.ok ⟨"nope", [], 1⟩) := by
    have hitems := Parser.items_ofSource source
    rw [hcommands] at hitems
    exact (Parser.turn_of_items hitems).1
  have hstep := step_of_unknown (r := start) rfl () hitem hlookup
  have houtcomes : start.outcomes () 1 = [.error ⟨1, .unknownCommand "nope"⟩] := by
    change [(start.step ()).outcome] = _
    rw [hstep]
  have hstate : now.1.state.isTerminal = true := by
    rw [state_of_error ⟨_, houtcomes ▸ List.mem_singleton.mpr rfl⟩]
    rfl
  refine ⟨houtcomes, by rw [run_of_terminal hstate], ?_⟩
  rw [hdrain, hcommands]
  rintro ⟨-, ⟨handler, hfound, -⟩, -⟩
  rw [hlookup] at hfound
  cases hfound

end Runner

end PageScript
