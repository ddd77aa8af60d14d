import PageScript.Proofs.Histories
import PageScript.Proofs.RoundTrip
import PageScript.Proofs.RunBehindSteps
import PageScript.Proofs.StartPage

/-!
# Reachable settings

Settings that any script leaves behind, wherever its run has come to: no text in them is empty and a
dimension is positive. A step either leaves the settings as they are or does what one accepted
command of the source means, and no word of such a command is empty.
-/
namespace PageScript

variable {σ : Type}

/-- No token of a source is without bytes, however the source ends. -/
theorem Source.ne_nil_of_mem_tokens {s : Source} {bytes : Text.Bytes} {line : ℕ}
    (h : Token.word bytes line ∈ s.tokens) : bytes ≠ [] := by
  unfold tokens at h
  split at h
  · exact Grammar.ne_nil_of_mem_tokens h
  · have hmem : Token.word bytes line ∈ Grammar.tokens s.bytes := by
      rw [Grammar.tokens_eq_closed_append]
      exact List.mem_append_left _ h
    exact Grammar.ne_nil_of_mem_tokens hmem

namespace Runner

theorem commands_step (r : Runner σ) (s : σ) :
    (r.step s).runner.commands = r.commands ∨
      (r.step s).runner.commands = r.commands.turn.parser := by
  unfold step
  split
  · exact .inl rfl
  · right
    dsimp only
    split
    · rfl
    · rfl
    · rw [commands_dispatch]

/-- Steps only take items away from the front. -/
theorem items_after_suffix (r : Runner σ) (s : σ) (n : ℕ) :
    (r.after s n).1.commands.items <:+ r.commands.items := by
  induction n with
  | zero => exact List.suffix_refl _
  | succ n ih =>
    refine List.IsSuffix.trans ?_ ih
    rw [after_succ, stepAt]
    rcases commands_step (r.after s n).1 (r.after s n).2 with h | h
    · rw [h]
    · rw [h, Parser.items_turn (r.after s n).1.commands]
      exact List.suffix_append _ _

theorem mem_commands_of_turn {registry : Registry σ} {source : Source} {s : σ} {n : ℕ}
    {c : Command}
    (h : ((ofSource registry source).after s n).1.commands.turn.item = some (.ok c)) :
    c ∈ source.commands := by
  have hsuffix := items_after_suffix (ofSource registry source) s n
  have hmem : .ok c ∈ ((ofSource registry source).after s n).1.commands.items := by
    rw [Parser.items_turn, h]
    exact List.mem_cons_self
  have hall : .ok c ∈ (Parser.ofSource source).items := hsuffix.subset hmem
  rw [Parser.items_ofSource] at hall
  simpa using hall

/-- A step calls no handler and leaves the state, or it calls that of one command, whose effect is
all that happens to the state. -/
theorem step_effect (r : Runner σ) (s : σ) :
    ((r.step s).shared = s ∧ r.nextCall s = []) ∨
      ∃ c, r.commands.turn.item = some (.ok c) ∧
        (r.step s).shared = r.registry.effect c s ∧ r.nextCall s = [⟨c.name, c.params, s⟩] := by
  cases ht : r.state.isTerminal with
  | true =>
    rw [step_of_terminal ht]
    exact .inl ⟨rfl, by simp [nextCall, ht]⟩
  | false =>
    cases hi : r.commands.turn.item with
    | none =>
      rw [step_of_none ht s hi]
      exact .inl ⟨rfl, by simp [nextCall, ht, hi]⟩
    | some item =>
      cases item with
      | error e =>
        rw [step_of_error ht s hi]
        exact .inl ⟨rfl, by simp [nextCall, ht, hi]⟩
      | ok c =>
        cases hl : r.registry.lookup c.name with
        | none =>
          rw [step_of_unknown ht s hi hl]
          exact .inl ⟨rfl, by simp [nextCall, ht, hi, Registry.contains, hl]⟩
        | some handler =>
          refine .inr ⟨c, rfl, ?_, by simp [nextCall, ht, hi, Registry.contains, hl]⟩
          rw [Registry.effect_of_lookup hl]
          rcases hc : handler.call c.params s with ⟨result, t⟩
          cases result with
          | error e => rw [step_of_refused ht hi hl hc]
          | ok => rw [step_of_accepted ht hi hl hc]

/-- A run comes to what some number of steps comes to. -/
theorem exists_after_of_run (r : Runner σ) (s : σ) : ∃ n, (r.after s n).2 = (r.run s).shared := by
  induction hn : r.commands.size using Nat.strong_induction_on generalizing r s with
  | _ size ih =>
    cases ho : (r.step s).outcome with
    | error e =>
      rw [run_of_error ho]
      exact ⟨1, rfl⟩
    | ok given =>
      cases given with
      | none =>
        rw [run_of_none ho]
        exact ⟨1, rfl⟩
      | some line =>
        obtain ⟨n, hstate⟩ := ih _ (hn ▸ step_size_lt ho) (r.step s).runner (r.step s).shared rfl
        refine ⟨n + 1, ?_⟩
        rw [after_step, hstate, run_of_line ho]

end Runner

namespace StartPage

/-- No text is empty, and a dimension is positive. -/
structure WellFormed (s : Settings) : Prop where
  weatherCoords : ∀ w ∈ s.weatherCoords, w.lat ≠ "" ∧ w.lon ≠ ""
  links : ∀ l ∈ s.links, l.title ≠ "" ∧ l.url ≠ ""
  backgroundSavepath : ∀ path ∈ s.backgroundSavepath, path ≠ ""
  backgroundMaxdim : ∀ n ∈ s.backgroundMaxdim, 1 ≤ n.toNat ∧ n.toNat ≤ 2 ^ 32 - 1
  imageSubreddit : ∀ name ∈ s.imageSubreddit, name ≠ ""

theorem wellFormed_initial : WellFormed Settings.initial where
  weatherCoords := by simp [Settings.initial]
  links := by simp [Settings.initial]
  backgroundSavepath := by simp [Settings.initial]
  backgroundMaxdim := by simp [Settings.initial]
  imageSubreddit := by simp [Settings.initial]

theorem exists_of_lastParams {name : String} {cs : List Command} {params : List String}
    (h : lastParams name cs = some params) : ∃ c ∈ cs, c.name = name ∧ c.params = params := by
  obtain ⟨c, hlast, rfl⟩ := Option.map_eq_some_iff.mp h
  obtain ⟨hmem, hname⟩ := List.mem_filter.mp (List.mem_of_getLast? hlast)
  exact ⟨c, hmem, of_decide_eq_true hname, rfl⟩

theorem lastParams_eq_none_iff {name : String} {cs : List Command} :
    lastParams name cs = none ↔ ∀ c ∈ cs, c.name ≠ name := by
  simp [lastParams]

/-- What holds of the old value and of all that commands give holds of the new one. -/
theorem Holds.forall_mem {α : Type} {name : String} {Gives : List String → α → Prop}
    {P : α → Prop} {cs : List Command} {before after : Option α}
    (h : Holds name Gives cs before after) (hbefore : ∀ a ∈ before, P a)
    (hgives : ∀ c ∈ cs, ∀ a, Gives c.params a → P a) : ∀ a ∈ after, P a := by
  unfold Holds at h
  cases hl : lastParams name cs with
  | none =>
    rw [hl] at h
    rw [h]
    exact hbefore
  | some params =>
    rw [hl] at h
    obtain ⟨given, hgiven, rfl⟩ := h
    obtain ⟨c, hmem, -, rfl⟩ := exists_of_lastParams hl
    intro a ha
    obtain rfl := Option.mem_some_iff.mp ha
    exact hgives c hmem given hgiven

/-- A value that was not there is there exactly if a command of its name was. -/
theorem Holds.isSome_iff {α : Type} {name : String} {Gives : List String → α → Prop}
    {cs : List Command} {after : Option α} (h : Holds name Gives cs none after) :
    after.isSome = true ↔ ∃ c ∈ cs, c.name = name := by
  unfold Holds at h
  cases hl : lastParams name cs with
  | none =>
    rw [hl] at h
    have hnone := lastParams_eq_none_iff.mp hl
    rw [h]
    simpa using hnone
  | some params =>
    rw [hl] at h
    obtain ⟨a, -, rfl⟩ := h
    obtain ⟨c, hmem, hname, -⟩ := exists_of_lastParams hl
    exact ⟨fun _ => ⟨c, hmem, hname⟩, fun _ => rfl⟩

/-- Commands without empty words keep settings well-formed. -/
theorem Meaning.wellFormed {s t : Settings} {cs : List Command} (h : Meaning s cs t)
    (hs : WellFormed s) (hcs : ∀ c ∈ cs, Layout.NoEmptyWord c) : WellFormed t where
  weatherCoords := by
    refine h.weatherCoords.forall_mem hs.weatherCoords fun c hc w hparams => ?_
    simpa [hparams] using (hcs c hc).2
  links := by
    obtain ⟨added, he, hadded⟩ := h.links
    rw [he]
    refine List.forall_mem_append.mpr ⟨hs.links, fun l hl => ?_⟩
    have hmem : [l.title, l.url] ∈ (cs.filter (·.name = "link")).map Command.params :=
      hadded ▸ List.mem_map_of_mem hl
    obtain ⟨c, hc, hparams⟩ := List.mem_map.mp hmem
    simpa [hparams] using (hcs c (List.mem_filter.mp hc).1).2
  backgroundSavepath := by
    refine h.backgroundSavepath.forall_mem hs.backgroundSavepath fun c hc path hparams => ?_
    simpa [hparams] using (hcs c hc).2
  backgroundMaxdim := by
    refine h.backgroundMaxdim.forall_mem hs.backgroundMaxdim fun c hc n hgiven => ?_
    obtain ⟨value, -, -, -, -, -, -, hpos⟩ := hgiven
    have hlt := n.toNat_lt
    omega
  imageSubreddit := by
    refine h.imageSubreddit.forall_mem hs.imageSubreddit fun c hc name hparams => ?_
    simpa [hparams] using (hcs c hc).2

theorem succeeded_of_accepted {c : Command} (h : Accepted c) (s : Settings) :
    registry.succeeded ⟨c.name, c.params, s⟩ = true := by
  obtain ⟨⟨handler, hl, hok⟩, -⟩ := accepted_call h s
  simp [Registry.succeeded, Registry.answer?, hl, hok, Except.isOk, Except.toBool]

theorem refused_call {c : Command} {cause : Cause} (h : Refused c cause) (s : Settings) :
    registry.effect c s = s ∧ registry.succeeded ⟨c.name, c.params, s⟩ = false := by
  obtain ⟨hresult, hshared⟩ := sweep_of_refused h (.ok ()) [] s
  cases hl : registry.lookup c.name with
  | none => simp [Registry.effect, Registry.succeeded, Registry.answer?, hl]
  | some handler =>
    rcases hc : handler.call c.params s with ⟨result, t⟩
    cases result with
    | error e =>
      rw [Registry.sweep_refused _ _ hl hc] at hshared
      rw [Registry.effect_of_lookup hl, hc]
      exact ⟨hshared, by simp [Registry.succeeded, Registry.answer?, hl, hc, Except.isOk,
        Except.toBool]⟩
    | ok =>
      rw [Registry.sweep_accepted _ _ hl hc] at hresult
      cases hresult

/-- Settings and calls behind some steps: the successful calls are those of some commands of the
source, and the settings are what these commands mean. -/
structure Reached (source : Source) (s : Settings) (calls : List (Call Settings))
    (cs : List Command) : Prop where
  commands : ∀ c ∈ cs, c ∈ source.commands
  meaning : Meaning Settings.initial cs s
  succeeded : (calls.filter registry.succeeded).map Call.name = cs.map Command.name

theorem reached_initial (source : Source) : Reached source Settings.initial [] [] :=
  ⟨by simp, meaning_nil _, rfl⟩

theorem Reached.call {source : Source} {s : Settings} {calls : List (Call Settings)}
    {cs : List Command} (h : Reached source s calls cs) {c : Command} (hc : c ∈ source.commands) :
    ∃ more, Reached source (registry.effect c s) (calls ++ [⟨c.name, c.params, s⟩])
      (cs ++ more) := by
  by_cases ha : Accepted c
  · have hsucceeded := succeeded_of_accepted ha s
    refine ⟨[c], ?_, h.meaning.append (accepted_call ha s).2, ?_⟩
    · rw [List.forall_mem_append]
      exact ⟨h.commands, by simpa using hc⟩
    · simp [h.succeeded, hsucceeded]
  · unfold Accepted at ha
    push Not at ha
    obtain ⟨cause, hrefused⟩ := ha
    obtain ⟨heffect, hsucceeded⟩ := refused_call hrefused s
    refine ⟨[], ?_, ?_, ?_⟩
    · rw [List.append_nil]
      exact h.commands
    · rw [heffect, List.append_nil]
      exact h.meaning
    · simp [h.succeeded, hsucceeded]

theorem exists_reached (source : Source) (n : ℕ) :
    let start := Runner.ofSource registry source
    ∃ cs,
      Reached source (start.after Settings.initial n).2 (start.calls Settings.initial n) cs := by
  intro start
  induction n with
  | zero => exact ⟨[], reached_initial source⟩
  | succ n ih =>
    obtain ⟨cs, h⟩ := ih
    obtain ⟨_, _, _, haccount⟩ := Runner.exists_account registry source Settings.initial n
    have hregistry : (start.after Settings.initial n).1.registry = registry :=
      haccount.registry_eq
    rw [Runner.calls_succ, Runner.after_succ, Runner.stepAt]
    rcases Runner.step_effect (start.after Settings.initial n).1
      (start.after Settings.initial n).2 with ⟨hshared, hcall⟩ | ⟨c, hitem, hshared, hcall⟩
    · rw [hshared, hcall, List.append_nil]
      exact ⟨cs, h⟩
    · rw [hshared, hcall, hregistry]
      obtain ⟨more, hmore⟩ := h.call (Runner.mem_commands_of_turn hitem)
      exact ⟨cs ++ more, hmore⟩

/-- Settings behind some calls: well-formed, so that the dimension in use is positive, and able to
save a background exactly if a path for it was given. -/
structure Sound (s : Settings) (calls : List (Call Settings)) : Prop where
  wellFormed : WellFormed s
  maxdim_pos : 0 < s.maxdim
  canSave_iff : s.canSaveBackground = true ↔
    ∃ call ∈ calls, call.name = "background-savepath" ∧ registry.succeeded call = true

theorem Reached.sound {source : Source} {s : Settings} {calls : List (Call Settings)}
    {cs : List Command} (h : Reached source s calls cs) : Sound s calls := by
  have hwords : ∀ c ∈ cs, Layout.NoEmptyWord c := fun c hc =>
    Layout.noEmptyWord_of_words (fun _ _ hm => Source.ne_nil_of_mem_tokens hm) (h.commands c hc)
  have hs := h.meaning.wellFormed wellFormed_initial hwords
  have hcalls : (∃ c ∈ cs, c.name = "background-savepath") ↔
      ∃ call ∈ calls, call.name = "background-savepath" ∧ registry.succeeded call = true := by
    have hnames : "background-savepath" ∈ cs.map Command.name ↔
        "background-savepath" ∈ (calls.filter registry.succeeded).map Call.name := by
      rw [h.succeeded]
    simpa [and_assoc, and_comm, and_left_comm] using hnames
  refine ⟨hs, ?_, ?_⟩
  · unfold Settings.maxdim
    cases hn : s.backgroundMaxdim with
    | none => decide
    | some n =>
      have hpos := (hs.backgroundMaxdim n hn).1
      exact UInt32.lt_iff_toNat_lt.mpr hpos
  · rw [← hcalls, ← h.meaning.backgroundSavepath.isSome_iff]
    unfold Settings.canSaveBackground Settings.savepath?
    cases hp : s.backgroundSavepath with
    | none => rfl
    | some path =>
      have hpath := hs.backgroundSavepath path hp
      simp [hpath]

/-- Whatever a source holds and however it ends, the settings are sound behind any number of steps
of a run from none, and when the run has ended. -/
theorem reachable_settings_sound (source : Source) :
    let start := Runner.ofSource registry source
    let run := registry.run source Settings.initial
    let noted := registry.noted.run source (Settings.initial, [])
    (∀ n, Sound (start.after Settings.initial n).2 (start.calls Settings.initial n)) ∧
      noted.shared.1 = run.shared ∧ Sound run.shared noted.shared.2 := by
  intro start run noted
  have hsteps : ∀ n, Sound (start.after Settings.initial n).2
      (start.calls Settings.initial n) := by
    intro n
    obtain ⟨cs, h⟩ := exists_reached source n
    exact h.sound
  have hnoted : noted.shared.1 = run.shared := by
    obtain ⟨-, hshared, -⟩ := registry.run_eq_sweep source Settings.initial
    rw [(registry.run_noted source Settings.initial).2, hshared]
  refine ⟨hsteps, hnoted, ?_⟩
  -- the run whose calls are noted comes to what some number of steps comes to
  obtain ⟨n, hn⟩ := start.noted.exists_after_of_run (Settings.initial, [])
  rw [start.after_noted] at hn
  have hshared : ((start.after Settings.initial n).2, start.calls Settings.initial n) =
      noted.shared := hn
  rw [← hnoted, ← hshared]
  exact hsteps n

end StartPage

end PageScript
