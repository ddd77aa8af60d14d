import PageScript.Proofs.Dispatch
import PageScript.Proofs.SourceCommands
import PageScript.Runner

/-!
# Runs

A run pulls one command, dispatches it and pulls the next. It does what the dispatch of all the
commands of the source does, and so never acts on what it did not have to pull.
-/
namespace PageScript

variable {σ : Type}

def Event.dispatched? : Event → Option (String × ℕ × ℕ)
  | dispatch name line params => some (name, line, params)
  | _ => none

inductive DirectiveError.Says : DirectiveError → String → Prop
  | arity (command : String) (expected got : ℕ) :
      Says (.arity command expected got)
        (command ++ " expects " ++ toString expected ++ " parameter(s), got " ++ toString got)
  | invalidValue (command value reason : String) :
      Says (.invalidValue command value reason)
        (command ++ ": invalid value " ++ Text.Quoted.quote value ++ ": " ++ reason)

/-- A handler's error says the outermost text. -/
inductive HandlerError.Says : HandlerError → String → Prop
  | failure (text : String) (sources : List String) : Says (.failure text sources) text
  | directive {e : DirectiveError} {text : String} (said : e.Says text) : Says (.directive e) text
  | context (text : String) (inner : HandlerError) : Says (.context text inner) text

/-- What is told of a cause. -/
inductive Cause.Says : Cause → String → Prop
  | io (e : IoError) : Says (.io e) ("I/O error: " ++ e.text)
  | unknownCommand (name : String) :
      Says (.unknownCommand name) ("Command \"" ++ name ++ "\" not found")
  | handler {e : HandlerError} {text : String} (said : e.Says text) : Says (.handler e) text

theorem DirectiveError.says_message (e : DirectiveError) : e.Says e.message := by
  cases e with
  | arity command expected got => exact .arity command expected got
  | invalidValue command value reason => exact .invalidValue command value reason

theorem HandlerError.says_message (e : HandlerError) : e.Says e.message := by
  cases e with
  | failure text sources => exact .failure text sources
  | directive e => exact .directive e.says_message
  | context text inner => exact .context text inner

theorem Cause.says_message (c : Cause) : c.Says c.message := by
  cases c with
  | io e => exact .io e
  | unknownCommand name => exact .unknownCommand name
  | handler e => exact .handler e.says_message

def Command.summary (c : Command) : String × ℕ × ℕ := (c.name, c.line, c.params.length)

namespace Parser

variable {τ : Type} [TokenStream τ] {p : Parser τ}

theorem drain_of_none (h : p.turn.item = none) : p.drain = ⟨p.turn.pulled, [], none⟩ := by
  rw [drain]
  split <;> simp_all

theorem drain_of_error {e : LineError} (h : p.turn.item = some (.error e)) :
    p.drain = ⟨p.turn.pulled, [], some e⟩ := by
  rw [drain]
  split <;> simp_all

theorem drain_of_command {c : Command} (h : p.turn.item = some (.ok c)) :
    p.drain.commands = c :: p.turn.parser.drain.commands ∧
      p.drain.ending = p.turn.parser.drain.ending := by
  rw [drain]
  split <;> simp_all

end Parser

namespace Runner

/-- The commands that a run announced, in order. -/
def Finish.dispatched (f : Finish σ) : List (String × ℕ × ℕ) :=
  f.events.filterMap Event.dispatched?

/-- The events of a step before its command is looked up. -/
def seen (r : Runner σ) : List Event :=
  (if r.state = .idle then [.runStarted r.registry.size] else []) ++
    r.commands.turn.pulled.map .ofToken

theorem filterMap_seen (r : Runner σ) : r.seen.filterMap Event.dispatched? = [] := by
  have ht : r.commands.turn.pulled.filterMap (Event.dispatched? ∘ Event.ofToken) = [] := by
    simp [Event.ofToken, Event.dispatched?]
  unfold seen
  rw [List.filterMap_append, List.filterMap_map, ht]
  split_ifs <;> rfl

section Step

variable {r : Runner σ} {s t : σ} {c : Command} {e : LineError}

theorem step_of_none (ht : r.state.isTerminal = false) (s : σ)
    (hi : r.commands.turn.item = none) :
    r.step s = ⟨.ok none, { r with commands := r.commands.turn.parser, state := .succeeded }, s,
      r.seen ++ [.runFinished r.dispatched]⟩ := by
  simp [step, ht, hi, seen]

theorem step_of_error (ht : r.state.isTerminal = false) (s : σ)
    (hi : r.commands.turn.item = some (.error e)) :
    r.step s = ⟨.error e, { r with commands := r.commands.turn.parser, state := .failed }, s,
      r.seen ++ [.runFailed e.line e.cause.message]⟩ := by
  simp [step, ht, hi, seen, fail]

theorem step_of_unknown (ht : r.state.isTerminal = false) (s : σ)
    (hi : r.commands.turn.item = some (.ok c)) (hl : r.registry.lookup c.name = none) :
    r.step s = ⟨.error ⟨c.line, .unknownCommand c.name⟩,
      { r with commands := r.commands.turn.parser, state := .failed }, s,
      r.seen ++ [.runFailed c.line (Cause.unknownCommand c.name).message]⟩ := by
  simp [step, ht, hi, seen, dispatch, hl, fail, LineError.unknownCommand]

theorem step_of_refused (ht : r.state.isTerminal = false) (hi : r.commands.turn.item = some (.ok c))
    {handler : Handler σ} {e : HandlerError} (hl : r.registry.lookup c.name = some handler)
    (hc : handler.call c.params s = (.error e, t)) :
    r.step s = ⟨.error ⟨c.line, .handler e⟩,
      { r with commands := r.commands.turn.parser, state := .failed }, t,
      r.seen ++ [.dispatch c.name c.line c.params.length,
        .runFailed c.line (Cause.handler e).message]⟩ := by
  simp [step, ht, hi, seen, dispatch, hl, hc, fail, LineError.handler]

theorem step_of_accepted (ht : r.state.isTerminal = false)
    (hi : r.commands.turn.item = some (.ok c)) {handler : Handler σ}
    (hl : r.registry.lookup c.name = some handler) (hc : handler.call c.params s = (.ok (), t)) :
    r.step s = ⟨.ok (some c.line),
      { r with
        commands := r.commands.turn.parser, state := .running, dispatched := r.dispatched + 1 }, t,
      r.seen ++ [.dispatch c.name c.line c.params.length]⟩ := by
  simp [step, ht, hi, seen, dispatch, hl, hc]

theorem run_of_error (h : (r.step s).outcome = .error e) :
    r.run s = ⟨.error e, (r.step s).shared, (r.step s).events⟩ := by
  rw [run]
  split <;> simp_all

theorem run_of_none (h : (r.step s).outcome = .ok none) :
    r.run s = ⟨.ok (), (r.step s).shared, (r.step s).events⟩ := by
  rw [run]
  split <;> simp_all

theorem run_of_line {line : ℕ} (h : (r.step s).outcome = .ok (some line)) :
    r.run s =
      { (r.step s).runner.run (r.step s).shared with
        events := (r.step s).events ++ ((r.step s).runner.run (r.step s).shared).events } := by
  rw [run]
  split <;> simp_all

end Step

/-- A run that has not ended does what the dispatch of its commands does. -/
theorem run_eq_sweep (r : Runner σ) (ht : r.state.isTerminal = false) (s : σ) :
    let w := r.registry.sweep (endResult r.commands.drain.ending) r.commands.drain.commands s
    (r.run s).result = w.result ∧ (r.run s).shared = w.shared ∧
      (r.run s).dispatched = w.called.map Command.summary := by
  -- every command that the parser gives leaves a smaller parser
  induction hn : r.commands.size using Nat.strong_induction_on generalizing r s with
  | _ n ih =>
    have hseen := r.filterMap_seen
    cases hi : r.commands.turn.item with
    | none =>
      have hs := step_of_none ht s hi
      rw [run_of_none (by rw [hs]), hs, Parser.drain_of_none hi]
      simp [Registry.sweep, endResult, Finish.dispatched, hseen, Event.dispatched?]
    | some item =>
      cases item with
      | error e =>
        have hs := step_of_error ht s hi
        rw [run_of_error (by rw [hs]), hs, Parser.drain_of_error hi]
        simp [Registry.sweep, endResult, Finish.dispatched, hseen, Event.dispatched?]
      | ok c =>
        obtain ⟨hcs, he⟩ := Parser.drain_of_command hi
        rw [hcs, he]
        cases hl : r.registry.lookup c.name with
        | none =>
          have hs := step_of_unknown ht s hi hl
          rw [run_of_error (by rw [hs]), hs, Registry.sweep_unknown _ _ s hl]
          simp [Finish.dispatched, hseen, Event.dispatched?]
        | some handler =>
          rcases hc : handler.call c.params s with ⟨result, t⟩
          cases result with
          | error e =>
            have hs := step_of_refused ht hi hl hc
            rw [run_of_error (by rw [hs]), hs, Registry.sweep_refused _ _ hl hc]
            simp [Finish.dispatched, hseen, Event.dispatched?, Command.summary]
          | ok =>
            have hs := step_of_accepted ht hi hl hc
            have hlt : r.commands.turn.parser.size < n := hn ▸ Parser.turn_size_lt hi
            obtain ⟨hres, hsh, hd⟩ := ih _ hlt (r.step s).runner (by rw [hs]; rfl) t (by rw [hs])
            rw [hs] at hres hsh hd
            rw [run_of_line (by rw [hs]), hs, Registry.sweep_accepted _ _ hl hc]
            refine ⟨hres, hsh, ?_⟩
            simp only [Finish.dispatched] at hd ⊢
            simp [hd, hseen, Event.dispatched?, Command.summary]

end Runner

namespace Registry

/-- A run over a source does what the dispatch of the commands of the source does. -/
theorem run_eq_sweep (registry : Registry σ) (source : Source) (s : σ) :
    let w := registry.sweep (endResult source.fault) source.commands s
    (registry.run source s).result = w.result ∧ (registry.run source s).shared = w.shared ∧
      (registry.run source s).dispatched = w.called.map Command.summary := by
  obtain ⟨hc, he⟩ := Parser.drain_ofSource source
  rw [← hc, ← he]
  exact Runner.run_eq_sweep (.ofSource registry source) rfl s

theorem run_noted (registry : Registry σ) (source : Source) (s : σ) :
    let w := registry.sweep (endResult source.fault) source.commands s
    (registry.noted.run source (s, [])).result = w.result ∧
      (registry.noted.run source (s, [])).shared = (w.shared, registry.callsOf w.called s) := by
  obtain ⟨hr, hs, -⟩ := registry.noted.run_eq_sweep source (s, [])
  rw [hr, hs, sweep_noted]
  exact ⟨rfl, rfl⟩

/-- The lazy pipeline refines the dispatch of all commands that its parser gives: the handlers of a
beginning of them are called in order, each once on its parameters and on what the calls before
left, and the run stops there for the reason that its result tells. -/
theorem run_refines_dispatch (registry : Registry σ) (source : Source) (s : σ) :
    let all := (Parser.ofSource source).drain
    let run := registry.run source s
    let noted := registry.noted.run source (s, [])
    Calls.Yields Parser.next (Parser.ofSource source)
        (all.commands.map .ok ++ all.ending.toList.map .error) ∧
      all.ending = source.failure.map (fun e =>
        ⟨Grammar.lineAt source.bytes source.bytes.length, .io e⟩) ∧
      ∃ called later, all.commands = called ++ later ∧
        registry.Stops (endResult all.ending) s called later run.result ∧
        run.shared = registry.replay called s ∧
        run.dispatched = called.map Command.summary ∧
        noted.result = run.result ∧
        noted.shared = (run.shared, registry.callsOf called s) := by
  intro all run noted
  obtain ⟨hc, he⟩ := Parser.drain_ofSource source
  have hy := Parser.yields_items (Parser.ofSource source)
  rw [Parser.items_drain] at hy
  refine ⟨hy, he, ?_⟩
  obtain ⟨hr, hs, hd⟩ := registry.run_eq_sweep source s
  obtain ⟨hnr, hns⟩ := registry.run_noted source s
  obtain ⟨later, hl, hsh, hstop⟩ :=
    registry.sweep_stops (endResult source.fault) source.commands s
  refine ⟨_, later, hc.trans hl, ?_, hs.trans hsh, hd, hnr.trans hr.symm, ?_⟩
  · rw [he, hr]
    exact hstop
  · rw [hs]
    exact hns

end Registry

end PageScript
