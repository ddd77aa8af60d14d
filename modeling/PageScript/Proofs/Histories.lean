import PageScript.Proofs.Running

/-!
# Histories of steps

A runner can be stepped any number of times. Its state and its count of dispatched commands are
read off what the steps gave: lines of commands that ran, and then, for ever, nothing, or once an
error and nothing behind it. The handlers were called once for each line, and once more if the
error is a handler's.
-/
namespace PageScript

variable {σ : Type}

abbrev Outcome := Except LineError (Option ℕ)

namespace Outcome

def ran : Outcome → Bool
  | .ok (some _) => true
  | _ => false

def isError : Outcome → Bool
  | .error _ => true
  | .ok _ => false

end Outcome

/-- What the handler of a noted call gave. It is settled by the parameters and by the state that
the call found. -/
def Registry.answer? (r : Registry σ) (call : Call σ) : Option (Except HandlerError Unit) :=
  (r.lookup call.name).map fun handler => (handler.call call.params call.before).1

def Registry.succeeded (r : Registry σ) (call : Call σ) : Bool := (r.answer? call).any Except.isOk

namespace Runner

/-- The runner and the state of the handlers after a number of steps. -/
def after (r : Runner σ) (s : σ) : ℕ → Runner σ × σ
  | 0 => (r, s)
  | n + 1 =>
    let step := (after r s n).1.step (after r s n).2
    (step.runner, step.shared)

def stepAt (r : Runner σ) (s : σ) (n : ℕ) : Step σ := (r.after s n).1.step (r.after s n).2

/-- What the first steps gave, in order. -/
def outcomes (r : Runner σ) (s : σ) (n : ℕ) : List Outcome :=
  (List.range n).map fun i => (r.stepAt s i).outcome

def noted (r : Runner σ) : Runner (σ × List (Call σ)) :=
  ⟨r.registry.noted, r.commands, r.state, r.dispatched⟩

/-- The calls that the handlers noted during the first steps. -/
def calls (r : Runner σ) (s : σ) (n : ℕ) : List (Call σ) := (r.noted.after (s, []) n).2.2

/-- The call that the next step makes, if it makes one. -/
def nextCall (r : Runner σ) (s : σ) : List (Call σ) :=
  if r.state.isTerminal then []
  else
    match r.commands.turn.item with
    | some (.ok c) => if r.registry.contains c.name then [⟨c.name, c.params, s⟩] else []
    | _ => []

theorem step_of_terminal {r : Runner σ} (h : r.state.isTerminal = true) (s : σ) :
    r.step s = ⟨.ok none, r, s, []⟩ := by
  simp [step, h]

theorem seen_noted (r : Runner σ) : r.noted.seen = r.seen := by
  simp [seen, noted, Registry.noted, Registry.size]

theorem step_noted (r : Runner σ) (s : σ) (log : List (Call σ)) :
    r.noted.step (s, log) =
      ⟨(r.step s).outcome, (r.step s).runner.noted,
        ((r.step s).shared, log ++ r.nextCall s), (r.step s).events⟩ := by
  have hseen := r.seen_noted
  cases ht : r.state.isTerminal with
  | true =>
    have hn : r.noted.state.isTerminal = true := ht
    simp [step_of_terminal ht, step_of_terminal hn, nextCall, ht]
  | false =>
    have hn : r.noted.state.isTerminal = false := ht
    cases hi : r.commands.turn.item with
    | none =>
      rw [step_of_none hn _ hi, step_of_none ht _ hi, hseen]
      simp [nextCall, ht, hi, noted]
    | some item =>
      cases item with
      | error e =>
        rw [step_of_error hn _ hi, step_of_error ht _ hi, hseen]
        simp [nextCall, ht, hi, noted]
      | ok c =>
        have hlookup := r.registry.lookup_noted c.name
        cases hl : r.registry.lookup c.name with
        | none =>
          rw [hl] at hlookup
          rw [step_of_unknown hn _ hi hlookup, step_of_unknown ht _ hi hl, hseen]
          simp [nextCall, ht, hi, noted, Registry.contains, hl]
        | some handler =>
          rw [hl] at hlookup
          have hcn := handler.call_noted c.name c.params s log
          rcases hc : handler.call c.params s with ⟨result, t⟩
          rw [hc] at hcn
          cases result with
          | error e =>
            rw [step_of_refused hn hi hlookup hcn, step_of_refused ht hi hl hc, hseen]
            simp [nextCall, ht, hi, noted, Registry.contains, hl]
          | ok =>
            rw [step_of_accepted hn hi hlookup hcn, step_of_accepted ht hi hl hc, hseen]
            simp [nextCall, ht, hi, noted, Registry.contains, hl]

theorem after_succ (r : Runner σ) (s : σ) (n : ℕ) :
    r.after s (n + 1) = ((r.stepAt s n).runner, (r.stepAt s n).shared) := rfl

theorem outcomes_succ (r : Runner σ) (s : σ) (n : ℕ) :
    r.outcomes s (n + 1) = r.outcomes s n ++ [(r.stepAt s n).outcome] := by
  simp [outcomes, List.range_succ]

theorem length_outcomes (r : Runner σ) (s : σ) (n : ℕ) : (r.outcomes s n).length = n := by
  simp [outcomes]

theorem after_noted (r : Runner σ) (s : σ) (n : ℕ) :
    r.noted.after (s, []) n = ((r.after s n).1.noted, (r.after s n).2, r.calls s n) := by
  induction n with
  | zero => rfl
  | succ n ih =>
    have hstep := (r.after s n).1.step_noted (r.after s n).2 (r.calls s n)
    simp only [calls, after_succ, stepAt] at ih ⊢
    rw [ih]
    simp only [calls] at hstep
    rw [hstep]

theorem calls_succ (r : Runner σ) (s : σ) (n : ℕ) :
    r.calls s (n + 1) = r.calls s n ++ (r.after s n).1.nextCall (r.after s n).2 := by
  have hstep := (r.after s n).1.step_noted (r.after s n).2 (r.calls s n)
  have hafter : r.calls s (n + 1) = (r.noted.stepAt (s, []) n).shared.2 := rfl
  rw [hafter, stepAt, after_noted, hstep]

theorem stepAt_noted (r : Runner σ) (s : σ) (n : ℕ) :
    (r.noted.stepAt (s, []) n).outcome = (r.stepAt s n).outcome ∧
      (r.noted.stepAt (s, []) n).events = (r.stepAt s n).events := by
  rw [stepAt, after_noted, step_noted]
  exact ⟨rfl, rfl⟩

theorem exists_io_of_next {t rest : Tokenizer} {e : LineError}
    (h : t.next = (some (.error e), rest)) : ∃ line error, e = ⟨line, .io error⟩ := by
  fun_induction Tokenizer.next t with
  | case1 t answer ha =>
    obtain ⟨rfl, -⟩ := Prod.mk.inj h
    have hturn := t.turnOf
    generalize t.turn = turn at hturn ha
    cases hturn with
    | failed =>
      obtain rfl := by simpa using ha
      exact ⟨_, _, rfl⟩
    | handed | spent | byte | ended => simp at ha
  | case2 t ha ih => exact ih h

theorem exists_io_of_assemble {t : Tokenizer} {draft : Option Draft} {pulled : List Token}
    {e : LineError} (h : (Parser.assemble t draft pulled).item = some (.error e)) :
    ∃ line error, e = ⟨line, .io error⟩ := by
  fun_induction Parser.assemble t draft pulled with
  | case1 => simp at h
  | case2 t draft pulled e' rest hn =>
    obtain rfl : e' = e := by simpa using h
    exact exists_io_of_next hn
  | case3 t draft pulled bytes line rest hn ih => exact ih h
  | case4 t pulled line rest hn ih => exact ih h
  | case5 => simp at h

/-- What comes up from below is a failed read. -/
theorem exists_io_of_turn {p : Parser Tokenizer} {e : LineError}
    (h : p.turn.item = some (.error e)) : ∃ line error, e = ⟨line, .io error⟩ := by
  unfold Parser.turn at h
  split at h
  · simp at h
  · exact exists_io_of_assemble h

/-- A step of a runner, the handlers' state and the calls that were made. -/
inductive Moves (r : Runner σ) (s : σ) : Step σ → List (Call σ) → Prop
  | inert (ended : r.state.isTerminal = true) : Moves r s ⟨.ok none, r, s, []⟩ []
  | finished {p : Parser Tokenizer} {events : List Event} (going : r.state.isTerminal = false) :
      Moves r s ⟨.ok none, ⟨r.registry, p, .succeeded, r.dispatched⟩, s, events⟩ []
  | failed {p : Parser Tokenizer} {events : List Event} {e : LineError}
      (going : r.state.isTerminal = false) (own : ∀ line f, e ≠ ⟨line, .handler f⟩) :
      Moves r s ⟨.error e, ⟨r.registry, p, .failed, r.dispatched⟩, s, events⟩ []
  | refused {p : Parser Tokenizer} {events : List Event} {call : Call σ} {line : ℕ}
      {f : HandlerError} {t : σ} (going : r.state.isTerminal = false)
      (answer : r.registry.answer? call = some (.error f)) :
      Moves r s ⟨.error ⟨line, .handler f⟩, ⟨r.registry, p, .failed, r.dispatched⟩, t, events⟩
        [call]
  | accepted {p : Parser Tokenizer} {events : List Event} {call : Call σ} {line : ℕ} {t : σ}
      (going : r.state.isTerminal = false) (answer : r.registry.answer? call = some (.ok ())) :
      Moves r s
        ⟨.ok (some line), ⟨r.registry, p, .running, r.dispatched + 1⟩, t, events⟩ [call]

theorem moves_step (r : Runner σ) (s : σ) : Moves r s (r.step s) (r.nextCall s) := by
  cases ht : r.state.isTerminal with
  | true =>
    have hcall : r.nextCall s = [] := by simp [nextCall, ht]
    rw [step_of_terminal ht, hcall]
    exact .inert ht
  | false =>
    cases hi : r.commands.turn.item with
    | none =>
      have hcall : r.nextCall s = [] := by simp [nextCall, ht, hi]
      rw [step_of_none ht s hi, hcall]
      exact .finished ht
    | some item =>
      cases item with
      | error e =>
        obtain ⟨line, error, rfl⟩ := exists_io_of_turn hi
        have hcall : r.nextCall s = [] := by simp [nextCall, ht, hi]
        rw [step_of_error ht s hi, hcall]
        exact .failed ht (by simp)
      | ok c =>
        cases hl : r.registry.lookup c.name with
        | none =>
          have hcall : r.nextCall s = [] := by simp [nextCall, ht, hi, Registry.contains, hl]
          rw [step_of_unknown ht s hi hl, hcall]
          exact .failed ht (by simp)
        | some handler =>
          have hcall : r.nextCall s = [⟨c.name, c.params, s⟩] := by
            simp [nextCall, ht, hi, Registry.contains, hl]
          have hanswer : r.registry.answer? ⟨c.name, c.params, s⟩ =
              some (handler.call c.params s).1 := by simp [Registry.answer?, hl]
          rw [hcall]
          rcases hc : handler.call c.params s with ⟨result, t⟩
          rw [hc] at hanswer
          cases result with
          | error e =>
            rw [step_of_refused ht hi hl hc]
            exact .refused ht hanswer
          | ok =>
            rw [step_of_accepted ht hi hl hc]
            exact .accepted ht hanswer

/-- What follows the lines of the commands that ran, and what the handler to blame gave. -/
inductive Tail : RunState → List Outcome → List (Option (Except HandlerError Unit)) → Prop
  | going {state : RunState} (unended : state.isTerminal = false) : Tail state [] []
  | succeeded (k : ℕ) : Tail .succeeded (List.replicate (k + 1) (.ok none)) []
  | failed {e : LineError} (k : ℕ) (own : ∀ line f, e ≠ ⟨line, .handler f⟩) :
      Tail .failed (.error e :: List.replicate k (.ok none)) []
  | refused (line : ℕ) (f : HandlerError) (k : ℕ) :
      Tail .failed (.error ⟨line, .handler f⟩ :: List.replicate k (.ok none)) [some (.error f)]

/-- A runner that has given these outcomes and made these calls: first the lines of the commands
that ran, for each of which one handler was called and succeeded, then the tail. -/
structure Account (registry : Registry σ) (outcomes : List Outcome) (calls : List (Call σ))
    (r : Runner σ) (lines : List ℕ) (tail : List Outcome)
    (blamed : List (Option (Except HandlerError Unit))) : Prop where
  registry_eq : r.registry = registry
  outcomes_eq : outcomes = lines.map (fun line => .ok (some line)) ++ tail
  answers : calls.map registry.answer? = lines.map (fun _ => some (.ok ())) ++ blamed
  dispatched : r.dispatched = lines.length
  idle : r.state = .idle ↔ outcomes = []
  ends : Tail r.state tail blamed

section Tail

variable {state : RunState} {tail : List Outcome}
  {blamed : List (Option (Except HandlerError Unit))}

theorem Tail.isTerminal_eq_false_iff (h : Tail state tail blamed) :
    state.isTerminal = false ↔ ∀ o ∈ tail, o.ran = true := by
  cases h with
  | going unended => simp [unended]
  | succeeded k => simp [RunState.isTerminal, Outcome.ran]
  | @failed e k own =>
    have hran : Outcome.ran (.error e) = false := rfl
    simp [RunState.isTerminal, hran]
  | refused line f k =>
    have hran : Outcome.ran (.error ⟨line, .handler f⟩) = false := rfl
    simp [RunState.isTerminal, hran]

theorem Tail.failed_iff (h : Tail state tail blamed) :
    state = .failed ↔ ∃ e, .error e ∈ tail := by
  cases h with
  | going unended => cases state <;> simp [RunState.isTerminal] at unended ⊢
  | succeeded k => simp
  | failed k own => simp
  | refused line f k => simp

theorem Tail.succeeded_iff (h : Tail state tail blamed) :
    state = .succeeded ↔ .ok none ∈ tail ∧ ∀ e, .error e ∉ tail := by
  cases h with
  | going unended => cases state <;> simp [RunState.isTerminal] at unended ⊢
  | succeeded k => simp
  | failed k own => simp
  | refused line f k => simp

theorem Tail.eq_nil (h : Tail state tail blamed) (hs : state.isTerminal = false) :
    tail = [] ∧ blamed = [] := by
  cases h with
  | going => exact ⟨rfl, rfl⟩
  | succeeded => simp [RunState.isTerminal] at hs
  | failed => simp [RunState.isTerminal] at hs
  | refused => simp [RunState.isTerminal] at hs

/-- Behind an end one more step gives nothing more. -/
theorem Tail.again (h : Tail state tail blamed) (hs : state.isTerminal = true) :
    Tail state (tail ++ [.ok none]) blamed := by
  cases h with
  | going hn => simp [hn] at hs
  | succeeded k =>
    rw [← List.replicate_succ']
    exact .succeeded (k + 1)
  | failed k own =>
    rw [List.cons_append, ← List.replicate_succ']
    exact .failed (k + 1) own
  | refused line f k =>
    rw [List.cons_append, ← List.replicate_succ']
    exact .refused line f (k + 1)

theorem Tail.countP_ran (h : Tail state tail blamed) : tail.countP Outcome.ran = 0 := by
  have hnone : Outcome.ran (.ok none) = false := rfl
  have herror : ∀ e, Outcome.ran (.error e) = false := fun _ => rfl
  cases h with
  | going => rfl
  | succeeded k => simp [List.countP_replicate, hnone]
  | failed k own => simp [List.countP_replicate, hnone, herror]
  | refused line f k => simp [List.countP_replicate, hnone, herror]

theorem Tail.countP_isError_le (h : Tail state tail blamed) :
    tail.countP Outcome.isError ≤ 1 := by
  have hnone : Outcome.isError (.ok none) = false := rfl
  have herror : ∀ e, Outcome.isError (.error e) = true := fun _ => rfl
  cases h with
  | going => simp
  | succeeded k => simp [List.countP_replicate, hnone]
  | failed k own => simp [List.countP_replicate, hnone, herror]
  | refused line f k => simp [List.countP_replicate, hnone, herror]

/-- A handler is to blame exactly for a handler's error, and it gave that error. -/
theorem Tail.blamed_cases (h : Tail state tail blamed) :
    (blamed = [] ∧ ∀ line f, .error ⟨line, .handler f⟩ ∉ tail) ∨
      ∃ line f, blamed = [some (.error f)] ∧ .error ⟨line, .handler f⟩ ∈ tail := by
  cases h with
  | going => exact .inl ⟨rfl, by simp⟩
  | succeeded k => exact .inl ⟨rfl, by simp⟩
  | failed k own =>
    refine .inl ⟨rfl, fun line f hm => ?_⟩
    rcases List.mem_cons.mp hm with he | hr
    · exact own line f (Except.error.inj he).symm
    · simpa using List.eq_of_mem_replicate hr
  | refused line f k => exact .inr ⟨line, f, rfl, List.mem_cons_self⟩

end Tail

section Account

variable {registry : Registry σ} {outcomes tail : List Outcome} {calls more : List (Call σ)}
  {r : Runner σ} {lines : List ℕ} {blamed : List (Option (Except HandlerError Unit))}

theorem Account.step (h : Account registry outcomes calls r lines tail blamed) {s : σ}
    {step : Step σ} (hm : Moves r s step more) :
    ∃ lines tail blamed, Account registry (outcomes ++ [step.outcome]) (calls ++ more) step.runner
      lines tail blamed := by
  have hregistry := h.registry_eq
  have houtcomes := h.outcomes_eq
  have hanswers := h.answers
  have hends := h.ends
  cases hm with
  | inert ended =>
    refine ⟨lines, tail ++ [.ok none], blamed, hregistry, ?_, ?_, h.dispatched, ?_,
      hends.again ended⟩
    · rw [houtcomes, List.append_assoc]
    · rw [List.append_nil, hanswers]
    · have hnot : r.state ≠ .idle := fun hi => by simp [hi, RunState.isTerminal] at ended
      simp [hnot]
  | finished going =>
    obtain ⟨rfl, rfl⟩ := hends.eq_nil going
    refine ⟨lines, [.ok none], [], hregistry, ?_, ?_, h.dispatched, by simp, .succeeded 0⟩
    · rw [houtcomes, List.append_nil]
    · rw [List.append_nil, hanswers]
  | @failed p events e going own =>
    obtain ⟨rfl, rfl⟩ := hends.eq_nil going
    refine ⟨lines, [.error e], [], hregistry, ?_, ?_, h.dispatched, by simp, .failed 0 own⟩
    · rw [houtcomes, List.append_nil]
    · rw [List.append_nil, hanswers]
  | @refused p events call line f t going answer =>
    obtain ⟨rfl, rfl⟩ := hends.eq_nil going
    rw [hregistry] at answer
    refine ⟨lines, [.error ⟨line, .handler f⟩], [some (.error f)], hregistry, ?_, ?_, h.dispatched,
      by simp, .refused line f 0⟩
    · rw [houtcomes, List.append_nil]
    · rw [List.map_append, hanswers, List.append_nil, List.map_singleton, answer]
  | @accepted p events call line t going answer =>
    obtain ⟨rfl, rfl⟩ := hends.eq_nil going
    rw [hregistry] at answer
    refine ⟨lines ++ [line], [], [], hregistry, ?_, ?_, ?_, by simp, .going rfl⟩
    · rw [houtcomes]
      simp
    · rw [List.map_append, hanswers, List.map_singleton, answer]
      simp
    · simp [h.dispatched]

/-- Only what no command gave stands in the tail. -/
theorem Account.mem_iff (h : Account registry outcomes calls r lines tail blamed) {o : Outcome}
    (ho : o.ran = false) : o ∈ outcomes ↔ o ∈ tail := by
  have hlines : o ∉ lines.map fun line => (.ok (some line) : Outcome) := by
    intro hm
    obtain ⟨line, -, rfl⟩ := List.mem_map.mp hm
    simp [Outcome.ran] at ho
  rw [h.outcomes_eq, List.mem_append, or_iff_right hlines]

theorem Account.running_iff (h : Account registry outcomes calls r lines tail blamed) :
    r.state = .running ↔ outcomes ≠ [] ∧ ∀ o ∈ outcomes, o.ran = true := by
  have hlines : ∀ o ∈ lines.map (fun line => (.ok (some line) : Outcome)),
      Outcome.ran o = true := by
    simp [Outcome.ran]
  have hall : (∀ o ∈ outcomes, o.ran = true) ↔ r.state.isTerminal = false := by
    rw [h.ends.isTerminal_eq_false_iff, h.outcomes_eq, List.forall_mem_append,
      and_iff_right hlines]
  rw [hall, ne_eq, ← h.idle]
  cases r.state <;> simp [RunState.isTerminal]

theorem Account.failed_iff (h : Account registry outcomes calls r lines tail blamed) :
    r.state = .failed ↔ ∃ e, .error e ∈ outcomes := by
  rw [h.ends.failed_iff]
  exact exists_congr fun e => (h.mem_iff rfl).symm

theorem Account.succeeded_iff (h : Account registry outcomes calls r lines tail blamed) :
    r.state = .succeeded ↔ .ok none ∈ outcomes ∧ ∀ e, .error e ∉ outcomes := by
  rw [h.ends.succeeded_iff]
  exact and_congr (h.mem_iff rfl).symm (forall_congr' fun e => not_congr (h.mem_iff rfl).symm)

theorem Account.countP_ran (h : Account registry outcomes calls r lines tail blamed) :
    outcomes.countP Outcome.ran = r.dispatched := by
  have hlines : (lines.map fun line => (.ok (some line) : Outcome)).countP Outcome.ran =
      lines.length := by
    rw [List.countP_map]
    exact List.countP_eq_length.mpr fun line _ => rfl
  rw [h.outcomes_eq, List.countP_append, hlines, h.ends.countP_ran, h.dispatched, Nat.add_zero]

theorem Account.countP_isError_le (h : Account registry outcomes calls r lines tail blamed) :
    outcomes.countP Outcome.isError ≤ 1 := by
  have hlines : (lines.map fun line => (.ok (some line) : Outcome)).countP Outcome.isError = 0 := by
    rw [List.countP_map]
    exact List.countP_eq_zero.mpr fun line _ => by simp [Outcome.isError]
  rw [h.outcomes_eq, List.countP_append, hlines, Nat.zero_add]
  exact h.ends.countP_isError_le

/-- The handlers that succeeded are those of the commands that ran; one more was called exactly
when a handler is to blame. -/
theorem Account.calls_cases (h : Account registry outcomes calls r lines tail blamed) :
    calls.countP registry.succeeded = r.dispatched ∧
      ((calls.length = r.dispatched ∧ ∀ line f, .error ⟨line, .handler f⟩ ∉ outcomes) ∨
        (calls.length = r.dispatched + 1 ∧ ∃ line f, .error ⟨line, .handler f⟩ ∈ outcomes)) := by
  have hcount : calls.countP registry.succeeded =
      (calls.map registry.answer?).countP fun answer => answer.any Except.isOk := by
    rw [List.countP_map]
    rfl
  have hlines : (lines.map fun _ => (some (.ok ()) : Option (Except HandlerError Unit))).countP
      (fun answer => answer.any Except.isOk) = lines.length := by
    rw [List.countP_map]
    exact List.countP_eq_length.mpr fun line _ => rfl
  have hlength : calls.length = lines.length + blamed.length := by
    rw [← List.length_map (f := registry.answer?), h.answers, List.length_append, List.length_map]
  rw [hcount, h.answers, List.countP_append, hlines, h.dispatched, hlength]
  rcases h.ends.blamed_cases with ⟨rfl, hnone⟩ | ⟨line, f, rfl, hmem⟩
  · refine ⟨rfl, .inl ⟨rfl, fun line f => ?_⟩⟩
    rw [h.mem_iff rfl]
    exact hnone line f
  · exact ⟨rfl, .inr ⟨rfl, line, f, (h.mem_iff rfl).mpr hmem⟩⟩

end Account

theorem exists_account (registry : Registry σ) (source : Source) (s : σ) (n : ℕ) :
    let start := ofSource registry source
    ∃ lines tail blamed, Account registry (start.outcomes s n) (start.calls s n)
      (start.after s n).1 lines tail blamed := by
  intro start
  induction n with
  | zero =>
    have hidle : start.state = .idle := rfl
    exact ⟨[], [], [], rfl, rfl, rfl, rfl, by simp [after, hidle, outcomes], .going rfl⟩
  | succ n ih =>
    obtain ⟨lines, tail, blamed, h⟩ := ih
    rw [outcomes_succ, calls_succ, after_succ]
    exact h.step (moves_step _ _)

theorem after_add_of_terminal {r : Runner σ} {s : σ} {n : ℕ}
    (h : (r.after s n).1.state.isTerminal = true) (m : ℕ) :
    r.after s (n + m) = r.after s n := by
  induction m with
  | zero => rfl
  | succ m ih =>
    have hstep := step_of_terminal h (r.after s n).2
    rw [← Nat.add_assoc, after_succ, stepAt, ih, hstep]

/-- A history of steps of a runner over a source. The state tells what the calls gave; at most one
of them is an error; the counter is the number of calls that gave a line and of handlers that
succeeded, and one more handler was called exactly if the run stopped on a handler's error. Once the
state is terminal a step gives nothing, reports nothing and leaves the runner with its source, the
handlers' state and their calls as they are. -/
theorem steps_keep_account (registry : Registry σ) (source : Source) (s : σ) (n : ℕ) :
    let start := ofSource registry source
    let now := (start.after s n).1
    let outcomes := start.outcomes s n
    let calls := start.calls s n
    (now.state = .idle ↔ n = 0) ∧
      (now.state = .running ↔ n ≠ 0 ∧ ∀ o ∈ outcomes, o.ran = true) ∧
      (now.state = .failed ↔ ∃ e, .error e ∈ outcomes) ∧
      (now.state = .succeeded ↔ .ok none ∈ outcomes ∧ ∀ e, .error e ∉ outcomes) ∧
      outcomes.countP Outcome.isError ≤ 1 ∧
      outcomes.countP Outcome.ran = now.dispatched ∧
      calls.countP registry.succeeded = now.dispatched ∧
      ((calls.length = now.dispatched ∧ ∀ line f, .error ⟨line, .handler f⟩ ∉ outcomes) ∨
        (calls.length = now.dispatched + 1 ∧ ∃ line f, .error ⟨line, .handler f⟩ ∈ outcomes)) ∧
      start.noted.after (s, []) n = (now.noted, (start.after s n).2, calls) ∧
      start.noted.outcomes (s, []) n = outcomes ∧
      (now.state.isTerminal = true → ∀ m,
        start.stepAt s (n + m) = ⟨.ok none, now, (start.after s n).2, []⟩ ∧
          start.calls s (n + m) = calls) := by
  intro start now outcomes calls
  obtain ⟨lines, tail, blamed, h⟩ := exists_account registry source s n
  have hlength : outcomes = [] ↔ n = 0 := by
    rw [← List.length_eq_zero_iff, length_outcomes]
  obtain ⟨hsucceeded, hcalls⟩ := h.calls_cases
  refine ⟨h.idle.trans hlength, ?_, h.failed_iff, h.succeeded_iff, h.countP_isError_le,
    h.countP_ran, hsucceeded, hcalls, start.after_noted s n, ?_, ?_⟩
  · rw [h.running_iff, ne_eq, hlength]
  · exact List.map_congr_left fun i _ => (start.stepAt_noted s i).1
  · intro hterminal m
    have hplain := after_add_of_terminal hterminal m
    have hnoted : (start.noted.after (s, []) n).1.state.isTerminal = true := by
      rw [start.after_noted]
      exact hterminal
    refine ⟨?_, ?_⟩
    · rw [stepAt, hplain, step_of_terminal hterminal]
    · simp only [calls, Runner.calls]
      rw [after_add_of_terminal hnoted m]

end Runner

end PageScript
