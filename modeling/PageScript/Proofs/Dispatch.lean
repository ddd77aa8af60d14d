import Mathlib
import PageScript.Command
import PageScript.Registry

/-!
# Dispatch of a list of commands

The reference for a run: all commands are there before the first call. They are called one after
the other on the state that the calls before left, up to the first that has no handler or whose
handler fails. `Stops` says why no more calls were made.
-/
namespace PageScript

variable {σ : Type}

/-- A call of a handler, with the state that it found. -/
structure Call (σ : Type) where
  name : String
  params : List String
  before : σ

/-- The result when everything was dispatched: success at a clean end, else the error there. -/
def endResult : Option LineError → Except LineError Unit
  | none => .ok ()
  | some e => .error e

namespace Handler

def noted (name : String) (handler : Handler σ) : Handler (σ × List (Call σ)) :=
  fun params => ExceptT.mk fun s =>
    let r := handler.call params s.1
    (r.1, (r.2, s.2 ++ [⟨name, params, s.1⟩]))

theorem call_noted (name : String) (handler : Handler σ) (params : List String) (s : σ)
    (log : List (Call σ)) :
    (handler.noted name).call params (s, log) =
      ((handler.call params s).1, ((handler.call params s).2, log ++ [⟨name, params, s⟩])) := rfl

end Handler

namespace Registry

def noted (r : Registry σ) : Registry (σ × List (Call σ)) :=
  ⟨r.entries.map fun e => (e.1, e.2.noted e.1)⟩

theorem lookup_noted (r : Registry σ) (name : String) :
    r.noted.lookup name = (r.lookup name).map (Handler.noted name) := by
  obtain ⟨entries⟩ := r
  simp only [noted, lookup]
  induction entries with
  | nil => rfl
  | cons e rest ih =>
    obtain ⟨n, h⟩ := e
    by_cases hn : name = n
    · simp [hn]
    · simp [List.lookup_cons, beq_eq_false_iff_ne.2 hn, ih]

def effect (r : Registry σ) (c : Command) (s : σ) : σ :=
  match r.lookup c.name with
  | none => s
  | some handler => (handler.call c.params s).2

/-- The state that the handlers of some commands leave, called in this order. -/
def replay (r : Registry σ) (cs : List Command) (s : σ) : σ :=
  cs.foldl (fun s c => r.effect c s) s

/-- The calls of the handlers of some commands in this order. -/
def callsOf (r : Registry σ) : List Command → σ → List (Call σ)
  | [], _ => []
  | c :: cs, s => ⟨c.name, c.params, s⟩ :: callsOf r cs (r.effect c s)

/-- Every one of the commands has a handler, and its call in this order succeeds. -/
def Accepts (r : Registry σ) : List Command → σ → Prop
  | [], _ => True
  | c :: cs, s =>
    (∃ handler, r.lookup c.name = some handler ∧ (handler.call c.params s).1 = .ok ()) ∧
      Accepts r cs (r.effect c s)

/-- Why the handlers of `called` were called and those of `later` were not, and what comes of it:
all commands are done, or the next has no handler, or the last one's handler failed. -/
inductive Stops (r : Registry σ) (ending : Except LineError Unit) (s : σ)
    (called later : List Command) : Except LineError Unit → Prop
  | ended (all : later = []) (accepted : r.Accepts called s) : Stops r ending s called later ending
  | unknown {c : Command} {rest : List Command} (next : later = c :: rest)
      (accepted : r.Accepts called s) (missing : r.lookup c.name = none) :
      Stops r ending s called later (.error ⟨c.line, .unknownCommand c.name⟩)
  | refused {before : List Command} {c : Command} {handler : Handler σ} {e : HandlerError}
      (last : called = before ++ [c]) (accepted : r.Accepts before s)
      (found : r.lookup c.name = some handler)
      (failed : (handler.call c.params (r.replay before s)).1 = .error e) :
      Stops r ending s called later (.error ⟨c.line, .handler e⟩)

/-- What a dispatch did: the commands whose handlers were called, the result and the state. -/
structure Sweep (σ : Type) where
  called : List Command
  result : Except LineError Unit
  shared : σ

/-- Dispatches commands in order up to the first failure; the given ending is that of the list. -/
def sweep (r : Registry σ) (ending : Except LineError Unit) : List Command → σ → Sweep σ
  | [], s => ⟨[], ending, s⟩
  | c :: cs, s =>
    match r.lookup c.name with
    | none => ⟨[], .error ⟨c.line, .unknownCommand c.name⟩, s⟩
    | some handler =>
      match handler.call c.params s with
      | (.error e, s) => ⟨[c], .error ⟨c.line, .handler e⟩, s⟩
      | (.ok (), s) =>
        let rest := sweep r ending cs s
        { rest with called := c :: rest.called }

section Laws

variable {r : Registry σ} {c : Command} {handler : Handler σ} {s t : σ} {e : HandlerError}

theorem effect_of_lookup (hl : r.lookup c.name = some handler) :
    r.effect c s = (handler.call c.params s).2 := by
  simp [effect, hl]

@[simp] theorem replay_nil (r : Registry σ) (s : σ) : r.replay [] s = s := rfl

@[simp] theorem replay_cons (r : Registry σ) (c : Command) (cs : List Command) (s : σ) :
    r.replay (c :: cs) s = r.replay cs (r.effect c s) := rfl

theorem sweep_unknown (ending : Except LineError Unit) (cs : List Command) (s : σ)
    (hl : r.lookup c.name = none) :
    r.sweep ending (c :: cs) s = ⟨[], .error ⟨c.line, .unknownCommand c.name⟩, s⟩ := by
  simp [sweep, hl]

theorem sweep_refused (ending : Except LineError Unit) (cs : List Command)
    (hl : r.lookup c.name = some handler) (hc : handler.call c.params s = (.error e, t)) :
    r.sweep ending (c :: cs) s = ⟨[c], .error ⟨c.line, .handler e⟩, t⟩ := by
  simp [sweep, hl, hc]

theorem sweep_accepted (ending : Except LineError Unit) (cs : List Command)
    (hl : r.lookup c.name = some handler) (hc : handler.call c.params s = (.ok (), t)) :
    r.sweep ending (c :: cs) s =
      { r.sweep ending cs t with called := c :: (r.sweep ending cs t).called } := by
  simp [sweep, hl, hc]

end Laws

theorem Stops.cons {r : Registry σ} {ending result : Except LineError Unit} {c : Command}
    {called later : List Command} {handler : Handler σ} {s : σ}
    (hl : r.lookup c.name = some handler) (hc : (handler.call c.params s).1 = .ok ())
    (h : r.Stops ending (r.effect c s) called later result) :
    r.Stops ending s (c :: called) later result := by
  have hfirst : ∃ handler, r.lookup c.name = some handler ∧ (handler.call c.params s).1 = .ok () :=
    ⟨handler, hl, hc⟩
  cases h with
  | ended all accepted => exact .ended all ⟨hfirst, accepted⟩
  | unknown next accepted missing => exact .unknown next ⟨hfirst, accepted⟩ missing
  | @refused before d _ _ last accepted found failed =>
    have hlast : c :: called = (c :: before) ++ [d] := by rw [last]; rfl
    exact .refused hlast ⟨hfirst, accepted⟩ found failed

/-- A dispatch calls a beginning of the commands, each once, and stops for a reason. -/
theorem sweep_stops (r : Registry σ) (ending : Except LineError Unit) (cs : List Command) (s : σ) :
    ∃ later, cs = (r.sweep ending cs s).called ++ later ∧
      (r.sweep ending cs s).shared = r.replay (r.sweep ending cs s).called s ∧
      r.Stops ending s (r.sweep ending cs s).called later (r.sweep ending cs s).result := by
  induction cs generalizing s with
  | nil => exact ⟨[], rfl, rfl, .ended rfl trivial⟩
  | cons c cs ih =>
    cases hl : r.lookup c.name with
    | none =>
      rw [sweep_unknown ending cs s hl]
      exact ⟨c :: cs, rfl, rfl, .unknown rfl trivial hl⟩
    | some handler =>
      have he := effect_of_lookup (s := s) hl
      rcases hc : handler.call c.params s with ⟨result, t⟩
      obtain rfl : r.effect c s = t := by rw [he, hc]
      cases result with
      | error e =>
        have hlast : [c] = [] ++ [c] := rfl
        rw [sweep_refused ending cs hl hc]
        exact ⟨cs, rfl, rfl, .refused hlast trivial hl (by simp [hc])⟩
      | ok =>
        rw [sweep_accepted ending cs hl hc]
        obtain ⟨later, hcs, hs, hstop⟩ := ih (r.effect c s)
        refine ⟨later, by simp [← hcs], by simp [hs], ?_⟩
        exact hstop.cons hl (by rw [hc])

theorem replay_append (r : Registry σ) (xs ys : List Command) (s : σ) :
    r.replay (xs ++ ys) s = r.replay ys (r.replay xs s) := by
  simp [replay]

theorem accepts_append {r : Registry σ} {xs ys : List Command} {s : σ} :
    r.Accepts (xs ++ ys) s ↔ r.Accepts xs s ∧ r.Accepts ys (r.replay xs s) := by
  induction xs generalizing s with
  | nil => simp [Accepts]
  | cons c xs ih => simp [Accepts, ih, and_assoc]

theorem callsOf_append (r : Registry σ) (xs ys : List Command) (s : σ) :
    r.callsOf (xs ++ ys) s = r.callsOf xs s ++ r.callsOf ys (r.replay xs s) := by
  induction xs generalizing s with
  | nil => rfl
  | cons c xs ih => simp [callsOf, ih]

theorem sweep_of_accepts (r : Registry σ) (ending : Except LineError Unit) {xs : List Command}
    {s : σ} (h : r.Accepts xs s) (ys : List Command) :
    r.sweep ending (xs ++ ys) s =
      { r.sweep ending ys (r.replay xs s) with
        called := xs ++ (r.sweep ending ys (r.replay xs s)).called } := by
  induction xs generalizing s with
  | nil => rfl
  | cons c xs ih =>
    obtain ⟨⟨handler, hl, hc⟩, hrest⟩ := h
    have he := effect_of_lookup (s := s) hl
    have hcall : handler.call c.params s = (.ok (), r.effect c s) := by rw [he, ← hc]
    rw [List.cons_append, sweep_accepted ending _ hl hcall, ih hrest, replay_cons]
    rfl

/-- What stopped in a failure stops there also if more commands follow. -/
theorem Stops.sweep_append {r : Registry σ} {s : σ} {called later : List Command} {e : LineError}
    (h : r.Stops (.ok ()) s called later (.error e)) (ending : Except LineError Unit)
    (more : List Command) :
    r.sweep ending (called ++ later ++ more) s = ⟨called, .error e, r.replay called s⟩ := by
  generalize hr : (Except.error e : Except LineError Unit) = result at h
  cases h with
  | ended => simp at hr
  | @unknown c rest next accepted missing =>
    subst next
    rw [List.append_assoc, sweep_of_accepts r ending accepted, List.cons_append,
      sweep_unknown ending _ _ missing, List.append_nil]
  | @refused before c handler f last accepted found failed =>
    subst last
    have hc : handler.call c.params (r.replay before s) =
        (.error f, r.effect c (r.replay before s)) := by rw [effect_of_lookup found, ← failed]
    have hs : r.replay (before ++ [c]) s = r.effect c (r.replay before s) := by
      rw [replay_append, replay_cons, replay_nil]
    rw [List.append_assoc, List.append_assoc, sweep_of_accepts r ending accepted,
      List.singleton_append, sweep_refused ending _ found hc, hs]

theorem Stops.accepts {r : Registry σ} {s : σ} {called later : List Command}
    (h : r.Stops (.ok ()) s called later (.ok ())) : later = [] ∧ r.Accepts called s := by
  generalize hr : (Except.ok () : Except LineError Unit) = result at h
  cases h with
  | ended all accepted => exact ⟨all, accepted⟩
  | unknown => simp at hr
  | refused => simp at hr

theorem sweep_noted (r : Registry σ) (ending : Except LineError Unit) (cs : List Command) (s : σ)
    (log : List (Call σ)) :
    r.noted.sweep ending cs (s, log) =
      ⟨(r.sweep ending cs s).called, (r.sweep ending cs s).result,
        ((r.sweep ending cs s).shared, log ++ r.callsOf (r.sweep ending cs s).called s)⟩ := by
  induction cs generalizing s log with
  | nil => simp [sweep, callsOf]
  | cons c cs ih =>
    have hn := r.lookup_noted c.name
    cases hl : r.lookup c.name with
    | none =>
      rw [hl] at hn
      rw [sweep_unknown ending cs s hl, sweep_unknown ending cs (s, log) hn]
      simp [callsOf]
    | some handler =>
      rw [hl] at hn
      have hcn := handler.call_noted c.name c.params s log
      rcases hc : handler.call c.params s with ⟨result, t⟩
      rw [hc] at hcn
      cases result with
      | error e =>
        rw [sweep_refused ending cs hl hc, sweep_refused ending cs hn hcn]
        simp [callsOf]
      | ok =>
        rw [sweep_accepted ending cs hl hc, sweep_accepted ending cs hn hcn, ih]
        simp [callsOf, effect_of_lookup hl, hc]

end Registry

end PageScript
