import PageScript.Command
import PageScript.Event
import PageScript.Registry

/-!
# Runs

A runner dispatches the commands of one source, one a step, and stops at the first failure. A
command is pulled only when it is its turn, so nothing behind the newline that ends it is read.
-/
namespace PageScript

inductive RunState where
  | idle
  | running
  | succeeded
  | failed
  deriving DecidableEq, Repr

namespace RunState

def isTerminal : RunState → Bool
  | succeeded | failed => true
  | idle | running => false

def name : RunState → String
  | idle => "Idle"
  | running => "Running"
  | succeeded => "Succeeded"
  | failed => "Failed"

end RunState

structure Runner (σ : Type) where
  registry : Registry σ
  commands : Parser Tokenizer
  state : RunState
  dispatched : Nat

namespace Runner

variable {σ : Type}

/-- What one step gives: the line of the command that ran, or nothing at the end. -/
structure Step (σ : Type) where
  outcome : Except LineError (Option Nat)
  runner : Runner σ
  shared : σ
  events : List Event

structure Finish (σ : Type) where
  result : Except LineError Unit
  shared : σ
  events : List Event

def ofSource (registry : Registry σ) (source : Source) : Runner σ :=
  ⟨registry, .ofSource source, .idle, 0⟩

def fail (r : Runner σ) (s : σ) (events : List Event) (e : LineError) : Step σ :=
  ⟨.error e, { r with state := .failed }, s, events ++ [.runFailed e.line e.cause.message]⟩

/-- Calls the handler of a command, or fails if there is none. -/
def dispatch (r : Runner σ) (s : σ) (events : List Event) (c : Command) : Step σ :=
  match r.registry.lookup c.name with
  | none => r.fail s events (.unknownCommand c.line c.name)
  | some handler =>
    let seen := events ++ [.dispatch c.name c.line c.params.length]
    match handler.call c.params s with
    | (.error e, s) => r.fail s seen (.handler c.line e)
    | (.ok (), s) => ⟨.ok (some c.line), { r with dispatched := r.dispatched + 1 }, s, seen⟩

/-- Dispatches at most one command. A run that has ended does nothing more and reports no error. -/
def step (r : Runner σ) (s : σ) : Step σ :=
  if r.state.isTerminal then ⟨.ok none, r, s, []⟩
  else
    let turn := r.commands.turn
    let started := if r.state = .idle then [Event.runStarted r.registry.size] else []
    let seen := started ++ turn.pulled.map .ofToken
    let next := { r with commands := turn.parser, state := .running }
    match turn.item with
    | none => ⟨.ok none, { next with state := .succeeded }, s, seen ++ [.runFinished r.dispatched]⟩
    | some (.error e) => next.fail s seen e
    | some (.ok c) => next.dispatch s seen c

theorem commands_dispatch (r : Runner σ) (s : σ) (events : List Event) (c : Command) :
    (r.dispatch s events c).runner.commands = r.commands := by
  unfold dispatch
  split
  · rfl
  · dsimp only
    split <;> rfl

theorem step_size_lt {r : Runner σ} {s : σ} {line : Nat}
    (h : (r.step s).outcome = .ok (some line)) :
    (r.step s).runner.commands.size < r.commands.size := by
  unfold step at h ⊢
  split at h
  · simp at h
  · rename_i ht
    simp only [ht] at h ⊢
    split at h
    · simp at h
    · simp [fail] at h
    · rename_i c hc
      have := Parser.turn_size_lt hc
      simpa [hc, commands_dispatch] using this

def run (r : Runner σ) (s : σ) : Finish σ :=
  match _h : (r.step s).outcome with
  | .error e => ⟨.error e, (r.step s).shared, (r.step s).events⟩
  | .ok none => ⟨.ok (), (r.step s).shared, (r.step s).events⟩
  | .ok (some _) =>
    let rest := (r.step s).runner.run (r.step s).shared
    { rest with events := (r.step s).events ++ rest.events }
termination_by r.commands.size
decreasing_by exact step_size_lt _h

end Runner

def Registry.run {σ : Type} (registry : Registry σ) (source : Source) (s : σ) : Runner.Finish σ :=
  (Runner.ofSource registry source).run s

end PageScript
