import PageScript.IoError
import PageScript.Text.Quoted

/-!
# Errors of a run

A run stops for one of three causes, at a line. What a handler reports is kept as it is, under any
context that was put around it; a directive's own error can be found again below the context.
-/
namespace PageScript

/-- A directive refused its parameters. -/
inductive DirectiveError where
  | arity (command : String) (expected got : Nat)
  | invalidValue (command value reason : String)
  deriving DecidableEq, Repr

inductive HandlerError where
  | failure (text : String) (sources : List String)
  | directive (error : DirectiveError)
  | context (text : String) (inner : HandlerError)
  deriving DecidableEq, Repr

inductive Cause where
  | io (error : IoError)
  | unknownCommand (name : String)
  | handler (error : HandlerError)
  deriving DecidableEq, Repr

structure LineError where
  line : Nat
  cause : Cause
  deriving DecidableEq, Repr

namespace DirectiveError

def message : DirectiveError → String
  | arity command expected got => s!"{command} expects {expected} parameter(s), got {got}"
  | invalidValue command value reason =>
    s!"{command}: invalid value {Text.Quoted.quote value}: {reason}"

end DirectiveError

namespace HandlerError

def message : HandlerError → String
  | failure text _ => text
  | directive e => e.message
  | context text _ => text

def chain : HandlerError → List String
  | failure text sources => text :: sources
  | directive e => [e.message]
  | context text inner => text :: inner.chain

def directive? : HandlerError → Option DirectiveError
  | failure _ _ => none
  | directive e => some e
  | context _ inner => inner.directive?

end HandlerError

namespace Cause

def message : Cause → String
  | io e => s!"I/O error: {e.text}"
  | unknownCommand name => s!"Command \"{name}\" not found"
  | handler e => e.message

/-- The cause's text, then what lies below it. A handler's error does not. -/
def sources (c : Cause) : List String :=
  match c with
  | io e => [c.message, e.text]
  | _ => [c.message]

end Cause

namespace LineError

def io (line : Nat) (error : IoError) : LineError := ⟨line, .io error⟩

def unknownCommand (line : Nat) (name : String) : LineError := ⟨line, .unknownCommand name⟩

def handler (line : Nat) (error : HandlerError) : LineError := ⟨line, .handler error⟩

def message (e : LineError) : String := s!"{e.cause.message} (at line {e.line})"

def sources (e : LineError) : List String := e.cause.sources

def unknownCommand? (e : LineError) : Option String :=
  match e.cause with
  | .unknownCommand name => some name
  | _ => none

def handlerError? (e : LineError) : Option HandlerError :=
  match e.cause with
  | .handler err => some err
  | _ => none

end LineError

namespace HandlerError

def ofIo (e : IoError) : HandlerError := failure e.text []

def ofLineError (e : LineError) : HandlerError := failure e.message e.sources

end HandlerError

end PageScript
