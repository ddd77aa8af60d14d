import PageScript.Token

namespace PageScript

inductive Level where
  | error
  | warn
  | info
  | debug
  | trace
  deriving DecidableEq, Repr

inductive FieldValue where
  | number (n : Nat)
  | flag (b : Bool)
  | text (s : String)
  deriving DecidableEq, Repr

inductive Event where
  | configLoaded (path : String)
  | runStarted (commands : Nat)
  | token (line : Nat) (boundary : Bool)
  | dispatch (command : String) (line params : Nat)
  | runFinished (dispatched : Nat)
  | runFailed (line : Nat) (error : String)
  deriving DecidableEq, Repr

namespace Level

def name : Level → String
  | error => "ERROR"
  | warn => "WARN"
  | info => "INFO"
  | debug => "DEBUG"
  | trace => "TRACE"

def verbosity : Level → Nat
  | error => 1
  | warn => 2
  | info => 3
  | debug => 4
  | trace => 5

end Level

namespace Event

def ofToken (t : Token) : Event := token t.line t.isBoundary

def level : Event → Level
  | configLoaded _ | runStarted _ | dispatch .. => .debug
  | token .. => .trace
  | runFinished _ => .info
  | runFailed .. => .warn

def target : Event → String
  | configLoaded _ => "conflang"
  | token .. => "conflang_core::tokenizer"
  | _ => "conflang_core::runner"

def message : Event → String
  | configLoaded _ => "config loaded"
  | runStarted _ => "run started"
  | token .. => "token"
  | dispatch .. => "dispatch"
  | runFinished _ => "run finished"
  | runFailed .. => "run failed"

def fields : Event → List (String × FieldValue)
  | configLoaded path => [("path", .text path)]
  | runStarted commands => [("commands", .number commands)]
  | token line boundary => [("line", .number line), ("boundary", .flag boundary)]
  | dispatch command line params =>
    [("command", .text command), ("line", .number line), ("params", .number params)]
  | runFinished dispatched => [("dispatched", .number dispatched)]
  | runFailed line error => [("line", .number line), ("error", .text error)]

/-- The names of all that an event carries; its message is one. -/
def fieldNames (e : Event) : List String := "message" :: e.fields.map Prod.fst

end Event

end PageScript
