import PageScript.Cli.LogFilter
import PageScript.Json

namespace PageScript.Cli

def alignRight (width : Nat) (s : String) : String := "".pushn ' ' (width - s.length) ++ s

def alignLeft (width : Nat) (s : String) : String := s ++ "".pushn ' ' (width - s.length)

/-- The filter, the form, whether plain lines are coloured, and the time that stands on each. -/
structure Logging where
  filter : LogFilter
  json : Bool
  color : Bool
  time : String
  deriving DecidableEq, Repr

/-- A text in a style of the terminal, which ends behind it. -/
def styled (style : Nat) (s : String) : String :=
  "\x1b[" ++ toString style ++ "m" ++ s ++ "\x1b[0m"

namespace Logging

def levelStyle : Level → Nat
  | .error => 31
  | .warn => 33
  | .info => 32
  | .debug => 34
  | .trace => 35

def plainValue : FieldValue → String
  | .number n => toString n
  | .flag b => if b then "true" else "false"
  | .text s => s

def jsonValue : FieldValue → Json
  | .number n => .number n
  | .flag b => .boolean b
  | .text s => .text s

/-- Dim but for the level, the message and the values; the names of fields are slanted. -/
def plainLine (color : Bool) (time : String) (e : Event) : String :=
  let paint := fun style s => if color then styled style s else s
  paint 2 time ++ " " ++ paint (levelStyle e.level) (alignRight 5 e.level.name) ++ " " ++
    paint 2 e.target ++ paint 2 ":" ++ " " ++ e.message ++
    String.join (e.fields.map fun (k, v) => " " ++ paint 3 k ++ paint 2 "=" ++ plainValue v)

def jsonLine (time : String) (e : Event) : String :=
  (Json.object [
    ("timestamp", .text time),
    ("level", .text e.level.name),
    ("fields", .object (("message", .text e.message) ::
      e.fields.map fun (k, v) => (k, jsonValue v))),
    ("target", .text e.target)]).compact

def lines (l : Logging) (events : List Event) : List String :=
  (events.filter l.filter.shows).map
    (if l.json then jsonLine l.time else plainLine l.color l.time)

end Logging

end PageScript.Cli
