import PageScript.Cli.LogLine
import PageScript.Command
import PageScript.Settings.Json

namespace PageScript.Cli

structure Outcome where
  exit : Nat
  stdout : String
  stderr : String
  deriving DecidableEq, Repr

def unlines (lines : List String) : String := String.join (lines.map (· ++ "\n"))

namespace Report

def printed (v : Json) : String := v.pretty ++ "\n"

def linkLine (l : Link) : String := "  " ++ alignLeft 24 l.title ++ "  " ++ l.url

def weather : Option WeatherCoords → String
  | some c => c.lat ++ ", " ++ c.lon
  | none => "(disabled)"

def settingsText (s : Settings) : String :=
  unlines ([
    "weather:      " ++ weather s.weatherCoords,
    "subreddit:    " ++ s.subreddit,
    "max dimension: " ++ toString s.maxdim,
    "save path:    " ++ s.savepath?.getD "(saving disabled)"] ++
    if s.links.isEmpty then ["links:        (none)"] else "links:" :: s.links.map linkLine)

def timing (elapsed : Nat) : Json := .object [("duration_ms", .number elapsed)]

def settingsJson (elapsed : Nat) (s : Settings) : Json :=
  .object [("data", s.toJson), ("meta", timing elapsed), ("status", .text "ok")]

def commandJson (c : Command) : Json :=
  .object [("line", .number c.line), ("name", .text c.name), ("params", .texts c.params)]

def commandLine (known : String → Bool) (c : Command) : String :=
  (if known c.name then " " else "?") ++ alignRight 4 (toString c.line) ++ ": " ++ c.name ++ " " ++
    String.intercalate " " c.params

def unknownLine (path : String) (c : Command) : String :=
  path ++ ": command \"" ++ c.name ++ "\" not found (at line " ++ toString c.line ++ ")"

def commandsJson (elapsed : Nat) (commands unknown : List Command) : Json :=
  .object [
    ("data", .object [
      ("commands", .list (commands.map commandJson)),
      ("unknown", .list (unknown.map commandJson))]),
    ("meta", timing elapsed),
    ("status", .text (if unknown.isEmpty then "ok" else "error"))]

def failureLine (path : String) (e : LineError) : String := path ++ ": error: " ++ e.message

def failureJson (path : String) (e : LineError) : Json :=
  .object [
    ("error", .text e.cause.message),
    ("file", .text path),
    ("line", .number e.line),
    ("status", .text "error")]

def causeLines : List String → List String
  | [cause] => ["    " ++ cause]
  | causes => causes.mapIdx fun i cause => "    " ++ toString i ++ ": " ++ cause

/-- A failure before any script was read. -/
def abort (what : String) (causes : List String) : List String :=
  ["Error: " ++ what, "", "Caused by:"] ++ causeLines causes

end Report

end PageScript.Cli
