import PageScript.Cli.Arguments
import PageScript.Cli.Report
import PageScript.Config
import PageScript.Directive

/-!
# The program

Everything that the program does, as a function of its arguments and of the world in which it is
started. A script that fails gives exit code 2; a file that cannot be opened gives 1.
-/
namespace PageScript.Cli

/-- What paths lead to, what can be read there, what comes in, and what the clock says. A file that
is there need not open, and one that opens need not be readable to its end. -/
structure World where
  env : Environment
  stat : String → Except IoError Node
  openFile : String → Except IoError Source := fun path => (stat path).map Node.source
  stdin : Source
  home : Option String := none
  time : String
  elapsed : Nat

structure Session where
  json : Bool
  configPath : String
  config : Config
  logging : Logging
  notes : List String

namespace World

def configPath (w : World) (i : Invocation) : String := i.config.getD (w.env.configPath w.home)

def wantsJson (w : World) (i : Invocation) : Bool := i.json || w.env "CONFLANG_JSON" = some "1"

/-- The environment's filter if it is well formed, else what the configuration gives. -/
def logFilter (w : World) (config : Config) : LogFilter × List String :=
  match (w.env "RUST_LOG").bind LogFilter.parse? with
  | some filter => (filter, [])
  | none => LogFilter.salvage config.logLevel

/-- A dash stands for the standard input. -/
def openScript (w : World) (path : String) : Except IoError Source :=
  if Path.same path "-" then .ok w.stdin else w.openFile path

def loadConfig (w : World) (path : String) : Except ConfigError Config :=
  Config.loadFrom (.default w.env w.home) (w.stat path).isOk (w.openFile path >>= Source.contents)

/-- Plain log lines are coloured unless `NO_COLOR` says something. -/
def color (w : World) : Bool := (w.env "NO_COLOR").getD "" = ""

def session (w : World) (i : Invocation) : Except ConfigError Session := do
  let config ← w.loadConfig (w.configPath i)
  let (filter, notes) := w.logFilter config
  .ok {
    json := w.wantsJson i
    configPath := w.configPath i
    config
    logging := ⟨filter, config.logJson || i.logJson, w.color, w.time⟩
    notes }

end World

def isKnown (name : String) : Bool :=
  (Registry.directives (.whole : Focus Settings Settings)).contains name

def unknownCommands (commands : List Command) : List Command :=
  commands.filter fun c => !isKnown c.name

namespace Session

/-- The outcome of what was done after the configuration was loaded. -/
def outcome (s : Session) (exit : Nat) (stdout : String) (events : List Event)
    (errors : List String) : Outcome :=
  ⟨exit, stdout,
    unlines (s.notes ++ s.logging.lines (.configLoaded s.configPath :: events) ++ errors)⟩

def scriptFailed (s : Session) (path : String) (events : List Event) (e : LineError) : Outcome :=
  if s.json then s.outcome 2 (Report.printed (Report.failureJson path e)) events []
  else s.outcome 2 "" events [Report.failureLine path e]

def notOpened (s : Session) (path : String) (e : IoError) : Outcome :=
  s.outcome 1 "" [] (Report.abort ("opening script " ++ path) [e.text])

def run (s : Session) (elapsed : Nat) (path : String) (source : Source) : Outcome :=
  let finish := (Registry.directives .whole).run source Settings.initial
  match finish.result with
  | .error e => s.scriptFailed path finish.events e
  | .ok () =>
    let text :=
      if s.json then Report.printed (Report.settingsJson elapsed finish.shared)
      else Report.settingsText finish.shared
    s.outcome 0 text finish.events []

def check (s : Session) (elapsed : Nat) (path : String) (source : Source) : Outcome :=
  let drained := (Parser.ofSource source).drain
  let events := drained.pulled.map Event.ofToken
  match drained.ending with
  | some e => s.scriptFailed path events e
  | none =>
    let unknown := unknownCommands drained.commands
    let exit := if unknown.isEmpty then 0 else 2
    if s.json then
      s.outcome exit
        (Report.printed (Report.commandsJson elapsed drained.commands unknown)) events []
    else
      s.outcome exit (unlines (drained.commands.map (Report.commandLine isKnown))) events
        (unknown.map (Report.unknownLine path))

def showConfig (s : Session) : Outcome :=
  let text :=
    if s.json then
      Report.printed (.object [
        ("data", .object [("config", s.config.toJson), ("path", .text s.configPath)]),
        ("status", .text "ok")])
    else unlines ["# " ++ s.configPath] ++ s.config.toToml
  s.outcome 0 text [] []

def scriptPath (s : Session) (file : Option String) : String := file.getD s.config.scriptPath

def withScript (s : Session) (w : World) (file : Option String)
    (go : String → Source → Outcome) : Outcome :=
  match w.openScript (s.scriptPath file) with
  | .error e => s.notOpened (s.scriptPath file) e
  | .ok source => go (s.scriptPath file) source

def perform (s : Session) (w : World) : Request → Outcome
  | .run file => s.withScript w file (s.run w.elapsed)
  | .check file => s.withScript w file (s.check w.elapsed)
  | .showConfig => s.showConfig

end Session

def configFailed (path : String) (e : ConfigError) : Outcome :=
  ⟨1, "", unlines (Report.abort ("loading config from " ++ path) [e.message, e.text])⟩

def perform (w : World) (i : Invocation) : Outcome :=
  match w.session i with
  | .error e => configFailed (w.configPath i) e
  | .ok s => s.perform w i.request

def respond (w : World) (args : List String) : Except Notice Outcome :=
  (Invocation.parse args).map (perform w)

end PageScript.Cli
