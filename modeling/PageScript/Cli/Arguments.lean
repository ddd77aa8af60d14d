/-!
# Arguments

Options stand before or after the command, each at most once in either place; the value nearer to
the end counts. The value of an option is looked at when the next argument of the same place needs
it settled, or at the end of that place; the end of the outer place comes last.
-/
namespace PageScript.Cli

inductive Request where
  | run (file : Option String)
  | check (file : Option String)
  | showConfig
  deriving DecidableEq, Repr

structure Invocation where
  request : Request
  json : Bool
  logJson : Bool
  config : Option String
  deriving DecidableEq, Repr

/-- What is said instead of doing anything. -/
inductive Notice where
  | help
  | version
  | usage
  deriving DecidableEq, Repr

namespace Notice

def exit : Notice → Nat
  | help | version => 0
  | usage => 2

def text : Notice → String
  | version => "conflang 0.1.0\n"
  | help =>
    "Run line-oriented start page scripts\n\n" ++
      "Usage: conflang [OPTIONS] <COMMAND>\n\n" ++
      "Commands:\n" ++
      "  run     Execute a script and print the resulting settings\n" ++
      "  check   Parse a script without executing it and report unknown commands\n" ++
      "  config  Show the resolved config file path and effective config\n" ++
      "  help    Print this message\n\n" ++
      "Options:\n" ++
      "      --json             Output in JSON format\n" ++
      "      --log-json         Emit logs as JSON lines on stderr\n" ++
      "      --config <CONFIG>  Use this config file instead of the default location\n" ++
      "  -h, --help             Print help\n" ++
      "  -V, --version          Print version\n"
  | usage => "error: unexpected arguments\n\nFor more information, try '--help'.\n"

end Notice

/-- The options of one place. A value that was not looked at is pending. -/
structure Options where
  json : Bool
  logJson : Bool
  config : Option String
  pending : Option String
  awaiting : Bool
  deriving DecidableEq, Repr

namespace Options

def none : Options := ⟨false, false, .none, .none, false⟩

def withConfig (o : Options) (value : String) : Except Notice Options :=
  if value = "" ∨ o.config.isSome then .error .usage
  else .ok { o with config := some value, pending := .none }

/-- Looks at the pending value. It may be neither empty nor a second one. -/
def settle (o : Options) : Except Notice Options :=
  if o.awaiting then .error .usage
  else
    match o.pending with
    | .none => .ok o
    | some value => o.withConfig value

def isOption (arg : String) : Bool := arg.toList.head? = some '-' && arg ≠ "-"

/-- A cluster of short options is decided by the first; a second dash is none. -/
def short (outer : Bool) (arg : String) (o : Options) : Except Notice Options :=
  match arg.toList with
  | _ :: 'h' :: _ => do
    let _ ← o.settle
    .error .help
  | _ :: 'V' :: _ => do
    let _ ← o.settle
    .error (if outer then .version else .usage)
  | _ => .error .usage

def attached? (name arg : String) : Option String :=
  if name.toList.isPrefixOf arg.toList then some (String.ofList (arg.toList.drop name.length))
  else .none

def take (outer : Bool) (arg : String) (o : Options) : Except Notice Options :=
  if arg = "--json" then do
    let o ← o.settle
    if o.json then .error .usage else .ok { o with json := true }
  else if arg = "--log-json" then do
    let o ← o.settle
    if o.logJson then .error .usage else .ok { o with logJson := true }
  else if arg = "--config" then do
    let o ← o.settle
    .ok { o with awaiting := true }
  else if arg = "--help" then do
    let _ ← o.settle
    .error .help
  else if arg = "--version" then do
    let _ ← o.settle
    .error (if outer then .version else .usage)
  else
    match attached? "--config=" arg with
    | some value => do
      let o ← o.settle
      o.withConfig value
    | .none => o.short outer arg

end Options

/-- A command's only place for something that is not an option. -/
structure Slot where
  free : Bool
  file : Option String
  deriving DecidableEq, Repr

def Slot.fill (slot : Slot) (arg : String) (o : Options) : Except Notice (Options × Slot) := do
  let o ← o.settle
  if slot.free then .ok (o, ⟨false, some arg⟩) else .error .usage

/-- The arguments after a command. After two dashes nothing is an option any more. -/
def readInner (literal : Bool) (o : Options) (slot : Slot) :
    List String → Except Notice (Options × Option String)
  | [] => do
    let o ← o.settle
    .ok (o, slot.file)
  | arg :: rest =>
    if literal then do
      let (o, slot) ← slot.fill arg o
      readInner true o slot rest
    else if arg = "--" then readInner true o slot rest
    else if Options.isOption arg then do
      let o ← o.take false arg
      readInner false o slot rest
    else if o.awaiting then
      readInner false { o with pending := some arg, awaiting := false } slot rest
    else do
      let (o, slot) ← slot.fill arg o
      readInner false o slot rest

def isTopic (topics : List String) : Bool :=
  match topics with
  | [] => true
  | [topic] => topic ∈ ["run", "check", "config", "help"]
  | _ => false

/-- The command's own arguments, then the options in front of it. -/
def finish (outer : Options) (takesFile : Bool) (request : Option String → Request)
    (args : List String) : Except Notice Invocation := do
  let (inner, file) ← readInner false .none ⟨takesFile, .none⟩ args
  let outer ← outer.settle
  .ok {
    request := request file
    json := inner.json || outer.json
    logJson := inner.logJson || outer.logJson
    config := inner.config <|> outer.config }

def readOuter (o : Options) : List String → Except Notice Invocation
  | [] => .error .usage
  | arg :: rest =>
    if Options.isOption arg then
      if arg = "--" then .error .usage
      else do
        let o ← o.take true arg
        readOuter o rest
    else if o.awaiting then readOuter { o with pending := some arg, awaiting := false } rest
    else if arg = "run" then finish o true .run rest
    else if arg = "check" then finish o true .check rest
    else if arg = "config" then finish o false (fun _ => .showConfig) rest
    else if arg = "help" ∧ isTopic rest then .error .help
    else .error .usage

def Invocation.parse (args : List String) : Except Notice Invocation := readOuter .none args

end PageScript.Cli
