import PageScript.Environment
import PageScript.FileTree
import PageScript.Json
import PageScript.Toml.Document
import PageScript.Toml.Written

/-!
# Configuration

The script to run when none is named, and what is logged and how. A configuration is kept in a TOML
file; what the file leaves out has its default, and a file that is not there leaves out everything.
-/
namespace PageScript

structure Config where
  scriptPath : String
  logLevel : String
  logJson : Bool
  deriving DecidableEq, Repr

inductive ConfigError where
  | io (error : IoError)
  | toml
  deriving DecidableEq, Repr

namespace ConfigError

def text : ConfigError → String
  | io e => e.text
  | toml => "not a document of the expected form"

def message : ConfigError → String
  | io e => s!"I/O error: {e.text}"
  | toml => s!"TOML parse error: {toml.text}"

end ConfigError

namespace Toml.Item

/-- The named fields of a section. A list gives them in order, a moment gives none. -/
def fields? (names : List String) : Option Item → Option (List (Option Item))
  | none => some (names.map fun _ => none)
  | some (.table _ entries) => some (names.map fun name => entries.lookup name)
  | some (.list items) => some (names.mapIdx fun i _ => items[i]?)
  | some (.series earlier latest) =>
    some (names.mapIdx fun i _ => (earlier ++ [.table .header latest])[i]?)
  | some (.moment _) => some (names.map fun _ => none)
  | some _ => none

def textOr (default : String) : Option Item → Option String
  | none => some default
  | some (.text s) => some s
  | some _ => none

def booleanOr (default : Bool) : Option Item → Option Bool
  | none => some default
  | some (.boolean b) => some b
  | some _ => none

end Toml.Item

namespace Config

def default (env : Environment) (home : Option String := none) : Config :=
  ⟨env.defaultScript home, "info", false⟩

/-- The configuration that a document gives; entries with other names are ignored. -/
def ofToml? (defaults : Config) (document : Toml.Entries) : Option Config := do
  match ← Toml.Item.fields? ["path"] (document.lookup "script"),
      ← Toml.Item.fields? ["level", "json"] (document.lookup "log") with
  | [path], [level, json] =>
    some {
      scriptPath := ← Toml.Item.textOr defaults.scriptPath path
      logLevel := ← Toml.Item.textOr defaults.logLevel level
      logJson := ← Toml.Item.booleanOr defaults.logJson json }
  | _, _ => none

def toToml (c : Config) : String :=
  "[script]\npath = " ++ Toml.writeText c.scriptPath ++
    "\n\n[log]\nlevel = " ++ Toml.writeText c.logLevel ++
    "\njson = " ++ (if c.logJson then "true" else "false") ++ "\n"

def toJson (c : Config) : Json :=
  .object [
    ("log", .object [("json", .boolean c.logJson), ("level", .text c.logLevel)]),
    ("script", .object [("path", .text c.scriptPath)])]

/-- Loads what can be read where something is. Where nothing is there are the defaults. -/
def loadFrom (defaults : Config) (isThere : Bool) (contents : Except IoError Text.Bytes) :
    Except ConfigError Config :=
  if isThere then
    match contents with
    | .error e => .error (.io e)
    | .ok contents =>
      match Text.Utf8.decode? contents with
      | none => .error (.io .notUtf8)
      | some text =>
        match Toml.read text >>= ofToml? defaults with
        | none => .error .toml
        | some config => .ok config
  else .ok defaults

/-- Loads what a path of a tree leads to. -/
def load (defaults : Config) (found : Except IoError Node) : Except ConfigError Config :=
  loadFrom defaults found.isOk (found >>= (·.source.contents))

/-- Saves to a path. Directories that were made before something failed are still there. -/
def save (c : Config) (tree : FileTree) (path : String) : Except ConfigError Unit × FileTree :=
  let (result, tree) := tree.save path (Text.Utf8.encode c.toToml)
  (result.mapError .io, tree)

end Config

end PageScript
