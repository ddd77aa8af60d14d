import PageScript.Cli.Program

namespace PageScript.Entry

def names : List String :=
  ["CONFLANG_CONFIG", "CONFLANG_JSON", "HOME", "NO_COLOR", "RUST_LOG", "XDG_CONFIG_HOME"]

def environment : IO Environment := do
  let values ← names.mapM fun name => do
    let value ← IO.getEnv name
    pure (name, value)
  pure fun name => (values.lookup name).join

/-- System codes may come with a minus sign. -/
def ofCode (code : UInt32) : IoError := .system (min code.toNat (UInt32.size - code.toNat))

def systemError : IO.Error → IoError
  | .alreadyExists _ code _ | .interrupted _ code _ | .noFileOrDirectory _ code _
  | .invalidArgument _ code _ | .permissionDenied _ code _ | .resourceExhausted _ code _
  | .inappropriateType _ code _ | .noSuchThing _ code _ => ofCode code
  | .otherError code _ | .resourceBusy code _ | .resourceVanished code _
  | .unsupportedOperation code _ | .hardwareFault code _ | .unsatisfiedConstraints code _
  | .illegalOperation code _ | .protocolError code _ | .timeExpired code _ => ofCode code
  | .unexpectedEof => .plain .unexpectedEof
  | .userError text => .described .other text

def attempt {α : Type} (act : IO α) : IO (Except IoError α) := do
  try
    pure (.ok (← act))
  catch e =>
    pure (.error (systemError e))

/-- What comes in chunks, up to its end or to an error that is not repeated. -/
partial def readEvents (read : IO ByteArray) (seen : List ReadEvent) : IO (List ReadEvent) := do
  match ← attempt read with
  | .ok chunk =>
    if chunk.isEmpty then pure seen.reverse else readEvents read (.data chunk.toList :: seen)
  | .error e =>
    let seen := .failed e :: seen
    if e.kind = .interrupted then readEvents read seen else pure seen.reverse

def chunkSize : USize := 65536

def opened (path : String) : IO (Except IoError Source) := do
  if Path.holdsNul path then return .error .nulInPath
  match ← attempt (IO.FS.Handle.mk path .read) with
  | .ok file => return .ok (.ofEvents (← readEvents (file.read chunkSize) []))
  | .error e => return .error e

/-- Whether something is there; nothing else is asked of it. -/
def found (path : String) : IO (Except IoError Node) := do
  if Path.holdsNul path then return .error .nulInPath
  return (← attempt (IO.FS.realPath path)).map fun _ => .file []

/-- The home of an account in the list of all accounts. -/
def homeOf (accounts user : String) : Option String :=
  (accounts.splitOn "\n").findSome? fun line =>
    match line.splitOn ":" with
    | [_, _, id, _, _, home, _] => if id = user ∧ home ≠ "" then some home else none
    | _ => none

def home : IO (Option String) := do
  let status ← attempt (IO.FS.readFile "/proc/self/status")
  let accounts ← attempt (IO.FS.readFile "/etc/passwd")
  match status, accounts with
  | .ok status, .ok accounts =>
    let user := (status.splitOn "\n").findSome? fun line =>
      match line.splitOn "\t" with
      | "Uid:" :: user :: _ => some user
      | _ => none
    pure (user.bind (homeOf accounts))
  | _, _ => pure none

def withScript (w : Cli.World) (path : String) : IO Cli.World := do
  let source ← opened path
  pure { w with openFile := fun p => if p = path then source else w.openFile p }

def prepare (w : Cli.World) (i : Cli.Invocation) : IO Cli.World := do
  let configPath := w.configPath i
  let there ← found configPath
  let w := { w with stat := fun p => if p = configPath then there else w.stat p }
  let w ← if there.isOk then withScript w configPath else pure w
  match w.session i, i.request with
  | .ok s, .run file | .ok s, .check file =>
    let path := s.scriptPath file
    if Path.same path "-" then
      let input ← IO.getStdin
      pure { w with stdin := .ofEvents (← readEvents (input.read chunkSize) []) }
    else withScript w path
  | _, _ => pure w

def answer (o : Cli.Outcome) : IO UInt32 := do
  (← IO.getStderr).putStr o.stderr
  (← IO.getStdout).putStr o.stdout
  pure (UInt32.ofNat o.exit)

def notice (n : Cli.Notice) : IO UInt32 :=
  answer (if n = .usage then ⟨n.exit, "", n.text⟩ else ⟨n.exit, n.text, ""⟩)

def run (args : List String) : IO UInt32 := do
  let started ← IO.monoMsNow
  let w : Cli.World := {
    env := ← environment
    stat := fun _ => .error .noSuchFile
    stdin := .ofEvents []
    home := ← home
    time := toString started
    elapsed := 0 }
  match Cli.Invocation.parse args with
  | .error n => notice n
  | .ok i =>
    let w ← prepare w i
    let now ← IO.monoMsNow
    answer (Cli.perform { w with elapsed := now - started } i)

end PageScript.Entry

def main (args : List String) : IO UInt32 := PageScript.Entry.run args
