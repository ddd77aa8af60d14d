import PageScript.Path
import PageScript.Source

/-!
# File trees

A tree of plain files and directories, with a directory in which relative paths start. A path is
followed part by part; every part but the last has to be a directory. What was done before
something failed stays done.
-/
namespace PageScript
open Text (Bytes)

inductive Node where
  | file (content : Bytes)
  | directory (entries : List (String × Node))

structure FileTree where
  root : Node
  base : List String

namespace Node

def put (name : String) (node : Node) : List (String × Node) → List (String × Node)
  | [] => [(name, node)]
  | (n, old) :: rest => if n = name then (name, node) :: rest else (n, old) :: put name node rest

def lookup : List String → Node → Except IoError Node
  | [], node => .ok node
  | _ :: _, .file _ => .error .notADirectory
  | name :: path, .directory entries =>
    match entries.lookup name with
    | none => .error .noSuchFile
    | some node => lookup path node

def isDirectory : Node → Bool
  | file _ => false
  | directory _ => true

/-- What a node gives to be read once it is open. A directory opens, but cannot be read. -/
def source : Node → Source
  | file content => .ofBytes content
  | directory _ => .ofEvents [.failed .isADirectory]

/-- Puts a node at the end of a path of directories. -/
def insert (node : Node) : List String → Node → Node
  | [], _ => node
  | _ :: _, .file content => .file content
  | name :: path, .directory entries =>
    let child := insert node path ((entries.lookup name).getD (.directory []))
    .directory (put name child entries)

theorem lookup_put_same (name : String) (node : Node) (entries : List (String × Node)) :
    (put name node entries).lookup name = some node := by
  induction entries with
  | nil => simp [put]
  | cons e rest ih =>
    obtain ⟨n, old⟩ := e
    rw [put]
    split
    · simp
    · rename_i hne
      simp [List.lookup_cons, beq_eq_false_iff_ne.2 (Ne.symm hne), ih]

theorem lookup_put_other {name other : String} (h : other ≠ name) (node : Node)
    (entries : List (String × Node)) :
    (put name node entries).lookup other = entries.lookup other := by
  induction entries with
  | nil => simp [put, List.lookup_cons, beq_eq_false_iff_ne.2 h]
  | cons e rest ih =>
    obtain ⟨n, old⟩ := e
    rw [put]
    split
    · rename_i heq
      simp [List.lookup_cons, heq, beq_eq_false_iff_ne.2 h]
    · rw [List.lookup_cons, List.lookup_cons, ih]

end Node

namespace FileTree

/-- Follows steps from a directory, given by the names that lead to it. -/
def follow (root : Node) : List String → List String → Except IoError (List String)
  | here, [] => .ok here
  | here, step :: rest =>
    match root.lookup here with
    | .error e => .error e
    | .ok (.file _) => .error .notADirectory
    | .ok (.directory _) =>
      if step = "." then follow root here rest
      else if step = ".." then follow root here.dropLast rest
      else if Path.isLongName step then .error .nameTooLong
      else follow root (here ++ [step]) rest

def start (tree : FileTree) (path : String) : List String :=
  if Path.isAbsolute path then [] else tree.base

/-- What is wrong with a path whatever the tree holds. -/
def admissible (path : String) : Except IoError Unit :=
  if Path.holdsNul path then .error .nulInPath
  else if path = "" then .error .noSuchFile
  else if Path.isLong path then .error .nameTooLong
  else .ok ()

def stat (tree : FileTree) (path : String) : Except IoError Node := do
  admissible path
  tree.root.lookup (← follow tree.root (tree.start path) (Path.steps path))

def isDirectory (tree : FileTree) (path : String) : Bool :=
  match tree.stat path with
  | .ok node => node.isDirectory
  | .error _ => false

/-- The directory that holds the last name of a path, and that name unless it is one of dots. -/
def place (tree : FileTree) (path : String) : Except IoError (List String × Option String) := do
  admissible path
  let names := Path.names path
  let here ← follow tree.root (tree.start path) names.dropLast
  match ← tree.root.lookup here with
  | .file _ => .error .notADirectory
  | .directory _ => .ok (here, names.getLast?.filter fun last => last ≠ "." ∧ last ≠ "..")

def make (tree : FileTree) (path : String) : Except IoError FileTree := do
  match ← tree.place path with
  | (_, none) => .error .fileExists
  | (here, some name) =>
    if Path.isLongName name then .error .nameTooLong
    else
      match tree.root.lookup (here ++ [name]) with
      | .ok _ => .error .fileExists
      | .error _ => .ok { tree with root := Node.insert (.directory []) (here ++ [name]) tree.root }

def write (tree : FileTree) (path : String) (content : Bytes) : Except IoError FileTree := do
  match ← tree.place path with
  | (_, none) => .error .isADirectory
  | (here, some name) =>
    if Path.wantsDirectory path then .error .isADirectory
    else if Path.isLongName name then .error .nameTooLong
    else
      match tree.root.lookup (here ++ [name]) with
      | .ok (.directory _) => .error .isADirectory
      | _ => .ok { tree with root := Node.insert (.file content) (here ++ [name]) tree.root }

/-- Makes a directory that may be there already. -/
def ensure (tree : FileTree) (path : String) : Except IoError FileTree :=
  match tree.make path with
  | .ok tree => .ok tree
  | .error e => if tree.isDirectory path then .ok tree else .error e

/-- Makes a path up to the first of these ends a directory. Each of the others is that of the place
before, and is made only if that place was missing. -/
def ensureAll (tree : FileTree) (path : String) : List Nat → Except IoError Unit × FileTree
  | [] => (.ok (), tree)
  | last :: before =>
    match tree.ensure (Path.upTo path last) with
    | .ok tree => (.ok (), tree)
    | .error e =>
      if e = .noSuchFile then
        match ensureAll tree path before with
        | (.error e, tree) => (.error e, tree)
        | (.ok (), tree) =>
          match tree.ensure (Path.upTo path last) with
          | .ok tree => (.ok (), tree)
          | .error e => (.error e, tree)
      else (.error e, tree)

def makeAll (tree : FileTree) (path : String) : Except IoError Unit × FileTree :=
  tree.ensureAll path (Path.ends path).reverse

/-- Writes a file, after the directories on its way were made. -/
def save (tree : FileTree) (path : String) (content : Bytes) : Except IoError Unit × FileTree :=
  match tree.ensureAll path (Path.ends path).dropLast.reverse with
  | (.error e, tree) => (.error e, tree)
  | (.ok (), tree) =>
    match tree.write path content with
    | .error e => (.error e, tree)
    | .ok tree => (.ok (), tree)

end FileTree

end PageScript
