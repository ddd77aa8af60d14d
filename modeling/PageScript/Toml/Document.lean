import PageScript.Toml.Lexical
import PageScript.Toml.Scalar

namespace PageScript.Toml

/-- The items of a list, with a comma allowed after the last. -/
def listItems (item : Reader Item) : Nat → Reader (List Item)
  | 0, _ => none
  | n + 1, cs =>
    match skipGap false cs with
    | ']' :: rest => some ([], rest)
    | cs => do
      let (v, rest) ← item cs
      match skipGap false rest with
      | ',' :: rest => do
        let (vs, rest) ← listItems item n rest
        some (v :: vs, rest)
      | ']' :: rest => some ([v], rest)
      | _ => none

/-- The pairs of an inline table, of which there is at least one, on one line. -/
def inlinePairs (item : Reader Item) : Nat → Reader (List (List String × Item))
  | 0, _ => none
  | n + 1, cs => do
    let (path, rest) ← key? cs
    match rest with
    | '=' :: rest => do
      let (v, rest) ← item (skipBlanks rest)
      match skipBlanks rest with
      | ',' :: rest => do
        let (pairs, rest) ← inlinePairs item n rest
        some ((path, v) :: pairs, rest)
      | '\x7d' :: rest => some ([(path, v)], rest)
      | _ => none
    | _ => none

def assignPath (origin : Origin) (path : List String) (item : Item) (entries : Entries) :
    Option Entries := do
  let key ← path.getLast?
  entries.assign origin path.dropLast key item

def inlineTable? (pairs : List (List String × Item)) : Option Item := do
  let entries ← pairs.foldlM
    (fun entries (path, item) => assignPath .inline path item entries) ([] : Entries)
  some (.table .inline entries)

/-- A value in which lists and inline tables go at most so deep. -/
def value : Nat → Reader Item
  | depth, cs =>
    match depth, cs with
    | 0, '[' :: _ => none
    | 0, '\x7b' :: _ => none
    | depth + 1, '[' :: rest => do
      let (items, rest) ← listItems (value depth) (rest.length + 1) rest
      some (.list items, rest)
    | depth + 1, '\x7b' :: rest =>
      match skipBlanks rest with
      | '\x7d' :: rest => some (.table .inline [], rest)
      | _ => do
        let (pairs, rest) ← inlinePairs (value depth) (rest.length + 1) rest
        some (← inlineTable? pairs, rest)
    | _, cs =>
      match cs with
      | '"' :: _ | '\'' :: _ => (text? cs).map fun (s, rest) => (.text (String.ofList s), rest)
      | _ => bareValue? cs

inductive Statement where
  | assign (path : List String) (item : Item)
  | openTable (path : List String)
  | openElement (path : List String)

def statement? (cs : List Char) : Option (Statement × List Char) :=
  match cs with
  | '[' :: '[' :: rest => do
    let (path, rest) ← key? rest
    match rest with
    | ']' :: ']' :: rest => some (.openElement path, ← lineEnd? rest)
    | _ => none
  | '[' :: rest => do
    let (path, rest) ← key? rest
    match rest with
    | ']' :: rest => some (.openTable path, ← lineEnd? rest)
    | _ => none
  | _ => do
    let (path, rest) ← key? cs
    match rest with
    | '=' :: rest => do
      let (item, rest) ← value (depthLimit - 1) (skipBlanks rest)
      some (.assign path item, ← lineEnd? rest)
    | _ => none

/-- All statements. Blank lines and comments stand for nothing. -/
def statements? : Nat → List Char → Option (List Statement)
  | 0, _ => none
  | n + 1, cs =>
    match skipGap false cs with
    | [] => some []
    | cs => do
      let (statement, rest) ← statement? cs
      let more ← statements? n rest
      some (statement :: more)

/-- Builds on a table whose part at the path `here` is open. -/
def build : List String → List Statement → Entries → Option Entries
  | _, [], entries => some entries
  | here, .assign path item :: rest, entries => do
    let entries ← entries.descend .implied
      (fun origin found => assignPath origin path item found) here .header
    build here rest entries
  | _, .openTable path :: rest, entries => do
    let key ← path.getLast?
    let entries ← entries.descend .implied (fun _ found => found.openTable key)
      path.dropLast .header
    build path rest entries
  | _, .openElement path :: rest, entries => do
    let key ← path.getLast?
    let entries ← entries.descend .implied (fun _ found => found.openElement key)
      path.dropLast .header
    build path rest entries

/-- A mark at the start that tells the encoding does not count. -/
def dropMark : List Char → List Char
  | '\uFEFF' :: r => r
  | cs => cs

def read (text : String) : Option Entries := do
  let cs := dropMark text.toList
  build [] (← statements? (cs.length + 1) cs) []

end PageScript.Toml
