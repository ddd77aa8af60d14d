import PageScript.Pattern.Bracket
import PageScript.Text.Alphanumeric

/-!
# Patterns

Whether a text is a regular expression that can be used. It has alternatives between bars, groups
between parentheses, classes between brackets, and repetitions by `?`, `*` and `+`. A repetition by
numbers would need braces, which cannot stand in a filter; an opening one is refused. The edges of
words in Unicode are well formed, but cannot be matched.
-/
namespace PageScript.Pattern

inductive Fault where
  | malformed
  | wordBoundary
  deriving DecidableEq, Repr

def Fault.message : Fault → String
  | malformed => "error building NFA"
  | wordBoundary =>
    "unsupported regex feature for DFAs: cannot build DFAs for regexes with Unicode word " ++
      "boundaries; switch to ASCII word boundaries, or heuristically enable Unicode word " ++
      "boundaries or use a different regex engine"

/-- A group that is open: the mode that holds again after it, its alternatives, the pieces of the
one being read, and how deep the last piece is if it can be repeated. -/
structure Group where
  outside : Mode
  alternatives : Pieces
  pieces : Pieces
  last : Option Nat
  deriving DecidableEq, Repr

namespace Group

def opened (outside : Mode) : Group := ⟨outside, .empty, .empty, none⟩

def depth (g : Group) : Nat := (g.alternatives.add g.pieces.depth).depth

def add (g : Group) (depth : Nat) : Group :=
  { g with pieces := g.pieces.add depth, last := some depth }

/-- Flags are a piece that cannot be repeated. -/
def addFlags (g : Group) : Group := { g with pieces := g.pieces.add 0, last := none }

def alternate (g : Group) : Group :=
  ⟨g.outside, g.alternatives.add g.pieces.depth, .empty, none⟩

/-- The repeated piece is one deeper. -/
def repeat? (g : Group) : Option Group :=
  g.last.map fun depth =>
    { g with
      pieces := ⟨g.pieces.count, max g.pieces.deepest (depth + 1)⟩, last := some (depth + 1) }

end Group

/-- What was read: the mode, the names of groups, whether a word's edge in Unicode was met, the
open group, and those around it. -/
structure Reading where
  mode : Mode
  names : List (List Char)
  edges : Bool
  group : Group
  around : List Group
  deriving DecidableEq, Repr

namespace Reading

def initial : Reading := ⟨.initial, [], false, .opened .initial, []⟩

def piece (s : Reading) (depth : Nat) : Reading := { s with group := s.group.add depth }

def atom? (s : Reading) : Atom → Option Reading
  | .literal _ => if admitsLiteral s.mode then some (s.piece 0) else none
  | .kind | .anchor => some (s.piece 0)
  | .wordBoundary => some { s.piece 0 with edges := s.edges || s.mode.unicode }

def enter (s : Reading) (mode : Mode) : Reading :=
  { s with mode, group := .opened s.mode, around := s.group :: s.around }

def leave? (s : Reading) : Option Reading :=
  match s.around with
  | [] => none
  | outer :: around =>
    some { s with
      mode := s.group.outside, group := outer.add (s.group.depth + 1), around }

def name? (cs : List Char) : Option (List Char × List Char) :=
  let name := cs.takeWhile (· ≠ '>')
  match name, cs.drop name.length with
  | first :: others, '>' :: rest =>
    if (first = '_' || Text.isAlphabetic first) &&
        others.all fun c => ['_', '.', '[', ']'].contains c || Text.isAlphanumeric c then
      some (name, rest)
    else none
  | _, _ => none

def enterNamed? (s : Reading) (cs : List Char) : Option (Reading × List Char) := do
  let (name, rest) ← name? cs
  if s.names.contains name then none
  else some ({ s.enter s.mode with names := name :: s.names }, rest)

/-- What follows an opening parenthesis. Flags hold for a group of their own after a colon, and up
to the end of the group that they stand in otherwise. -/
def open? (s : Reading) : List Char → Option (Reading × List Char)
  | '?' :: 'P' :: '<' :: r | '?' :: '<' :: r => s.enterNamed? r
  | '?' :: r =>
    let flags := r.takeWhile fun c => c ≠ ':' && c ≠ ')'
    if !Mode.isFlags flags then none
    else
      match r.drop flags.length with
      | ':' :: rest => some (s.enter (s.mode.set flags), rest)
      | ')' :: rest =>
        if flags.isEmpty then none
        else some ({ s with mode := s.mode.set flags, group := s.group.addFlags }, rest)
      | _ => none
  | r => some (s.enter s.mode, r)

/-- A repetition may be followed by a question mark of its own. -/
def repeat? (s : Reading) (cs : List Char) : Option (Reading × List Char) := do
  let group ← s.group.repeat?
  some ({ s with group }, if cs.head? = some '?' then cs.drop 1 else cs)

def step? (s : Reading) : List Char → Option (Reading × List Char)
  | [] | '\x7b' :: _ => none
  | '(' :: r => s.open? (skip s.mode r)
  | ')' :: r => s.leave?.map fun s => (s, r)
  | '|' :: r => some ({ s with group := s.group.alternate }, r)
  | '[' :: r => (class? s.mode r).map fun (depth, r) => (s.piece depth, r)
  | '?' :: r | '*' :: r | '+' :: r => s.repeat? r
  | '.' :: r => if s.mode.unicode then some (s.piece 0, r) else none
  | '^' :: r | '$' :: r => some (s.piece 0, r)
  | '\\' :: r => do
    let (a, rest) ← escape? s.mode r
    (s.atom? a).map fun s => (s, rest)
  | c :: r => (s.atom? (.literal c)).map fun s => (s, r)

def run? : Nat → Reading → List Char → Option Reading
  | 0, _, _ => none
  | n + 1, s, cs =>
    match skip s.mode cs with
    | [] => if s.around.isEmpty then some s else none
    | c :: r => do
      let (s, rest) ← s.step? (c :: r)
      run? n s rest

end Reading

def fault? (cs : List Char) : Option Fault :=
  match Reading.run? (cs.length + 1) .initial cs with
  | none => some .malformed
  | some s =>
    if depthLimit < s.group.depth then some .malformed
    else if s.edges then some .wordBoundary
    else none

end PageScript.Pattern
