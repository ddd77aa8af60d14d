import PageScript.Pattern.Escape
import PageScript.Pattern.Depth

/-!
# Classes of a pattern

A class stands between brackets: characters, ranges, kinds and further classes, in operands between
`&&`, `--` and `~~`. Where bytes are matched it holds characters of one byte only, and cannot be
negated; where characters are matched in either case it holds none.
-/
namespace PageScript.Pattern

/-- A class that is open: the operand being read, and how deep what stands before it is. -/
structure Bracket where
  operand : Pieces
  before : Option Nat
  deriving DecidableEq, Repr

namespace Bracket

def initial : Bracket := ⟨.empty, none⟩

/-- Each operator is one deeper than the operands on its sides. -/
def content (b : Bracket) : Nat :=
  match b.before with
  | none => b.operand.depth
  | some depth => max depth b.operand.depth + 1

def depth (b : Bracket) : Nat := b.content + 1

def add (b : Bracket) (depth : Nat) : Bracket := { b with operand := b.operand.add depth }

def operate (b : Bracket) : Bracket := ⟨.empty, some b.content⟩

end Bracket

/-- How far a class is: at its beginning, after dashes only, or later. -/
inductive Stage where
  | first
  | dashes
  | inside
  deriving DecidableEq, Repr

def classNames : List String :=
  ["alnum", "alpha", "ascii", "blank", "cntrl", "digit", "graph", "lower", "print", "punct",
    "space", "upper", "word", "xdigit"]

/-- Whether a class with a name, such as `[:alpha:]`, is negated, and what follows it. -/
def namedClass? : List Char → Option (Bool × List Char)
  | ':' :: r =>
    let name := (if r.head? = some '^' then r.drop 1 else r).takeWhile (· ≠ ':')
    let negated := r.head? = some '^'
    match r.drop ((if negated then 1 else 0) + name.length) with
    | ':' :: ']' :: rest =>
      if classNames.contains (String.ofList name) then some (negated, rest) else none
    | _ => none
  | _ => none

def admitsMember (mode : Mode) (c : Char) : Bool :=
  if mode.unicode then !mode.eitherCase else c.toNat < 0x80

def admitsNamed (mode : Mode) (negated : Bool) : Bool :=
  if mode.unicode then !mode.eitherCase else !negated

def admitsAtom (mode : Mode) : Atom → Bool
  | .literal c => admitsMember mode c
  | .kind => true
  | .anchor | .wordBoundary => false

/-- The next character that counts, in a pattern that may hold one `#` before it. -/
def peek (mode : Mode) (cs : List Char) : Option Char :=
  if mode.spaced then
    match cs.dropWhile Text.isBlank with
    | '#' :: r => (r.dropWhile Text.isBlank).head?
    | r => r.head?
  else cs.head?

def memberAtom? (mode : Mode) : List Char → Option (Atom × List Char)
  | [] => none
  | '\\' :: r => escape? mode r
  | c :: r => some (.literal c, r)

/-- What follows a range whose first character was read. -/
def rangeEnd? (mode : Mode) (low : Atom) (cs : List Char) : Option (List Char) := do
  let (high, rest) ← memberAtom? mode (skip mode cs)
  match low, high with
  | .literal low, .literal high => if low ≤ high && admitsMember mode high then some rest else none
  | _, _ => none

/-- What follows a character, a kind or a range. A dash before a bracket or a dash is no range. -/
def member? (mode : Mode) (cs : List Char) : Option (List Char) := do
  let (low, rest) ← memberAtom? mode cs
  if !admitsAtom mode low then none
  else
    match skip mode rest with
    | '-' :: r =>
      if [some ']', some '-'].contains (peek mode r) then some ('-' :: r) else rangeEnd? mode low r
    | r => some r

/-- What follows the bracket of a class and the sign that negates it. -/
def opened? (mode : Mode) (cs : List Char) : Option (List Char) :=
  match skip mode cs with
  | '^' :: r => if mode.unicode then some r else none
  | r => some r

/-- Reads on in a class within others, and gives the depth of the outermost and what follows it. A
dash or a closing bracket at the beginning of a class is a member of it. -/
def classFrom? (mode : Mode) : Nat → Stage → Bracket → List Bracket → List Char →
    Option (Nat × List Char)
  | 0, _, _, _, _ => none
  | n + 1, stage, b, around, cs =>
    match stage, skip mode cs with
    | _, [] => none
    | .first, '-' :: r | .dashes, '-' :: r =>
      if admitsMember mode '-' then classFrom? mode n .dashes (b.add 0) around r else none
    | .first, ']' :: r =>
      if admitsMember mode ']' then classFrom? mode n .inside (b.add 0) around r else none
    | _, ']' :: r =>
      match around with
      | [] => some (b.depth, r)
      | outer :: around => classFrom? mode n .inside (outer.add b.depth) around r
    | _, '[' :: r =>
      match namedClass? r with
      | some (negated, r) =>
        if admitsNamed mode negated then classFrom? mode n .inside (b.add 0) around r else none
      | none => do classFrom? mode n .first .initial (b :: around) (← opened? mode r)
    | _, '&' :: '&' :: r | _, '-' :: '-' :: r | _, '~' :: '~' :: r =>
      classFrom? mode n .inside b.operate around r
    | _, cs => do classFrom? mode n .inside (b.add 0) around (← member? mode cs)

def class? (mode : Mode) (cs : List Char) : Option (Nat × List Char) := do
  classFrom? mode (cs.length + 1) .first .initial [] (← opened? mode cs)

end PageScript.Pattern
