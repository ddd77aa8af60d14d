import PageScript.Event
import PageScript.Pattern.Reading
import PageScript.Text.Alphanumeric
import PageScript.Text.Blank
import PageScript.Text.Number
import PageScript.Text.Parts

/-!
# Log filters

A filter is a comma list of rules. Each gives a level, for everything, for a target, or for the
events that have a field. Of the rules that cover an event the one with the longest target decides;
of equal targets, one for a field before one for none, the field with the greater name, the rule
that comes last. Without any rule only errors are shown; rules on spans, or on values of fields,
show nothing here.
-/
namespace PageScript.Cli

/-- The empty target is that of a rule for everything. A verbosity of zero shows nothing. -/
inductive LogRule where
  | events (target : String) (field : Option String) (verbosity : Nat)
  | spans
  deriving DecidableEq, Repr

inductive LogRule.Fault where
  | malformed
  | level
  | value (fault : Pattern.Fault)
  deriving DecidableEq, Repr

structure LogFilter where
  rules : List LogRule
  deriving DecidableEq, Repr

namespace LogRule

def Fault.message : Fault → String
  | malformed => "invalid filter directive"
  | level =>
    "error parsing level filter: expected one of \"off\", \"error\", \"warn\", \"info\", " ++
      "\"debug\", \"trace\", or a number 0-5"
  | value fault => "invalid field filter: " ++ fault.message

def full : Nat := Level.trace.verbosity

def number? (cs : List Char) : Option Nat :=
  let digits := match cs with
    | '+' :: r => r
    | r => r
  if digits.isEmpty || !digits.all Char.isDigit then none
  else
    let n := digits.foldl (fun n c => n * 10 + (c.toNat - '0'.toNat)) 0
    if n ≤ full then some n else none

def verbosity? (cs : List Char) : Option Nat :=
  match number? cs with
  | some n => some n
  | none =>
    ["off", "error", "warn", "info", "debug", "trace"].findIdx?
      (·.toList = cs.map Char.toLower)

/-- Nothing after the equals sign means everything. -/
def levelAfter (cs : List Char) : Except Fault Nat :=
  if cs.isEmpty then .ok full
  else
    match verbosity? cs with
    | some n => .ok n
    | none => .error .level

def startsTarget (c : Char) : Bool :=
  c = '-' || c = ':' || c = '_' || Text.isAlphanumeric c

def byteSize : List Char → Nat
  | [] => 0
  | c :: cs => c.utf8Size + byteSize cs

def dropBytes : Nat → List Char → List Char
  | _, [] => []
  | n, c :: cs => if n = 0 then c :: cs else dropBytes (n - c.utf8Size) cs

def takeBytes : Nat → List Char → List Char
  | _, [] => []
  | n, c :: cs => if n = 0 then [] else c :: takeBytes (n - c.utf8Size) cs

/-- A rule's text as it stands, and without the blanks at both ends. Places are found in the second
and cut, at so many bytes, from the first. -/
structure Piece where
  written : List Char
  found : List Char

namespace Piece

def ofWritten (written : List Char) : Piece := ⟨written, Text.trimmed written⟩

/-- From the place where so much of the text is left. -/
def onward (p : Piece) (rest : List Char) : List Char :=
  dropBytes (byteSize p.found - byteSize rest) p.written

def between (p : Piece) (rest later : List Char) : List Char :=
  takeBytes (byteSize rest - byteSize later) (p.onward rest)

end Piece

/-- A field's name, and whether a value is asked for. The value is a number or a pattern, up to the
next equals sign. -/
def field (cs : List Char) : Except Fault (String × Bool) :=
  match Text.parts '=' cs with
  | name :: value :: _ =>
    if Text.isNumber value then .ok (String.ofList name, true)
    else
      match Pattern.fault? value with
      | some fault => .error (.value fault)
      | none => .ok (String.ofList name, true)
  | _ => .ok (String.ofList cs, false)

/-- The level after what a rule is for, if the rule goes on. -/
def levelEnd (p : Piece) : List Char → Except Fault Nat
  | [] => .ok full
  | '=' :: level => levelAfter (p.onward level)
  | _ => .error .malformed

/-- A rule whose target was read, up to its opening bracket. -/
def inBrackets (p : Piece) (target : String) (span : List Char) : Except Fault LogRule :=
  let tail := span.dropWhile fun c => c ≠ ']' && c ≠ '\x7b'
  match tail with
  | ']' :: rest => do
    let _ ← levelEnd p rest
    .ok .spans
  | '\x7b' :: rest =>
    match rest.dropWhile (· ≠ '\x7d') with
    | '\x7d' :: after =>
      if (p.between rest ('\x7d' :: after)).isEmpty then .error .malformed
      else do
        let (name, hasValue) ← field (p.between rest ('\x7d' :: after))
        match after with
        | ']' :: level => do
          let n ← levelEnd p level
          if hasValue || !(p.between span tail).isEmpty then .ok .spans
          else .ok (.events target (some name) n)
        | _ => .error .malformed
    | _ => .error .malformed
  | _ => .error .malformed

def parse (cs : List Char) : Except Fault LogRule :=
  let p := Piece.ofWritten cs
  let rest := p.found.dropWhile fun c => c ≠ '=' && c ≠ '['
  let target := String.ofList (p.between p.found rest)
  if !(p.found.head?.any fun c => c = '[' || startsTarget c) then .error .malformed
  else
    match rest with
    | '[' :: span => inBrackets p target span
    | '=' :: level => do
      let n ← levelAfter (p.onward level)
      .ok (.events target none n)
    | _ =>
      match verbosity? cs with
      | some n => .ok (.events "" none n)
      | none => .ok (.events (String.ofList cs) none full)

def covers (target : String) (field : Option String) (e : Event) : Bool :=
  target.toList.isPrefixOf e.target.toList && field.all e.fieldNames.contains

end LogRule

namespace LogFilter

def pieces (s : String) : List (List Char) :=
  (Text.parts ',' s.toList).filter fun p => !p.isEmpty

def parse? (s : String) : Option LogFilter :=
  match (pieces s).mapM LogRule.parse with
  | .ok rules => some ⟨rules⟩
  | .error _ => none

/-- The rules that are well formed, and what is said about the others. -/
def salvage (s : String) : LogFilter × List String :=
  let parsed := (pieces s).map fun p => (p, LogRule.parse p)
  (⟨parsed.filterMap fun (_, r) => r.toOption⟩,
    parsed.filterMap fun (p, r) =>
      match r with
      | .ok _ => none
      | .error fault =>
        some ("ignoring " ++ "\x60" ++ String.ofList p ++ "\x60: " ++ fault.message))

/-- How closely a rule describes the events that it covers, and its verbosity. -/
structure Match where
  length : Nat
  field : Option String
  verbosity : Nat
  deriving DecidableEq, Repr

namespace Match

/-- No field comes before every field. -/
def fieldLe : Option String → Option String → Bool
  | none, _ => true
  | some _, none => false
  | some a, some b => a ≤ b

def le (m other : Match) : Bool :=
  m.length < other.length || m.length = other.length && fieldLe m.field other.field

end Match

def better (e : Event) (best : Option Match) : LogRule → Option Match
  | .spans => best
  | .events target field n =>
    let found : Match := ⟨target.length, field, n⟩
    if LogRule.covers target field e && best.all (·.le found) then some found else best

def verbosity (f : LogFilter) (e : Event) : Nat :=
  if f.rules.isEmpty then Level.error.verbosity
  else (f.rules.foldl (better e) none).elim 0 Match.verbosity

def shows (f : LogFilter) (e : Event) : Bool := e.level.verbosity ≤ f.verbosity e

end LogFilter

end PageScript.Cli
