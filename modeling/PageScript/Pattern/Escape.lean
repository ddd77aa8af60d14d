import PageScript.Pattern.Mode
import PageScript.Text.Hex

/-!
# Escapes of a pattern

What a backslash makes of the characters after it. The digits, blanks and word characters of
Unicode are not known here, so such a kind can be named only where bytes are matched; its
complement would match half of a character there, and cannot be named at all.
-/
namespace PageScript.Pattern

inductive Atom where
  | literal (c : Char)
  | kind
  | anchor
  | wordBoundary
  deriving DecidableEq, Repr

def control? : Char → Option Char
  | 'a' => some '\x07'
  | 'f' => some '\x0c'
  | 'n' => some '\n'
  | 'r' => some '\r'
  | 't' => some '\t'
  | 'v' => some '\x0b'
  | _ => none

def width? : Char → Option Nat
  | 'x' => some 2
  | 'u' => some 4
  | 'U' => some 8
  | _ => none

def scalar? (mode : Mode) : Nat → Nat → List Char → Option (Char × List Char)
  | 0, value, cs => if value.isValidChar then some (Char.ofNat value, cs) else none
  | n + 1, value, cs =>
    match skip mode cs with
    | [] => none
    | c :: r => do scalar? mode n (value * 16 + (← Text.hexDigit? c)) r

/-- What one character after a backslash means. Any sign may stand for itself. -/
def atom? (mode : Mode) (c : Char) : Option Atom :=
  if ['d', 's', 'w'].contains c then if mode.unicode then none else some .kind
  else if ['A', 'z'].contains c then some .anchor
  else if ['b', 'B', '<', '>'].contains c then some .wordBoundary
  else
    match control? c with
    | some control => some (.literal control)
    | none => if c.toNat < 0x80 ∧ !c.isAlphanum then some (.literal c) else none

/-- What follows a backslash. Two digits mean a byte where bytes are matched, and a byte of its own
has to be a character. -/
def escape? (mode : Mode) : List Char → Option (Atom × List Char)
  | [] => none
  | c :: r =>
    match width? c with
    | none => (atom? mode c).map fun a => (a, r)
    | some width => do
      let (value, r) ← scalar? mode width 0 r
      if !mode.unicode && c = 'x' && 0x80 ≤ value.toNat then none else some (.literal value, r)

def admitsLiteral (mode : Mode) : Bool := !(mode.unicode && mode.eitherCase)

end PageScript.Pattern
