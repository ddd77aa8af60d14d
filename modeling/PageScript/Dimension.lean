/-!
# Dimensions

A dimension is a positive number below `2 ^ 32`, written in decimal with an optional plus sign. It
is read from the left: each character is tested before the value so far is, and the first fault
decides.
-/
namespace PageScript.Dimension

inductive Fault where
  | empty
  | invalidDigit
  | tooLarge
  | zero
  deriving DecidableEq, Repr

def Fault.reason : Fault → String
  | empty => "cannot parse integer from empty string"
  | invalidDigit => "invalid digit found in string"
  | tooLarge => "number too large to fit in target type"
  | zero => "must be positive"

def limit : Nat := UInt32.size - 1

def digit? (c : Char) : Option Nat :=
  if '0' ≤ c ∧ c ≤ '9' then some (c.toNat - '0'.toNat) else none

def accumulate : Nat → List Char → Except Fault Nat
  | n, [] => .ok n
  | n, c :: cs =>
    match digit? c with
    | none => .error .invalidDigit
    | some d => if limit < n * 10 + d then .error .tooLarge else accumulate (n * 10 + d) cs

/-- A number with an optional sign; a sign alone has no digit. -/
def unsigned : List Char → Except Fault Nat
  | [] => .error .empty
  | ['+'] => .error .invalidDigit
  | '+' :: cs => accumulate 0 cs
  | cs => accumulate 0 cs

def parse (s : String) : Except Fault UInt32 := do
  let n ← unsigned s.toList
  if n = 0 then .error .zero else .ok (UInt32.ofNat n)

end PageScript.Dimension
