import PageScript.Toml.Item

/-!
# TOML numbers and moments

A bare value is a run of letters, digits and `+ - _ . :`. The run is a boolean, an integer of 64
bits, a float, a date, a time, or a date and a time with or without an offset.
-/
namespace PageScript.Toml

def isBareValue (c : Char) : Bool :=
  c.isAlphanum || c = '+' || c = '-' || c = '_' || c = '.' || c = ':'

/-- Digits with single underscores between them, without the underscores. -/
def digitRun? (isDigit : Char → Bool) : List Char → Option (List Char)
  | [] => none
  | [c] => if isDigit c then some [c] else none
  | c :: '_' :: r => if isDigit c then (digitRun? isDigit r).map (c :: ·) else none
  | c :: r => if isDigit c then (digitRun? isDigit r).map (c :: ·) else none

/-- A decimal number without a zero in front. -/
def decimalRun? (cs : List Char) : Option (List Char) := do
  let digits ← digitRun? Char.isDigit cs
  if digits.head? = some '0' ∧ digits.length ≠ 1 ∨ cs.take 2 = ['0', '_'] then none
  else some digits

def digitValue (c : Char) : Nat :=
  if c.isDigit then c.toNat - '0'.toNat
  else if c.isLower then c.toNat - 'a'.toNat + 10
  else c.toNat - 'A'.toNat + 10

def valueOf (base : Nat) (digits : List Char) : Nat :=
  digits.foldl (fun n c => n * base + digitValue c) 0

def isHexDigit (c : Char) : Bool :=
  c.isDigit || ('a' ≤ c && c ≤ 'f') || ('A' ≤ c && c ≤ 'F')

def splitSign : List Char → Bool × List Char
  | '-' :: r => (true, r)
  | '+' :: r => (false, r)
  | r => (false, r)

/-- Integers have 64 bits. -/
def inRange (n : Int) : Option Int :=
  if Int64.minValue.toInt ≤ n ∧ n ≤ Int64.maxValue.toInt then some n else none

def integer? (cs : List Char) : Option Int :=
  match cs with
  | '0' :: 'x' :: r => do inRange (valueOf 16 (← digitRun? isHexDigit r))
  | '0' :: 'o' :: r => do
    inRange (valueOf 8 (← digitRun? (fun c => '0' ≤ c && c ≤ '7') r))
  | '0' :: 'b' :: r => do inRange (valueOf 2 (← digitRun? (fun c => c = '0' || c = '1') r))
  | cs => do
    let (negative, r) := splitSign cs
    let n : Int := valueOf 10 (← decimalRun? r)
    inRange (if negative then -n else n)

/-- Rounds to infinity: from half a unit above the largest double of 53 bits. -/
def isHuge (digits : Nat) (exponent : Int) : Bool :=
  let bound := 1 <<< 1024 - 1 <<< 970
  if digits = 0 then false
  else if 400 < exponent + (toString digits).length then true
  else if exponent + (toString digits).length < 300 then false
  else if 0 ≤ exponent then bound ≤ digits * Nat.pow 10 exponent.toNat
  else bound * Nat.pow 10 (-exponent).toNat ≤ digits

/-- A fraction, an exponent or both; a positive number too large for a double is refused. -/
def isFloat (cs : List Char) : Bool :=
  let (negative, unsigned) := splitSign cs
  if unsigned = "inf".toList ∨ unsigned = "nan".toList then true
  else
    let isPart := fun c : Char => c.isDigit || c = '_'
    let whole := unsigned.takeWhile isPart
    let (fraction, tail) := match unsigned.dropWhile isPart with
      | '.' :: r => (some (r.takeWhile isPart), r.dropWhile isPart)
      | r => (none, r)
    let exponent : Option (Option Int) := match tail with
      | [] => some none
      | c :: r =>
        if c = 'e' ∨ c = 'E' then
          let (below, r) := splitSign r
          (digitRun? Char.isDigit r).map fun ds =>
            some (if below then -(valueOf 10 ds : Int) else valueOf 10 ds)
        else none
    match decimalRun? whole, fraction.mapM (digitRun? Char.isDigit), exponent with
    | some whole, some fraction, some exponent =>
      (fraction.isSome || exponent.isSome) &&
        (negative || !isHuge (valueOf 10 (whole ++ fraction.getD []))
          (exponent.getD 0 - (fraction.getD []).length))
    | _, _, _ => false

/-- A number of exactly so many digits within bounds. -/
def field? (count low high : Nat) (cs : List Char) : Option (Nat × List Char) :=
  let digits := cs.take count
  if digits.length = count ∧ digits.all Char.isDigit ∧ low ≤ valueOf 10 digits ∧
      valueOf 10 digits ≤ high then
    some (valueOf 10 digits, cs.drop count)
  else none

def mark? (c : Char) : List Char → Option (List Char)
  | d :: r => if d = c then some r else none
  | [] => none

def isLeapYear (year : Nat) : Bool := year % 4 = 0 && (year % 100 ≠ 0 || year % 400 = 0)

def daysIn (year month : Nat) : Nat :=
  if month = 2 then if isLeapYear year then 29 else 28
  else if month = 4 ∨ month = 6 ∨ month = 9 ∨ month = 11 then 30
  else 31

def date? (cs : List Char) : Option (List Char) := do
  let (year, r) ← field? 4 0 9999 cs
  let (month, r) ← field? 2 1 12 (← mark? '-' r)
  let (_, r) ← field? 2 1 (daysIn year month) (← mark? '-' r)
  some r

def time? (cs : List Char) : Option (List Char) := do
  let (_, r) ← field? 2 0 23 cs
  let (_, r) ← field? 2 0 59 (← mark? ':' r)
  let (_, r) ← field? 2 0 60 (← mark? ':' r)
  match r with
  | '.' :: c :: r => if c.isDigit then some (r.dropWhile Char.isDigit) else none
  | r => some r

/-- Nothing, `Z`, or a number of hours and minutes. -/
def isOffset (cs : List Char) : Bool :=
  match cs with
  | [] | ['Z'] | ['z'] => true
  | sign :: r =>
    (sign = '+' || sign = '-') &&
      (do
        let (_, r) ← field? 2 0 23 r
        let (_, r) ← field? 2 0 59 (← mark? ':' r)
        some r) = some []

def isTimeWithOffset (cs : List Char) : Bool :=
  match time? cs with
  | some r => isOffset r
  | none => false

def isTime (cs : List Char) : Bool := time? cs = some []

def isDate (cs : List Char) : Bool := date? cs = some []

def isDateTime (cs : List Char) : Bool :=
  match date? cs with
  | some (c :: r) => (c = 'T' || c = 't') && isTimeWithOffset r
  | _ => false

/-- What a bare value means, taken alone. -/
def bare? (cs : List Char) : Option Item :=
  if cs = "true".toList then some (.boolean true)
  else if cs = "false".toList then some (.boolean false)
  else if isDate cs ∨ isTime cs ∨ isDateTime cs then some (.moment (String.ofList cs))
  else
    match integer? cs with
    | some n => some (.integer n)
    | none => if isFloat cs then some (.float (String.ofList cs)) else none

/-- A bare value. A blank may stand between a date and a time. -/
def bareValue? (cs : List Char) : Option (Item × List Char) :=
  let run := cs.takeWhile isBareValue
  let rest := cs.dropWhile isBareValue
  match rest with
  | ' ' :: r =>
    let more := r.takeWhile isBareValue
    if isDate run && isTimeWithOffset more then
      some (.moment (String.ofList (run ++ ' ' :: more)), r.dropWhile isBareValue)
    else (bare? run).map fun item => (item, rest)
  | _ => (bare? run).map fun item => (item, rest)

end PageScript.Toml
