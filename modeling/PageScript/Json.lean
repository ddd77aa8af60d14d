import PageScript.Text.Quoted

/-!
# JSON values

Members keep the order in which they are given. A value is printed on one line, or over several
with two spaces for each level; empty lists and objects stay on one line.
-/
namespace PageScript

/-- A decimal is written with a fraction of the given number of digits. -/
inductive Json where
  | null
  | boolean (b : Bool)
  | number (n : Int)
  | decimal (digits : Int) (places : Nat)
  | text (s : String)
  | list (items : List Json)
  | object (members : List (String × Json))
  deriving Inhabited, Repr

namespace Json

def ofOption {α : Type} (f : α → Json) : Option α → Json
  | none => null
  | some a => f a

def texts (items : List String) : Json := list (items.map text)

def member? (members : List (String × Json)) (name : String) : Option Json := members.lookup name

def escape (c : Char) : String :=
  match c with
  | '"' => "\\\""
  | '\\' => "\\\\"
  | '\x08' => "\\b"
  | '\x0c' => "\\f"
  | '\n' => "\\n"
  | '\r' => "\\r"
  | '\t' => "\\t"
  | c =>
    if c.toNat < 0x10 then "\\u000" ++ Text.hexDigits c.toNat
    else if c.toNat < 0x20 then "\\u00" ++ Text.hexDigits c.toNat
    else String.singleton c

def quote (s : String) : String := "\"" ++ String.join (s.toList.map escape) ++ "\""

def decimalText (digits : Int) (places : Nat) : String :=
  let ds := (toString digits.natAbs).toList
  let padded := List.replicate (places + 1 - ds.length) '0' ++ ds
  let (whole, part) := padded.splitAt (padded.length - places)
  (if digits < 0 then "-" else "") ++ String.ofList whole ++ "." ++ String.ofList part

mutual

def compact : Json → String
  | null => "null"
  | boolean b => if b then "true" else "false"
  | number n => toString n
  | decimal digits places => decimalText digits places
  | text s => quote s
  | list items => "[" ++ String.intercalate "," (compactItems items) ++ "]"
  | object members => "\x7b" ++ String.intercalate "," (compactMembers members) ++ "\x7d"

def compactItems : List Json → List String
  | [] => []
  | v :: rest => compact v :: compactItems rest

def compactMembers : List (String × Json) → List String
  | [] => []
  | (k, v) :: rest => (quote k ++ ":" ++ compact v) :: compactMembers rest

end

/-- Each part on a line of its own, one level deeper than `depth`. -/
def block (left right : String) (depth : Nat) (parts : List String) : String :=
  if parts.isEmpty then left ++ right
  else
    let indent := "\n" ++ "".pushn ' ' (2 * depth)
    left ++ String.join (parts.mapIdx fun i part =>
      (if i = 0 then "" else ",") ++ indent ++ "  " ++ part) ++ indent ++ right

mutual

def prettyAt (depth : Nat) : Json → String
  | null => "null"
  | boolean b => if b then "true" else "false"
  | number n => toString n
  | decimal digits places => decimalText digits places
  | text s => quote s
  | list items => block "[" "]" depth (prettyItems (depth + 1) items)
  | object members => block "\x7b" "\x7d" depth (prettyMembers (depth + 1) members)

def prettyItems (depth : Nat) : List Json → List String
  | [] => []
  | v :: rest => prettyAt depth v :: prettyItems depth rest

def prettyMembers (depth : Nat) : List (String × Json) → List String
  | [] => []
  | (k, v) :: rest => (quote k ++ ": " ++ prettyAt depth v) :: prettyMembers depth rest

end

def pretty (v : Json) : String := prettyAt 0 v

end Json

end PageScript
