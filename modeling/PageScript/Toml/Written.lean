/-!
# Written TOML texts

A text is written in the first style that holds it as it is: between double quotes, between single
quotes, then over several lines in the same order. A text that fits none is escaped.
-/
namespace PageScript.Toml

inductive Style where
  | basic
  | literal
  | multilineBasic
  | multilineLiteral
  deriving DecidableEq, Repr

/-- A control character other than the tab and the newline. -/
def needsEscape (c : Char) : Bool :=
  c ≠ '\t' && c ≠ '\n' && (c.toNat < 0x20 || c.toNat = 0x7F)

def longestRun (c : Char) : Nat → List Char → Nat
  | run, [] => run
  | run, d :: r => if d = c then longestRun c (run + 1) r else max run (longestRun c 0 r)

def style (cs : List Char) : Style :=
  let escapes := cs.any needsEscape
  let oneLine := !cs.contains '\n'
  let backslash := cs.contains '\\'
  if !escapes && oneLine && !backslash && !cs.contains '"' then .basic
  else if !escapes && oneLine && !cs.contains '\'' then .literal
  else if !escapes && !backslash && longestRun '"' 0 cs < 3 then .multilineBasic
  else if !escapes && longestRun '\'' 0 cs < 3 then .multilineLiteral
  else if oneLine then .basic
  else .multilineBasic

def hexDigit (n : Nat) : Char := Char.ofNat (if n < 10 then n + '0'.toNat else n - 10 + 'A'.toNat)

/-- How a character that is not a quote is written between double quotes. -/
def escapeChar (multiline : Bool) (c : Char) : List Char :=
  match c with
  | '\x08' => ['\\', 'b']
  | '\t' => ['\\', 't']
  | '\n' => if multiline then ['\n'] else ['\\', 'n']
  | '\x0c' => ['\\', 'f']
  | '\r' => ['\\', 'r']
  | '\\' => ['\\', '\\']
  | c =>
    if c.toNat < 0x20 ∨ c.toNat = 0x7F then
      ['\\', 'u', '0', '0', hexDigit (c.toNat / 16), hexDigit (c.toNat % 16)]
    else [c]

/-- The text between double quotes. Over several lines a quote is escaped only as the third in a
row; `run` counts those since the last escape. -/
def escapeBasic (multiline : Bool) : Nat → List Char → List Char
  | _, [] => []
  | run, c :: r =>
    if c = '"' then
      if multiline ∧ run < 2 then '"' :: escapeBasic multiline (run + 1) r
      else '\\' :: '"' :: escapeBasic multiline 0 r
    else escapeChar multiline c ++ escapeBasic multiline 0 r

/-- A text over several lines starts on a line of its own. -/
def opening (quotes cs : List Char) : List Char :=
  if cs.contains '\n' then quotes ++ ['\n'] else quotes

def writeIn (style : Style) (cs : List Char) : List Char :=
  match style with
  | .basic => '"' :: (escapeBasic false 0 cs ++ ['"'])
  | .literal => '\'' :: (cs ++ ['\''])
  | .multilineBasic =>
    opening ['"', '"', '"'] cs ++ escapeBasic true 0 cs ++ ['"', '"', '"']
  | .multilineLiteral => opening ['\'', '\'', '\''] cs ++ cs ++ ['\'', '\'', '\'']

def writeText (s : String) : String := String.ofList (writeIn (style s.toList) s.toList)

end PageScript.Toml
