import PageScript.Text.Extending
import PageScript.Text.Unprintable

/-!
# Quoted text

Text between double quotes, readable on one line. Quotes and backslashes are escaped, the usual
controls have short forms, and every other character without a shape of its own is written by its
code point.
-/
namespace PageScript.Text

/-- Lower case hexadecimal digits without leading zeros. -/
def hexDigits (n : Nat) : String := String.ofList (Nat.toDigits 16 n)

namespace Quoted

def codePoint (c : Char) : String := "\\u\x7b" ++ hexDigits c.toNat ++ "\x7d"

def quoteChar (c : Char) : String :=
  match c with
  | '\x00' => "\\0"
  | '\t' => "\\t"
  | '\n' => "\\n"
  | '\r' => "\\r"
  | '"' => "\\\""
  | '\\' => "\\\\"
  | c => if isExtending c || isUnprintable c then codePoint c else String.singleton c

def quote (s : String) : String :=
  "\"" ++ String.join (s.toList.map quoteChar) ++ "\""

def quoteList (items : List String) : String :=
  "[" ++ String.intercalate ", " (items.map quote) ++ "]"

end Quoted

end PageScript.Text
