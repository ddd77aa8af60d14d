import PageScript.Text.Utf8

/-!
# Tokens

A script is cut into words and command boundaries. A backslash takes the byte after it as it is;
spaces and tabs end a word; a newline ends the word and the command.
-/
namespace PageScript
open Text (Bytes)

/-- A word has the line of its first byte, a boundary that of the newline it stands for. -/
inductive Token where
  | word (bytes : Bytes) (line : Nat)
  | boundary (line : Nat)
  deriving DecidableEq, Repr

/-- The word being read, last byte first, and the line being read. -/
structure Lexer where
  line : Nat
  word : Bytes
  wordLine : Nat
  escaped : Bool
  deriving DecidableEq, Repr

namespace Token

def line : Token → Nat
  | word _ line => line
  | boundary line => line

def isBoundary : Token → Bool
  | word _ _ => false
  | boundary _ => true

end Token

namespace Lexer

def backslash : UInt8 := 0x5C
def space : UInt8 := 0x20
def tab : UInt8 := 0x09
def newline : UInt8 := 0x0A

def initial : Lexer := ⟨1, [], 1, false⟩

def push (b : UInt8) (lx : Lexer) : Lexer :=
  { lx with word := b :: lx.word, wordLine := if lx.word.isEmpty then lx.line else lx.wordLine }

def openWord (lx : Lexer) : List Token :=
  if lx.word.isEmpty then [] else [.word lx.word.reverse lx.wordLine]

def drop (lx : Lexer) : Lexer := { lx with word := [] }

def advance (lx : Lexer) : Lexer := { lx with line := lx.line + 1 }

/-- Takes one byte, and gives the tokens that it completes. -/
def feed (b : UInt8) (lx : Lexer) : Lexer × List Token :=
  if lx.escaped then
    let taken := { lx.push b with escaped := false }
    (if b = newline then taken.advance else taken, [])
  else if b = backslash then ({ lx with escaped := true }, [])
  else if b = space ∨ b = tab then (lx.drop, lx.openWord)
  else if b = newline then (lx.drop.advance, lx.openWord ++ [.boundary lx.line])
  else (lx.push b, [])

def close (lx : Lexer) : List Token := lx.openWord ++ [.boundary lx.line]

theorem length_openWord_le (lx : Lexer) : lx.openWord.length ≤ 1 := by
  unfold openWord
  split <;> simp

theorem length_feed_le (b : UInt8) (lx : Lexer) : (lx.feed b).2.length ≤ 2 := by
  have := lx.length_openWord_le
  unfold feed
  repeat' split
  all_goals simp
  all_goals omega

theorem length_close_le (lx : Lexer) : lx.close.length ≤ 2 := by
  have := lx.length_openWord_le
  simp [close]
  omega

end Lexer

end PageScript
