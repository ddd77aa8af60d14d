/-!
# UTF-8

Bytes are cut into pieces from the left: a well-formed character, or the longest beginning of one
that cannot be completed (a single byte if no character starts with it). `decode` writes one
replacement character for each piece of the second kind; `decode?` accepts the first kind alone.
-/
namespace PageScript.Text

abbrev Bytes := List UInt8

namespace Utf8

def replacement : Char := '\uFFFD'

/-- What a first byte announces. The range is that of the next byte; later ones are `80` to `BF`. -/
structure Lead where
  following : Nat
  low : UInt8
  high : UInt8
  bits : Nat
  deriving DecidableEq, Repr

/-- The narrower ranges after `E0`, `ED`, `F0` and `F4` exclude overlong forms, surrogates and
values above `10FFFF`. -/
def lead? (b : UInt8) : Option Lead :=
  if b < 0x80 then some ⟨0, 0x80, 0xBF, b.toNat⟩
  else if b < 0xC2 then none
  else if b < 0xE0 then some ⟨1, 0x80, 0xBF, b.toNat - 0xC0⟩
  else if b < 0xF0 then
    some ⟨2, if b = 0xE0 then 0xA0 else 0x80, if b = 0xED then 0x9F else 0xBF, b.toNat - 0xE0⟩
  else if b < 0xF5 then
    some ⟨3, if b = 0xF0 then 0x90 else 0x80, if b = 0xF4 then 0x8F else 0xBF, b.toNat - 0xF0⟩
  else none

/-- Reads the bytes that a lead announced, up to the first that is out of range. -/
def follow : Nat → UInt8 → UInt8 → Nat → Bytes → Option Nat × Bytes
  | 0, _, _, value, bs => (some value, bs)
  | _ + 1, _, _, _, [] => (none, [])
  | n + 1, low, high, value, b :: bs =>
    if low ≤ b ∧ b ≤ high then follow n 0x80 0xBF (value * 64 + (b.toNat - 0x80)) bs
    else (none, b :: bs)

/-- The first piece of `b :: bs`, `none` if it is ill-formed, and the bytes after it. -/
def split (b : UInt8) (bs : Bytes) : Option Char × Bytes :=
  match lead? b with
  | none => (none, bs)
  | some l =>
    let (value, rest) := follow l.following l.low l.high l.bits bs
    (value.map Char.ofNat, rest)

theorem follow_length_le (n : Nat) (low high : UInt8) (value : Nat) (bs : Bytes) :
    (follow n low high value bs).2.length ≤ bs.length := by
  induction n generalizing low high value bs with
  | zero => simp [follow]
  | succ n ih =>
    cases bs with
    | nil => simp [follow]
    | cons b bs =>
      rw [follow]
      split
      · exact Nat.le_succ_of_le (ih ..)
      · simp

theorem split_length_le (b : UInt8) (bs : Bytes) : (split b bs).2.length ≤ bs.length := by
  unfold split
  split
  · simp
  · exact follow_length_le ..

def pieces : Bytes → List (Option Char)
  | [] => []
  | b :: bs => (split b bs).1 :: pieces (split b bs).2
termination_by bs => bs.length
decreasing_by exact Nat.lt_succ_of_le (split_length_le b bs)

def decode (bs : Bytes) : String :=
  String.ofList ((pieces bs).map (·.getD replacement))

def decode? (bs : Bytes) : Option String :=
  ((pieces bs).mapM id).map String.ofList

def encode (s : String) : Bytes :=
  s.toList.flatMap String.utf8EncodeChar

theorem pieces_cons (b : UInt8) (bs : Bytes) :
    pieces (b :: bs) = (split b bs).1 :: pieces (split b bs).2 := by
  rw [pieces]

end Utf8

end PageScript.Text
