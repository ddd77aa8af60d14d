namespace PageScript.Pattern

structure Pieces where
  count : Nat
  deepest : Nat
  deriving DecidableEq, Repr

namespace Pieces

def empty : Pieces := ⟨0, 0⟩

def add (p : Pieces) (depth : Nat) : Pieces := ⟨p.count + 1, max p.deepest depth⟩

def depth (p : Pieces) : Nat := if p.count ≤ 1 then p.deepest else p.deepest + 1

end Pieces

def depthLimit : Nat := 250

end PageScript.Pattern
