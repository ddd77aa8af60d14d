import PageScript.IoError
import PageScript.Text.Utf8

/-!
# Sources

A source is read in events: a chunk of data or a failure. Bytes are pulled one at a time, so chunk
sizes are never seen. A read that was interrupted is repeated, and an empty chunk is the end of
input, as is having no event left.
-/
namespace PageScript
open Text (Bytes)

inductive ReadEvent where
  | data (bytes : Bytes)
  | failed (error : IoError)
  deriving DecidableEq, Repr

/-- The bytes of the chunk being read, and the events to come. -/
structure Source where
  chunk : Bytes
  events : List ReadEvent
  deriving DecidableEq, Repr

inductive Pull where
  | byte (b : UInt8) (rest : Source)
  | failed (error : IoError)
  | ended
  deriving DecidableEq, Repr

namespace ReadEvent

def size : ReadEvent → Nat
  | data bs => bs.length + 1
  | failed _ => 1

end ReadEvent

namespace Source

def ofEvents (events : List ReadEvent) : Source := ⟨[], events⟩

def ofBytes (bs : Bytes) : Source := ofEvents [.data bs]

/-- Opens the next chunk that holds data. -/
def refill : List ReadEvent → Pull
  | [] => .ended
  | .data [] :: _ => .ended
  | .data (b :: bs) :: events => .byte b ⟨bs, events⟩
  | .failed e :: events => if e.kind = .interrupted then refill events else .failed e

def pull (s : Source) : Pull :=
  match s.chunk with
  | b :: bs => .byte b ⟨bs, s.events⟩
  | [] => refill s.events

/-- What all these events give, read to the end. -/
def contentsOf : List ReadEvent → Except IoError Bytes
  | [] => .ok []
  | .data [] :: _ => .ok []
  | .data (b :: bs) :: events => (contentsOf events).map (b :: bs ++ ·)
  | .failed e :: events => if e.kind = .interrupted then contentsOf events else .error e

/-- What a source gives when it is read to its end at once. -/
def contents (s : Source) : Except IoError Bytes := (contentsOf s.events).map (s.chunk ++ ·)

def pending : List ReadEvent → Nat
  | [] => 0
  | e :: events => e.size + pending events

def size (s : Source) : Nat := s.chunk.length + pending s.events

theorem refill_size_lt {events : List ReadEvent} {b : UInt8} {rest : Source}
    (h : refill events = .byte b rest) : rest.size < pending events := by
  fun_induction refill events with
  | case1 => simp at h
  | case2 => simp at h
  | case3 c bs es =>
    obtain ⟨rfl, rfl⟩ := by simpa using h
    simp only [size, pending, ReadEvent.size, List.length_cons]
    omega
  | case4 e es _ ih =>
    have := ih h
    simp only [pending, ReadEvent.size]
    omega
  | case5 => simp at h

theorem pull_size_lt {s rest : Source} {b : UInt8} (h : s.pull = .byte b rest) :
    rest.size < s.size := by
  rcases s with ⟨chunk, events⟩
  cases chunk with
  | nil =>
    have := refill_size_lt h
    simpa [size] using this
  | cons c bs =>
    obtain ⟨rfl, rfl⟩ := by simpa [pull] using h
    simp [size]

end Source

end PageScript
