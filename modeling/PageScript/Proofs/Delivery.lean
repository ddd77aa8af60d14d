import Mathlib
import PageScript.Source

/-!
# Delivery

What a source delivers is a list of bytes and the way it ends. Chunk sizes, interruptions and all
events behind the end are not part of it.
-/
namespace PageScript.Source
open Text (Bytes)

/-- The data before the first event that ends the input. -/
def eventBytes : List ReadEvent → Bytes
  | [] => []
  | .data [] :: _ => []
  | .data (b :: bs) :: events => b :: bs ++ eventBytes events
  | .failed e :: events => if e.kind = .interrupted then eventBytes events else []

/-- The failure that ends the input, if it does not end cleanly. -/
def eventFailure : List ReadEvent → Option IoError
  | [] => none
  | .data [] :: _ => none
  | .data (_ :: _) :: events => eventFailure events
  | .failed e :: events => if e.kind = .interrupted then eventFailure events else some e

def bytes (s : Source) : Bytes := s.chunk ++ eventBytes s.events

def failure (s : Source) : Option IoError := eventFailure s.events

theorem bytes_ofBytes (bs : Bytes) : (ofBytes bs).bytes = bs := by
  cases bs <;> simp [bytes, ofBytes, ofEvents, eventBytes]

theorem failure_ofBytes (bs : Bytes) : (ofBytes bs).failure = none := by
  cases bs <;> rfl

theorem contentsOf_eq (events : List ReadEvent) :
    contentsOf events = (eventFailure events).elim (.ok (eventBytes events)) .error := by
  fun_induction contentsOf events with
  | case1 => rfl
  | case2 => rfl
  | case3 b bs events ih =>
    rw [ih, eventBytes, eventFailure]
    cases eventFailure events <;> rfl
  | case4 e events hi ih => simpa [eventBytes, eventFailure, hi] using ih
  | case5 e events hi => simp [eventFailure, hi]

/-- Read at once, a source gives what it delivers, or its failure alone. -/
theorem contents_eq (s : Source) : s.contents = s.failure.elim (.ok s.bytes) .error := by
  rw [contents, contentsOf_eq, failure, bytes]
  cases eventFailure s.events <;> rfl

theorem refill_byte {events : List ReadEvent} {b : UInt8} {rest : Source}
    (h : refill events = .byte b rest) :
    eventBytes events = b :: rest.bytes ∧ eventFailure events = rest.failure := by
  fun_induction refill events with
  | case1 => simp at h
  | case2 => simp at h
  | case3 c bs es =>
    obtain ⟨rfl, rfl⟩ := by simpa using h
    exact ⟨rfl, rfl⟩
  | case4 e es hi ih => simpa [eventBytes, eventFailure, hi] using ih h
  | case5 => simp at h

theorem refill_failed {events : List ReadEvent} {e : IoError} (h : refill events = .failed e) :
    eventBytes events = [] ∧ eventFailure events = some e := by
  fun_induction refill events with
  | case1 => simp at h
  | case2 => simp at h
  | case3 => simp at h
  | case4 e' es hi ih => simpa [eventBytes, eventFailure, hi] using ih h
  | case5 e' es hi =>
    obtain rfl := by simpa using h
    simp [eventBytes, eventFailure, hi]

theorem refill_ended {events : List ReadEvent} (h : refill events = .ended) :
    eventBytes events = [] ∧ eventFailure events = none := by
  fun_induction refill events with
  | case1 => exact ⟨rfl, rfl⟩
  | case2 => exact ⟨rfl, rfl⟩
  | case3 => simp at h
  | case4 e es hi ih => simpa [eventBytes, eventFailure, hi] using ih h
  | case5 => simp at h

theorem pull_byte {s rest : Source} {b : UInt8} (h : s.pull = .byte b rest) :
    s.bytes = b :: rest.bytes ∧ s.failure = rest.failure := by
  rcases s with ⟨chunk, events⟩
  cases chunk with
  | nil => exact refill_byte h
  | cons c bs =>
    obtain ⟨rfl, rfl⟩ := by simpa [pull] using h
    exact ⟨rfl, rfl⟩

theorem pull_failed {s : Source} {e : IoError} (h : s.pull = .failed e) :
    s.bytes = [] ∧ s.failure = some e := by
  rcases s with ⟨chunk, events⟩
  cases chunk with
  | nil => exact refill_failed h
  | cons c bs => simp [pull] at h

theorem pull_ended {s : Source} (h : s.pull = .ended) : s.bytes = [] ∧ s.failure = none := by
  rcases s with ⟨chunk, events⟩
  cases chunk with
  | nil => exact refill_ended h
  | cons c bs => simp [pull] at h

end PageScript.Source
