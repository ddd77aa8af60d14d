import PageScript.LineError
import PageScript.Source
import PageScript.Token

/-!
# Tokenizer

Pulls bytes from a source only when no completed token is waiting. A failed read ends the stream
with an error at the line being read; the word that was open is lost.
-/
namespace PageScript

structure Tokenizer where
  source : Source
  lexer : Lexer
  pending : List Token
  finished : Bool
  deriving DecidableEq, Repr

namespace Tokenizer

def ofSource (source : Source) : Tokenizer := ⟨source, .initial, [], false⟩

def line (t : Tokenizer) : Nat := t.lexer.line

/-- Bounds the reads to come. -/
def remaining (t : Tokenizer) : Nat := if t.finished then 0 else t.source.size + 1

/-- What one turn of a call does: what the source gave if it was asked for a byte, what the call
answers if this ends it, and the tokenizer that is left. -/
structure Turn where
  pull : Option Pull
  answer : Option (Option (Except LineError Token))
  tokenizer : Tokenizer

def turn (t : Tokenizer) : Turn :=
  match t.pending with
  | token :: rest => ⟨none, some (some (.ok token)), { t with pending := rest }⟩
  | [] =>
    if t.finished then ⟨none, some none, t⟩
    else
      match t.source.pull with
      | .byte b rest => ⟨some (.byte b rest), none,
          { t with source := rest, lexer := (t.lexer.feed b).1, pending := (t.lexer.feed b).2 }⟩
      | .failed e => ⟨some (.failed e), some (some (.error (.io t.line e))),
          { t with lexer := t.lexer.drop, finished := true }⟩
      | .ended => ⟨some .ended, none,
          { t with lexer := t.lexer.drop, pending := t.lexer.close, finished := true }⟩

/-- What a turn can be: it hands out a token that waits, has nothing left, or asks the source. -/
inductive TurnOf (t : Tokenizer) : Turn → Prop where
  | handed {token : Token} {rest : List Token} (hp : t.pending = token :: rest) :
      TurnOf t ⟨none, some (some (.ok token)), { t with pending := rest }⟩
  | spent (hp : t.pending = []) (hf : t.finished = true) : TurnOf t ⟨none, some none, t⟩
  | byte {b : UInt8} {rest : Source} (hp : t.pending = []) (hf : t.finished = false)
      (hpull : t.source.pull = .byte b rest) :
      TurnOf t ⟨some (.byte b rest), none,
        { t with source := rest, lexer := (t.lexer.feed b).1, pending := (t.lexer.feed b).2 }⟩
  | failed {e : IoError} (hp : t.pending = []) (hf : t.finished = false)
      (hpull : t.source.pull = .failed e) :
      TurnOf t ⟨some (.failed e), some (some (.error ⟨t.line, .io e⟩)),
        { t with lexer := t.lexer.drop, finished := true }⟩
  | ended (hp : t.pending = []) (hf : t.finished = false) (hpull : t.source.pull = .ended) :
      TurnOf t ⟨some .ended, none,
        { t with lexer := t.lexer.drop, pending := t.lexer.close, finished := true }⟩

theorem turnOf (t : Tokenizer) : TurnOf t t.turn := by
  unfold turn
  split
  · exact .handed ‹_›
  · split
    · exact .spent ‹_› ‹_›
    · have hopen := Bool.eq_false_iff.mpr ‹_›
      split
      · exact .byte ‹_› hopen ‹_›
      · exact .failed ‹_› hopen ‹_›
      · exact .ended ‹_› hopen ‹_›

theorem TurnOf.turn_eq {t : Tokenizer} {turn : Turn} (h : TurnOf t turn) : t.turn = turn := by
  cases h <;> simp_all [Tokenizer.turn, LineError.io]

theorem spent_of_answer {t : Tokenizer} (h : t.turn.answer = some none) :
    t.pending = [] ∧ t.finished = true := by
  have hturn := t.turnOf
  generalize t.turn = turn at hturn h
  cases hturn with
  | spent hp hf => exact ⟨hp, hf⟩
  | handed | byte | failed | ended => cases h

theorem remaining_turn_lt {t : Tokenizer} (h : t.turn.answer = none) :
    t.turn.tokenizer.remaining < t.remaining := by
  have hturn := t.turnOf
  generalize t.turn = turn at hturn h ⊢
  cases hturn with
  | handed => cases h
  | spent => cases h
  | byte hp hf hpull => simpa [remaining, hf] using Source.pull_size_lt hpull
  | failed => cases h
  | ended hp hf => simp [remaining, hf]

/-- The next token or the error that ends the stream; `none` after the end, for ever. -/
def next (t : Tokenizer) : Option (Except LineError Token) × Tokenizer :=
  match _h : t.turn.answer with
  | some answer => (answer, t.turn.tokenizer)
  | none => t.turn.tokenizer.next
termination_by t.remaining
decreasing_by exact remaining_turn_lt _h

theorem next_eq_turn (t : Tokenizer) :
    t.next =
      match t.turn.answer with
      | some answer => (answer, t.turn.tokenizer)
      | none => t.turn.tokenizer.next := by
  rw [next]
  split <;> simp_all only

/-- Bounds the items to come: at most two tokens wait, and one read completes at most two more. -/
def size (t : Tokenizer) : Nat := t.pending.length + 3 * t.remaining

theorem size_turn_lt {t : Tokenizer} (h : t.turn.answer ≠ some none) :
    t.turn.tokenizer.size < t.size := by
  have hturn := t.turnOf
  generalize t.turn = turn at hturn h ⊢
  cases hturn with
  | handed hp => simp [size, remaining, hp]
  | spent => exact absurd rfl h
  | @byte b rest hp hf hpull =>
    have hsize := Source.pull_size_lt hpull
    have hfeed := t.lexer.length_feed_le b
    simp [size, remaining, hp, hf]
    omega
  | failed hp hf => simp [size, remaining, hp, hf]
  | ended hp hf =>
    have hclose := t.lexer.length_close_le
    simp [size, remaining, hp, hf]
    omega

theorem next_size_lt {t rest : Tokenizer} {item : Except LineError Token}
    (h : t.next = (some item, rest)) : rest.size < t.size := by
  fun_induction next t with
  | case1 t answer ha =>
    obtain ⟨rfl, rfl⟩ := Prod.mk.inj h
    exact size_turn_lt (by simp [ha])
  | case2 t ha ih => exact Nat.lt_trans (ih h) (size_turn_lt (by simp [ha]))

end Tokenizer

end PageScript
