import PageScript.Proofs.EqualDelivery
import PageScript.Proofs.LineOrder

/-!
# Tokens that wait

A call of a tokenizer turns in a loop: it hands out a token that waits, or asks the source for a
byte, which can complete a word, a boundary or both. So no more than these ever wait, and none waits
while the source is asked. The bytes to come bound how often a call asks, and how many tokens there
are in all.
-/
namespace PageScript
open Text (Bytes)
open Grammar (role)

/-- What can wait to be handed out: a word, a boundary, or a word and the boundary that ended it. -/
inductive Waiting : List Token → Prop where
  | nothing : Waiting []
  | word {bytes : Bytes} (line : ℕ) (nonempty : bytes ≠ []) : Waiting [.word bytes line]
  | boundary (line : ℕ) : Waiting [.boundary line]
  | both {bytes : Bytes} (line last : ℕ) (nonempty : bytes ≠ []) :
      Waiting [.word bytes line, .boundary last]

theorem Waiting.tail {token : Token} {rest : List Token} (h : Waiting (token :: rest)) :
    Waiting rest := by
  cases h with
  | word => exact .nothing
  | boundary => exact .nothing
  | both line last => exact .boundary last

namespace Lexer

theorem waiting_openWord (lx : Lexer) : Waiting lx.openWord := by
  unfold openWord
  split_ifs with hw
  · exact .nothing
  · exact .word _ (by simpa using hw)

theorem waiting_close (lx : Lexer) : Waiting lx.close := by
  unfold close openWord
  split_ifs with hw
  · exact .boundary _
  · exact .both _ _ (by simpa using hw)

theorem waiting_feed (b : UInt8) (lx : Lexer) : Waiting (lx.feed b).2 := by
  cases hr : role lx.escaped b with
  | marker =>
    rw [Grammar.feed_of_marker hr]
    exact .nothing
  | blank =>
    rw [Grammar.feed_of_blank hr]
    exact lx.waiting_openWord
  | lineEnd =>
    rw [Grammar.feed_of_lineEnd hr]
    exact lx.waiting_close
  | content =>
    obtain ⟨-, -, ht⟩ := Grammar.feed_of_content hr
    rw [ht]
    exact .nothing

/-- A byte pays for one token: at once, or for the word that it begins. -/
theorem length_feed_add_le (b : UInt8) (lx : Lexer) :
    (lx.feed b).2.length + (lx.feed b).1.openWord.length ≤ lx.openWord.length + 1 := by
  cases hr : role lx.escaped b with
  | marker =>
    rw [Grammar.feed_of_marker hr]
    simp [openWord]
  | blank =>
    rw [Grammar.feed_of_blank hr]
    simp [openWord, drop]
  | lineEnd =>
    rw [Grammar.feed_of_lineEnd hr]
    simp [openWord, drop, advance]
  | content =>
    obtain ⟨-, -, ht⟩ := Grammar.feed_of_content hr
    have hword := (lx.feed b).1.length_openWord_le
    rw [ht, List.length_nil]
    omega

theorem length_feedAll_add_le (bs : Bytes) (lx : Lexer) :
    (lx.feedAll bs).2.length + (lx.feedAll bs).1.openWord.length ≤
      lx.openWord.length + bs.length := by
  induction bs generalizing lx with
  | nil => simp
  | cons b bs ih =>
    have hfirst := lx.length_feed_add_le b
    have hrest := ih (lx.feed b).1
    rw [feedAll_cons]
    simp only [List.length_append, List.length_cons]
    omega

end Lexer

/-- Every token but the last boundary is paid for by a byte of its own. -/
theorem Source.length_tokens_le (s : Source) : s.tokens.length ≤ s.bytes.length + 1 := by
  have hall := Lexer.length_feedAll_add_le s.bytes .initial
  have hinitial : Lexer.initial.openWord = [] := rfl
  rw [hinitial, List.length_nil] at hall
  unfold tokens
  cases s.failure with
  | none =>
    rw [Grammar.tokens_eq_feedAll, Lexer.close]
    simp only [List.length_append, List.length_singleton]
    omega
  | some e =>
    rw [Grammar.feedAll_eq_closed] at hall
    dsimp only
    omega

namespace Tokenizer

/-- A call with the requests that it makes, its answer and the tokenizer that it leaves. -/
inductive Call : Tokenizer → List Pull → Option (Except LineError Token) → Tokenizer → Prop where
  | last {t : Tokenizer} {answer : Option (Except LineError Token)}
      (h : t.turn.answer = some answer) : Call t t.turn.pull.toList answer t.turn.tokenizer
  | more {t rest : Tokenizer} {pulls : List Pull} {answer : Option (Except LineError Token)}
      (h : t.turn.answer = none) (later : Call t.turn.tokenizer pulls answer rest) :
      Call t (t.turn.pull.toList ++ pulls) answer rest

/-- The requests that can still be made: one for each byte to come and one for the end. -/
def requestsLeft (t : Tokenizer) : ℕ := if t.finished then 0 else t.source.bytes.length + 1

theorem requestsLeft_turn (t : Tokenizer) :
    t.turn.pull.toList.length + t.turn.tokenizer.requestsLeft ≤ t.requestsLeft := by
  have hturn := t.turnOf
  generalize t.turn = turn at hturn ⊢
  cases hturn with
  | handed hp => simp [requestsLeft]
  | spent hp hf => simp
  | byte hp hf hpull =>
    have hbytes := (Source.pull_byte hpull).1
    simp [requestsLeft, hf, hbytes]
    omega
  | failed hp hf hpull => simp [requestsLeft, hf]
  | ended hp hf hpull => simp [requestsLeft, hf]

theorem length_pull_of_no_answer {t : Tokenizer} (h : t.turn.answer = none) :
    t.turn.pull.toList.length = 1 := by
  have hturn := t.turnOf
  generalize t.turn = turn at hturn h ⊢
  cases hturn with
  | handed | spent | failed => cases h
  | byte | ended => rfl

theorem pending_of_asked {t : Tokenizer} (h : t.turn.pull ≠ none) : t.pending = [] := by
  have hturn := t.turnOf
  generalize t.turn = turn at hturn h
  cases hturn with
  | handed => exact absurd rfl h
  | spent hp | byte hp | failed hp | ended hp => exact hp

/-- Only a turn that asks the source can answer with an error, and it leaves no token. -/
theorem turn_of_error {t : Tokenizer} {e : LineError}
    (h : t.turn.answer = some (some (.error e))) :
    t.turn.pull ≠ none ∧ t.turn.tokenizer.pending = [] := by
  have hturn := t.turnOf
  generalize t.turn = turn at hturn h ⊢
  cases hturn with
  | failed hp => exact ⟨Option.some_ne_none _, hp⟩
  | handed | spent | byte | ended => cases h

section Call

variable {t rest : Tokenizer} {pulls : List Pull} {answer : Option (Except LineError Token)}

theorem Call.length_le (h : Call t pulls answer rest) :
    pulls.length + rest.requestsLeft ≤ t.requestsLeft := by
  induction h with
  | last h => exact requestsLeft_turn _
  | @more t rest pulls answer h later ih =>
    have hturn := t.requestsLeft_turn
    rw [List.length_append]
    omega

theorem Call.eq_next (h : Call t pulls answer rest) : t.next = (answer, rest) := by
  induction h with
  | last h => rw [next_eq_turn, h]
  | more h later ih => rw [next_eq_turn, h, ih]

/-- Every call comes to an end, since each turn without an answer uses up a request. -/
theorem exists_call (t : Tokenizer) : ∃ pulls, Call t pulls t.next.1 t.next.2 := by
  induction hn : t.requestsLeft using Nat.strong_induction_on generalizing t with
  | _ n ih =>
    rw [next_eq_turn]
    cases ha : t.turn.answer with
    | some answer => exact ⟨_, .last ha⟩
    | none =>
      have hturn := t.requestsLeft_turn
      rw [length_pull_of_no_answer ha] at hturn
      obtain ⟨pulls, hlater⟩ := ih t.turn.tokenizer.requestsLeft (by omega) t.turn.tokenizer rfl
      exact ⟨_, .more ha hlater⟩

end Call

/-- The tokenizers over a source before, behind and within calls. -/
inductive Reached (source : Source) : Tokenizer → Prop where
  | start : Reached source (.ofSource source)
  | turn {t : Tokenizer} (h : Reached source t) : Reached source t.turn.tokenizer

theorem Reached.call {source : Source} {t rest : Tokenizer} {pulls : List Pull}
    {answer : Option (Except LineError Token)} (h : Reached source t)
    (hc : Call t pulls answer rest) : Reached source rest := by
  induction hc with
  | last _ => exact h.turn
  | more _ _ ih => exact ih h.turn

theorem Reached.after {source : Source} {t : Tokenizer} (h : Reached source t) (n : ℕ) :
    Reached source (Calls.after next n t) := by
  induction n generalizing t with
  | zero => exact h
  | succ n ih =>
    obtain ⟨pulls, hc⟩ := t.exists_call
    exact ih (h.call hc)

/-- What holds of a tokenizer wherever its loop has come to. -/
structure Sound (t : Tokenizer) : Prop where
  waiting : Waiting t.pending
  floor_le : t.lexer.floor ≤ t.lexer.line

theorem sound_ofSource (source : Source) : Sound (ofSource source) := ⟨.nothing, le_rfl⟩

theorem Sound.turn {t : Tokenizer} (h : Sound t) : Sound t.turn.tokenizer := by
  have hdrop : t.lexer.drop.floor ≤ t.lexer.drop.line := by
    rw [Lexer.floor_of_nil rfl]
  have hturn := t.turnOf
  generalize t.turn = turn at hturn ⊢
  cases hturn with
  | handed hp =>
    have hw := h.waiting
    rw [hp] at hw
    exact ⟨hw.tail, h.floor_le⟩
  | spent => exact h
  | @byte b => exact ⟨t.lexer.waiting_feed b, (Lexer.ordered_feed h.floor_le b).2⟩
  | failed => exact ⟨h.waiting, hdrop⟩
  | ended => exact ⟨t.lexer.waiting_close, hdrop⟩

theorem Reached.sound {source : Source} {t : Tokenizer} (h : Reached source t) : Sound t := by
  induction h with
  | start => exact sound_ofSource source
  | turn _ ih => exact ih.turn

theorem Sound.wordLine_le {t : Tokenizer} (h : Sound t) (hw : t.lexer.word ≠ []) :
    t.lexer.wordLine ≤ t.lexer.line := by
  have hfloor := h.floor_le
  rwa [Lexer.floor, if_neg hw] at hfloor

theorem requestsLeft_le (t : Tokenizer) : t.requestsLeft ≤ t.source.bytes.length + 1 := by
  unfold requestsLeft
  split_ifs
  · exact Nat.zero_le _
  · exact le_rfl

/-- Wherever a tokenizer over a source has come to, within or behind any number of calls, at most a
word and a boundary wait, no word is without bytes, and an open word began on no later line than the
one being read. No token waits while the source is asked for a byte, so none is lost when it fails.
A call comes to its answer with at most one request for each byte to come and one more, and a source
gives all its completed tokens, at most one for each byte and one more, and then the failure if
there is one. -/
theorem queue_short_and_calls_end (source : Source) :
    (∀ t, Reached source t →
      Waiting t.pending ∧ (t.lexer.word ≠ [] → t.lexer.wordLine ≤ t.lexer.line) ∧
      (t.turn.pull ≠ none → t.pending = []) ∧
      (∀ e, t.turn.answer = some (some (.error e)) →
        t.pending = [] ∧ t.turn.tokenizer.pending = []) ∧
      (∃ pulls, Call t pulls t.next.1 t.next.2) ∧
      ∀ pulls answer rest, Call t pulls answer rest →
        t.next = (answer, rest) ∧ pulls.length ≤ t.source.bytes.length + 1) ∧
    (∀ n, Reached source (Calls.after next n (.ofSource source))) ∧
    Calls.Yields next (.ofSource source)
      (source.tokens.map .ok ++ source.fault.toList.map .error) ∧
    source.tokens.length ≤ source.bytes.length + 1 := by
  have hitems := yields_items (.ofSource source)
  rw [items_ofSource_eq] at hitems
  refine ⟨fun t ht => ?_, fun n => Reached.start.after n, hitems, source.length_tokens_le⟩
  have herror : ∀ e, t.turn.answer = some (some (.error e)) →
      t.pending = [] ∧ t.turn.tokenizer.pending = [] := by
    intro e he
    obtain ⟨hasked, hleft⟩ := turn_of_error he
    exact ⟨pending_of_asked hasked, hleft⟩
  refine ⟨ht.sound.waiting, ht.sound.wordLine_le, pending_of_asked, herror, t.exists_call, ?_⟩
  intro pulls answer rest hc
  have hlength := hc.length_le
  have hleft := t.requestsLeft_le
  exact ⟨hc.eq_next, by omega⟩

end Tokenizer

end PageScript
