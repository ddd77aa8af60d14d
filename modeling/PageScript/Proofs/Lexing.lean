import PageScript.Proofs.Calls
import PageScript.Proofs.Delivery
import PageScript.Tokenizer

namespace PageScript
open Text (Bytes)

namespace Lexer

/-- Takes all bytes of a string, and gives the tokens that they complete. -/
def feedAll : Bytes → Lexer → Lexer × List Token
  | [], lx => (lx, [])
  | b :: bs, lx =>
    let r := feedAll bs (lx.feed b).1
    (r.1, (lx.feed b).2 ++ r.2)

/-- What the end of input gives: the tokens of a clean end, or the error. -/
def ending (failure : Option IoError) (lx : Lexer) : List (Except LineError Token) :=
  match failure with
  | none => lx.close.map .ok
  | some e => [.error ⟨lx.line, .io e⟩]

@[simp] theorem feedAll_nil (lx : Lexer) : feedAll [] lx = (lx, []) := rfl

theorem feedAll_cons (b : UInt8) (bs : Bytes) (lx : Lexer) :
    feedAll (b :: bs) lx =
      ((feedAll bs (lx.feed b).1).1, (lx.feed b).2 ++ (feedAll bs (lx.feed b).1).2) := rfl

@[simp] theorem feedAll_singleton (b : UInt8) (lx : Lexer) : feedAll [b] lx = lx.feed b := by
  simp [feedAll_cons]

theorem feedAll_append (xs ys : Bytes) (lx : Lexer) :
    feedAll (xs ++ ys) lx =
      ((feedAll ys (feedAll xs lx).1).1,
        (feedAll xs lx).2 ++ (feedAll ys (feedAll xs lx).1).2) := by
  induction xs generalizing lx with
  | nil => simp
  | cons x xs ih => simp [feedAll_cons, ih]

end Lexer

namespace Tokenizer

def items (t : Tokenizer) : List (Except LineError Token) :=
  t.pending.map .ok ++
    if t.finished then []
    else
      let r := t.lexer.feedAll t.source.bytes
      r.2.map .ok ++ r.1.ending t.source.failure

theorem items_turn (t : Tokenizer) :
    t.items = t.turn.answer.join.toList ++ t.turn.tokenizer.items := by
  have hturn := t.turnOf
  generalize t.turn = turn at hturn ⊢
  cases hturn with
  | handed hp => simp [items, hp]
  | spent hp hf => simp [items, hp, hf]
  | byte hp hf hpull =>
    obtain ⟨hb, he⟩ := Source.pull_byte hpull
    simp [items, hp, hf, hb, he, Lexer.feedAll_cons]
  | failed hp hf hpull =>
    obtain ⟨hb, he⟩ := Source.pull_failed hpull
    simp [items, hp, hf, hb, he, Lexer.ending, line]
  | ended hp hf hpull =>
    obtain ⟨hb, he⟩ := Source.pull_ended hpull
    simp [items, hp, hf, hb, he, Lexer.ending]

theorem items_next (t : Tokenizer) : t.items = t.next.1.toList ++ t.next.2.items := by
  fun_induction next t with
  | case1 t answer ha => rw [items_turn, ha, Option.join_some]
  | case2 t ha ih => rw [items_turn, ha, ih, Option.join_none, Option.toList_none, List.nil_append]

theorem items_eq_nil {t : Tokenizer} (h : t.next.1 = none) : t.items = [] := by
  fun_induction next t with
  | case1 t answer ha =>
    obtain ⟨hp, hf⟩ := spent_of_answer (ha.trans (congrArg some h))
    simp [items, hp, hf]
  | case2 t ha ih =>
    rw [items_turn, ha, ih h, Option.join_none, Option.toList_none, List.nil_append]

/-- Pulling lazily gives the items of the whole delivery, then nothing for ever. -/
theorem yields_items (t : Tokenizer) : Calls.Yields next t t.items :=
  Calls.yields_of_step items items_next (fun _ => items_eq_nil) t

theorem items_ofSource (s : Source) :
    (ofSource s).items =
      (Lexer.feedAll s.bytes .initial).2.map .ok ++
        (Lexer.feedAll s.bytes .initial).1.ending s.failure := by
  simp [items, ofSource]

end Tokenizer

end PageScript
