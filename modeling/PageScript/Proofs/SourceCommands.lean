import PageScript.Proofs.GrammarLexing
import PageScript.Proofs.Grouping

namespace PageScript
open Grammar (tokens closed lineAt)

namespace Source

/-- All tokens of a clean source, and of a failing one those completed before the failure. -/
def tokens (s : Source) : List Token :=
  match s.failure with
  | none => Grammar.tokens s.bytes
  | some _ => closed s.bytes

/-- The commands that end in the source. -/
def commands (s : Source) : List Command := commandsOf s.tokens

/-- The failure, at the line that was being read. -/
def fault (s : Source) : Option LineError :=
  s.failure.map fun e => ⟨lineAt s.bytes s.bytes.length, .io e⟩

theorem fault_eq_none {s : Source} : s.fault = none ↔ s.failure = none := by
  simp [fault]

end Source

theorem Tokenizer.items_ofSource_eq (s : Source) :
    (ofSource s).items = s.tokens.map .ok ++ s.fault.toList.map .error := by
  rw [items_ofSource]
  cases hf : s.failure with
  | none =>
    simp [Source.tokens, Source.fault, hf, Lexer.ending, Grammar.tokens_eq_feedAll]
  | some e =>
    simp [Source.tokens, Source.fault, hf, Lexer.ending, Grammar.feedAll_eq_closed,
      (Grammar.stands_length s.bytes).line]

namespace Parser

theorem items_ofSource (s : Source) :
    (ofSource s).items = s.commands.map .ok ++ s.fault.toList.map .error := by
  have hp := Draft.parse_none_append s.tokens s.fault.toList
  have he : s.fault.toList.take 1 = s.fault.toList := List.take_of_length_le (by simp)
  rw [he] at hp
  simp only [items, ofSource, ofTokens, Bool.false_eq_true, if_false]
  rw [TokenStream.items_tokenizer, Tokenizer.items_ofSource_eq, hp]
  rfl

theorem eq_of_ok_append_error {α ε : Type} {xs ys : List α} {e f : Option ε}
    (h : (xs.map .ok ++ e.toList.map .error : List (Except ε α)) =
      ys.map .ok ++ f.toList.map .error) : xs = ys ∧ e = f := by
  induction xs generalizing ys with
  | nil => cases ys <;> cases e <;> cases f <;> simp_all
  | cons x xs ih =>
    cases ys with
    | nil => cases e <;> cases f <;> simp_all
    | cons y ys =>
      simp only [List.map_cons, List.cons_append, List.cons.injEq, Except.ok.injEq] at h
      obtain ⟨hxs, he⟩ := ih h.2
      exact ⟨by rw [h.1, hxs], he⟩

theorem drain_ofSource (s : Source) :
    (ofSource s).drain.commands = s.commands ∧ (ofSource s).drain.ending = s.fault :=
  eq_of_ok_append_error ((items_drain _).symm.trans (items_ofSource s))

end Parser

end PageScript
