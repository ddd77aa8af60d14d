import PageScript.Proofs.GrammarLexing

namespace PageScript
open Text (Bytes)
open Grammar (tokensAt lineAt Stands)

/-- An item of a tokenizer and the line that is being read when it was given. -/
abbrev Placed := Except LineError Token × ℕ

namespace Grammar

/-- The tokens that the byte at a position completes, with the line behind that byte. -/
def placedAt (bs : Bytes) (i : ℕ) : List Placed :=
  (tokensAt bs i).map fun t => (.ok t, lineAt bs (i + 1))

def placedEnd (bs : Bytes) (failure : Option IoError) : List Placed :=
  match failure with
  | none => (tokensAt bs bs.length).map fun t => (.ok t, lineAt bs bs.length)
  | some e => [(.error ⟨lineAt bs bs.length, .io e⟩, lineAt bs bs.length)]

/-- All items of some bytes and their end, each with the line behind the byte that completed it. -/
def placed (bs : Bytes) (failure : Option IoError) : List Placed :=
  (List.range bs.length).flatMap (placedAt bs) ++ placedEnd bs failure

end Grammar

namespace Lexer

/-- The items of bytes to come, with the lines at which the lexer stands then. -/
def placed (failure : Option IoError) : Bytes → Lexer → List Placed
  | [], lx => (lx.ending failure).map fun item => (item, lx.line)
  | b :: bs, lx =>
    (lx.feed b).2.map (fun t => (.ok t, (lx.feed b).1.line)) ++ placed failure bs (lx.feed b).1

theorem ending_of_stands {bs : Bytes} {lx : Lexer} (h : Stands bs bs.length lx)
    (failure : Option IoError) :
    ((lx.ending failure).map fun item => (item, lx.line)) = Grammar.placedEnd bs failure := by
  cases failure with
  | none =>
    have hclose : lx.close = tokensAt bs bs.length := by
      rw [Lexer.close, h.openWord, h.line]
      simp [tokensAt, Grammar.roleAt]
    simp [ending, Grammar.placedEnd, hclose, h.line, Function.comp_def]
  | some e => simp [ending, Grammar.placedEnd, h.line]

/-- A lexer at a position gives what the grammar has from there on. -/
theorem placed_of_stands (failure : Option IoError) (before rest : Bytes) {lx : Lexer}
    (h : Stands (before ++ rest) before.length lx) :
    placed failure rest lx =
      (List.range' before.length rest.length).flatMap (Grammar.placedAt (before ++ rest)) ++
        Grammar.placedEnd (before ++ rest) failure := by
  induction rest generalizing before lx with
  | nil =>
    rw [List.append_nil] at h ⊢
    exact ending_of_stands h failure
  | cons b rest ih =>
    have hb : (before ++ b :: rest)[before.length]? = some b := by simp
    have hsplit : before ++ b :: rest = before ++ [b] ++ rest := by simp
    have hlength : (before ++ [b]).length = before.length + 1 := by simp
    obtain ⟨hs, ht⟩ := h.feed hb
    have hline := hs.line
    rw [hsplit, ← hlength] at hs
    have hi := ih (before ++ [b]) hs
    rw [← hsplit, hlength] at hi
    rw [placed, hi, ht, hline, List.length_cons, List.range'_succ, List.flatMap_cons,
      List.append_assoc, Grammar.placedAt]

end Lexer

namespace Tokenizer

def nextPlaced (t : Tokenizer) : Option Placed × Tokenizer :=
  (t.next.1.map fun item => (item, t.next.2.line), t.next.2)

/-- Everything that a tokenizer has still to give, with the lines being read then. -/
def placed (t : Tokenizer) : List Placed :=
  t.pending.map (fun token => (.ok token, t.line)) ++
    if t.finished then [] else t.lexer.placed t.source.failure t.source.bytes

theorem placed_turn (t : Tokenizer) :
    t.placed = (t.turn.answer.join.map fun item => (item, t.turn.tokenizer.line)).toList ++
      t.turn.tokenizer.placed := by
  have hturn := t.turnOf
  generalize t.turn = turn at hturn ⊢
  cases hturn with
  | handed hp => simp [placed, hp, line]
  | spent hp hf => simp [placed, hp, hf]
  | byte hp hf hpull =>
    obtain ⟨hb, he⟩ := Source.pull_byte hpull
    simp [placed, hp, hf, hb, he, Lexer.placed, line]
  | failed hp hf hpull =>
    obtain ⟨hb, he⟩ := Source.pull_failed hpull
    simp [placed, hp, hf, hb, he, Lexer.placed, Lexer.ending, line, Lexer.drop]
  | ended hp hf hpull =>
    obtain ⟨hb, he⟩ := Source.pull_ended hpull
    simp [placed, hp, hf, hb, he, Lexer.placed, Lexer.ending, line, Lexer.drop]

theorem placed_next (t : Tokenizer) :
    t.placed = (t.nextPlaced).1.toList ++ t.nextPlaced.2.placed := by
  unfold nextPlaced
  fun_induction next t with
  | case1 t answer ha => rw [placed_turn, ha, Option.join_some]
  | case2 t ha ih => simpa [ha] using t.placed_turn.trans (congrArg _ ih)

theorem placed_eq_nil {t : Tokenizer} (h : t.nextPlaced.1 = none) : t.placed = [] := by
  have hn : t.next.1 = none := Option.map_eq_none_iff.mp h
  clear h
  fun_induction next t with
  | case1 t answer ha =>
    obtain ⟨hp, hf⟩ := spent_of_answer (ha.trans (congrArg some hn))
    simp [placed, hp, hf]
  | case2 t ha ih => simp [placed_turn t, ha, ih hn]

theorem yields_placed (t : Tokenizer) : Calls.Yields nextPlaced t t.placed :=
  Calls.yields_of_step placed placed_next (fun _ => placed_eq_nil) t

/-- Over a source each call stands where the grammar says that its item was completed. -/
theorem placed_ofSource (s : Source) :
    (ofSource s).placed = Grammar.placed s.bytes s.failure := by
  have h := Lexer.placed_of_stands s.failure [] s.bytes (Grammar.stands_initial s.bytes)
  simpa [placed, ofSource, Grammar.placed, List.range_eq_range'] using h

end Tokenizer

end PageScript
