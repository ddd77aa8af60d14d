import PageScript.Proofs.Grammar
import PageScript.Proofs.Lexing

namespace PageScript.Grammar
open Text (Bytes)
open Lexer (backslash space tab newline)

theorem feed_escaped (b : UInt8) (lx : Lexer) :
    (lx.feed b).1.escaped = decide (role lx.escaped b = .marker) := by
  unfold Lexer.feed role
  split_ifs <;> simp_all [Lexer.advance, Lexer.drop, Lexer.push]

theorem feed_line (b : UInt8) (lx : Lexer) :
    (lx.feed b).1.line = if b = newline then lx.line + 1 else lx.line := by
  unfold Lexer.feed
  by_cases hn : b = newline
  · subst hn
    by_cases he : lx.escaped = true
    · simp [he, Lexer.advance, Lexer.push]
    · have h₁ : ¬ newline = backslash := by decide
      have h₂ : ¬ (newline = space ∨ newline = tab) := by decide
      simp [he, h₁, h₂, Lexer.advance, Lexer.drop]
  · split_ifs <;> simp [Lexer.drop, Lexer.push]

theorem feed_of_marker {lx : Lexer} {b : UInt8} (h : role lx.escaped b = .marker) :
    lx.feed b = ({ lx with escaped := true }, []) := by
  unfold role at h
  split_ifs at h with he hb
  simp [Lexer.feed, he, hb]

theorem feed_of_blank {lx : Lexer} {b : UInt8} (h : role lx.escaped b = .blank) :
    lx.feed b = (lx.drop, lx.openWord) := by
  unfold role at h
  split_ifs at h with he hb hs
  simp [Lexer.feed, he, hb, hs]

theorem feed_of_lineEnd {lx : Lexer} {b : UInt8} (h : role lx.escaped b = .lineEnd) :
    lx.feed b = (lx.drop.advance, lx.openWord ++ [.boundary lx.line]) := by
  unfold role at h
  split_ifs at h with he hb hs hn
  rw [Lexer.feed, if_neg he, if_neg hb, if_neg hs, if_pos hn]

theorem feed_of_content {lx : Lexer} {b : UInt8} (h : role lx.escaped b = .content) :
    (lx.feed b).1.word = b :: lx.word ∧
      (lx.feed b).1.wordLine = (if lx.word = [] then lx.line else lx.wordLine) ∧
      (lx.feed b).2 = [] := by
  unfold role at h
  unfold Lexer.feed
  split_ifs at h ⊢ <;> simp_all [Lexer.advance, Lexer.push]

/-- The state of a lexer that has taken the bytes before a position. The line of the word counts
only while a word is open. -/
structure Stands (bs : Bytes) (i : ℕ) (lx : Lexer) : Prop where
  escaped : lx.escaped = literal bs i
  line : lx.line = lineAt bs i
  word : lx.word.reverse = bytesAt bs (group bs i)
  wordLine : ∀ p ∈ (group bs i).head?, lx.wordLine = lineAt bs p

theorem stands_initial (bs : Bytes) : Stands bs 0 .initial where
  escaped := (literal_zero bs).symm
  line := (lineAt_zero bs).symm
  word := rfl
  wordLine := by simp [group_zero]

theorem Stands.word_eq_nil {bs : Bytes} {i : ℕ} {lx : Lexer} (h : Stands bs i lx) :
    lx.word = [] ↔ group bs i = [] := by
  rw [← bytesAt_group_eq_nil, ← h.word, List.reverse_eq_nil_iff]

theorem Stands.openWord {bs : Bytes} {i : ℕ} {lx : Lexer} (h : Stands bs i lx) :
    lx.openWord = wordAt bs i := by
  by_cases hw : lx.word = []
  · simp [Lexer.openWord, wordAt, hw, h.word_eq_nil.mp hw]
  · obtain ⟨p, ps, hg⟩ := List.exists_cons_of_ne_nil (mt h.word_eq_nil.mpr hw)
    have hl := h.wordLine p (by simp [hg])
    have hb := h.word
    rw [hg] at hb
    simp [Lexer.openWord, wordAt, hw, hg, hl, hb]

theorem Stands.feed_content {bs : Bytes} {i : ℕ} {lx : Lexer} {b : UInt8} (h : Stands bs i lx)
    (hb : bs[i]? = some b) (hr : role lx.escaped b = .content) (hc : IsContent bs i) :
    (lx.feed b).1.word.reverse = bytesAt bs (group bs (i + 1)) ∧
      ∀ p ∈ (group bs (i + 1)).head?, (lx.feed b).1.wordLine = lineAt bs p := by
  obtain ⟨hw, hl, _⟩ := feed_of_content hr
  have hsep : ¬ IsSeparator bs i := fun hs => not_isContent_of_isSeparator hs hc
  have hg : group bs (i + 1) = group bs i ++ [i] := by simp [group_succ hsep, hc]
  rw [hg, hw, hl, bytesAt_append, List.reverse_cons, h.word]
  refine ⟨by simp [bytesAt, hb], ?_⟩
  by_cases hn : group bs i = []
  · simp [hn, h.word_eq_nil.mpr hn, h.line]
  · obtain ⟨p, ps, hp⟩ := List.exists_cons_of_ne_nil hn
    have hlp := h.wordLine p (by simp [hp])
    simpa [hp, mt h.word_eq_nil.mp hn] using hlp

/-- One byte takes the lexer from its position to the next and completes the tokens there. -/
theorem Stands.feed {bs : Bytes} {i : ℕ} {lx : Lexer} {b : UInt8} (h : Stands bs i lx)
    (hb : bs[i]? = some b) :
    Stands bs (i + 1) (lx.feed b).1 ∧ (lx.feed b).2 = tokensAt bs i := by
  have hr : roleAt bs i = some (role lx.escaped b) := by simp [roleAt, hb, h.escaped]
  have hesc : (lx.feed b).1.escaped = literal bs (i + 1) := by
    simp [feed_escaped, literal_succ hb, hr]
  have hline : (lx.feed b).1.line = lineAt bs (i + 1) := by
    rw [feed_line, lineAt_succ hb, h.line]
  cases hk : role lx.escaped b with
  | marker =>
    rw [hk] at hr
    have hsep : ¬ IsSeparator bs i := by simp [IsSeparator, hr]
    have hg : group bs (i + 1) = group bs i := by simp [group_succ hsep, IsContent, hr]
    rw [feed_of_marker hk] at hesc hline ⊢
    refine ⟨⟨hesc, hline, ?_, ?_⟩, by simp [tokensAt, hr]⟩
    · rw [hg]
      exact h.word
    · rw [hg]
      exact h.wordLine
  | blank =>
    rw [hk] at hr
    have hg : group bs (i + 1) = [] := group_succ_of_isSeparator (.inl hr)
    rw [feed_of_blank hk] at hesc hline ⊢
    refine ⟨⟨hesc, hline, ?_, by simp [hg]⟩, by simp [tokensAt, hr, h.openWord]⟩
    rw [hg]
    rfl
  | lineEnd =>
    rw [hk] at hr
    have hg : group bs (i + 1) = [] := group_succ_of_isSeparator (.inr hr)
    rw [feed_of_lineEnd hk] at hesc hline ⊢
    refine ⟨⟨hesc, hline, ?_, by simp [hg]⟩, by simp [tokensAt, hr, h.openWord, h.line]⟩
    rw [hg]
    rfl
  | content =>
    rw [hk] at hr
    obtain ⟨hword, hwl⟩ := h.feed_content hb hk hr
    exact ⟨⟨hesc, hline, hword, hwl⟩, by simp [tokensAt, hr, (feed_of_content hk).2.2]⟩

/-- After any number of bytes the lexer stands at its position, and has given the tokens of all
positions before it. -/
theorem stands_feedAll (bs : Bytes) {i : ℕ} (hi : i ≤ bs.length) :
    Stands bs i (Lexer.feedAll (bs.take i) .initial).1 ∧
      (Lexer.feedAll (bs.take i) .initial).2 = (List.range i).flatMap (tokensAt bs) := by
  induction i with
  | zero => exact ⟨stands_initial bs, rfl⟩
  | succ i ih =>
    obtain ⟨hs, ht⟩ := ih (by omega)
    have hb : bs[i]? = some bs[i] := List.getElem?_eq_getElem (by omega)
    obtain ⟨hs', ht'⟩ := hs.feed hb
    rw [List.take_add_one, hb, Lexer.feedAll_append]
    simp only [Option.toList_some, Lexer.feedAll_singleton]
    exact ⟨hs', by simp [ht, ht', List.range_succ]⟩

theorem stands_length (bs : Bytes) : Stands bs bs.length (Lexer.feedAll bs .initial).1 := by
  simpa using (stands_feedAll bs le_rfl).1

theorem feedAll_eq_closed (bs : Bytes) : (Lexer.feedAll bs .initial).2 = closed bs := by
  simpa [closed] using (stands_feedAll bs le_rfl).2

theorem close_feedAll (bs : Bytes) :
    (Lexer.feedAll bs .initial).1.close = tokensAt bs bs.length := by
  have hs := stands_length bs
  rw [Lexer.close, hs.openWord, hs.line]
  simp [tokensAt, roleAt]

theorem tokens_eq_feedAll (bs : Bytes) :
    tokens bs = (Lexer.feedAll bs .initial).2 ++ (Lexer.feedAll bs .initial).1.close := by
  rw [tokens_eq_closed_append, feedAll_eq_closed, close_feedAll]

/-- A backslash with nothing behind it to escape leaves no trace. -/
theorem tokens_append_marker {d : Bytes} (h : literal d d.length = false) :
    tokens (d ++ [backslash]) = tokens d := by
  have hk : role (Lexer.feedAll d .initial).1.escaped backslash = .marker := by
    rw [(stands_length d).escaped, h]
    rfl
  rw [tokens_eq_feedAll, tokens_eq_feedAll, Lexer.feedAll_append, Lexer.feedAll_singleton,
    feed_of_marker hk]
  simp [Lexer.close, Lexer.openWord]

/-- The tokenizer meets the grammar: over a source that ends cleanly it gives the tokens of the
bytes and nothing more. No word is empty, the words hold all content in its order, and a backslash
that ends the input without being literal contributes nothing. -/
theorem tokenizer_meets_grammar (s : Source) (h : s.failure = none) :
    Calls.Yields Tokenizer.next (.ofSource s) ((tokens s.bytes).map .ok) ∧
      (∀ w line, Token.word w line ∈ tokens s.bytes → w ≠ []) ∧
      (tokens s.bytes).flatMap Token.carried = contentBytes s.bytes ∧
      ∀ d, s.bytes = d ++ [backslash] → literal s.bytes d.length = false →
        tokens s.bytes = tokens d := by
  refine ⟨?_, fun w line hw => ne_nil_of_mem_tokens hw, carried_tokens s.bytes, ?_⟩
  · have hy := Tokenizer.yields_items (.ofSource s)
    rwa [Tokenizer.items_ofSource, h, Lexer.ending, ← List.map_append, ← tokens_eq_feedAll] at hy
  · intro d hd hl
    rw [hd] at hl ⊢
    exact tokens_append_marker (by rwa [literal_append] at hl)

/-- The grammar at a source in two chunks with an interruption: an escaped newline inside a word, a
blank line and a last backslash that escapes nothing. -/
theorem tokenizer_meets_grammar_chunked :
    let s := Source.ofEvents [.data [0x61, backslash], .failed (.plain .interrupted),
      .data [newline, space, 0x62, newline, newline, backslash]]
    s.failure = none ∧
      Calls.Yields Tokenizer.next (.ofSource s)
        ([.word [0x61, newline] 1, .word [0x62] 2, .boundary 2, .boundary 3, .boundary 4].map
          .ok) := by
  refine ⟨by decide, ?_⟩
  exact (tokenizer_meets_grammar _ (by decide)).1

end PageScript.Grammar
