import PageScript.Proofs.Layout
import PageScript.Proofs.SourceCommands

namespace PageScript.Layout
open Text (Bytes)
open Text.Utf8 (decode encode decode_encode encode_ne_nil)
open Lexer (backslash space tab newline feedAll feedAll_nil feedAll_cons feedAll_append)
open Grammar (role)

theorem role_blank {b : UInt8} (h : b = space ∨ b = tab) : role false b = .blank := by
  rcases h with rfl | rfl <;> rfl

theorem role_ordinary {b : UInt8} (h : ¬ Special b) : role false b = .content := by
  unfold Special at h
  push Not at h
  obtain ⟨hbs, hs, ht, hn⟩ := h
  simp [role, hbs, hs, ht, hn]

theorem count_blanks {gap : Bytes} (h : Blanks gap) : gap.count newline = 0 := by
  apply List.count_eq_zero.mpr
  intro hn
  rcases h newline hn with he | he
  · exact absurd he (by decide)
  · exact absurd he (by decide)

theorem line_feedAll (bs : Bytes) (lx : Lexer) :
    (feedAll bs lx).1.line = lx.line + bs.count newline := by
  induction bs generalizing lx with
  | nil => rfl
  | cons b bs ih =>
    rw [feedAll_cons, ih, Grammar.feed_line, List.count_cons]
    by_cases hb : b = newline
    · simp [hb]
      omega
    · simp [hb]

theorem openWord_of_nil {lx : Lexer} (h : lx.word = []) : lx.openWord = [] := by
  simp [Lexer.openWord, h]

theorem drop_of_nil {lx : Lexer} (h : lx.word = []) : lx.drop = lx := by
  simp [Lexer.drop, ← h]

theorem feedAll_blanks_of_nil {gap : Bytes} (hg : Blanks gap) {lx : Lexer}
    (he : lx.escaped = false) (hw : lx.word = []) : feedAll gap lx = (lx, []) := by
  induction gap with
  | nil => rfl
  | cons b gap ih =>
    have hr : role lx.escaped b = .blank := by rw [he, role_blank (hg b List.mem_cons_self)]
    have hi := ih fun c hc => hg c (List.mem_cons_of_mem b hc)
    rw [feedAll_cons, Grammar.feed_of_blank hr, drop_of_nil hw, hi, openWord_of_nil hw]
    rfl

theorem feedAll_gap {gap : Bytes} (hg : Blanks gap) (hne : gap ≠ []) {lx : Lexer}
    (he : lx.escaped = false) : feedAll gap lx = (lx.drop, lx.openWord) := by
  obtain ⟨b, gap, rfl⟩ := List.exists_cons_of_ne_nil hne
  have hr : role lx.escaped b = .blank := by rw [he, role_blank (hg b List.mem_cons_self)]
  have hrest : Blanks gap := fun c hc => hg c (List.mem_cons_of_mem b hc)
  have hd : feedAll gap lx.drop = (lx.drop, []) := feedAll_blanks_of_nil hrest he rfl
  rw [feedAll_cons, Grammar.feed_of_blank hr, hd, List.append_nil]

/-- What a lexer that is not behind a backslash has become after more bytes of one word. -/
structure Joined (lx : Lexer) (word : Bytes) (r : Lexer × List Token) : Prop where
  escaped : r.1.escaped = false
  word : r.1.word = word.reverse ++ lx.word
  wordLine : r.1.word ≠ [] → r.1.wordLine = if lx.word = [] then lx.line else lx.wordLine
  tokens : r.2 = []

theorem Joined.content {lx : Lexer} {b : UInt8} {word : Bytes} {r : Lexer × List Token}
    (hr : role lx.escaped b = .content) (h : Joined (lx.feed b).1 word r) :
    Joined lx (b :: word) (r.1, (lx.feed b).2 ++ r.2) := by
  obtain ⟨hw, hl, ht⟩ := Grammar.feed_of_content hr
  refine ⟨h.escaped, ?_, ?_, by rw [ht, h.tokens]; rfl⟩
  · rw [h.word, hw]
    simp
  · intro hne
    rw [h.wordLine hne, hw, hl]
    simp

theorem escaped_of_content {lx : Lexer} {b : UInt8} (h : role lx.escaped b = .content) :
    (lx.feed b).1.escaped = false := by
  rw [Grammar.feed_escaped, h]
  rfl

/-- A text of a word adds the word, however it is escaped. -/
theorem joined_feedAll {text word : Bytes} (h : Spells text word) {lx : Lexer}
    (he : lx.escaped = false) : Joined lx word (feedAll text lx) := by
  induction h generalizing lx with
  | nil => exact ⟨he, rfl, fun hne => (if_neg hne).symm, rfl⟩
  | @plain b text word ordinary rest ih =>
    have hr : role lx.escaped b = .content := by rw [he, role_ordinary ordinary]
    exact (ih (escaped_of_content hr)).content hr
  | @escaped b text word rest ih =>
    have hm : role lx.escaped backslash = .marker := by rw [he]; rfl
    have hr : role true b = .content := rfl
    have hb : (Lexer.feed b { lx with escaped := true }).1.escaped = false := escaped_of_content hr
    have hc := (ih hb).content hr
    rw [feedAll_cons, Grammar.feed_of_marker hm]
    exact ⟨hc.escaped, hc.word, hc.wordLine, hc.tokens⟩

/-- A text of a word where none is open opens the word at the line being read. -/
theorem openWord_feedAll {text word : Bytes} (h : Spells text word) (hne : word ≠ []) {lx : Lexer}
    (he : lx.escaped = false) (hw : lx.word = []) :
    (feedAll text lx).1.openWord = [.word word lx.line] := by
  have hj := joined_feedAll h he
  have hword : (feedAll text lx).1.word = word.reverse := by rw [hj.word, hw, List.append_nil]
  have hopen : (feedAll text lx).1.word ≠ [] := by
    rw [hword]
    exact mt List.reverse_eq_nil_iff.mp hne
  have hline := hj.wordLine hopen
  rw [if_pos hw] at hline
  rw [Lexer.openWord, if_neg (by simpa using hopen), hword, hline, List.reverse_reverse]

/-- The tokens that bytes complete, and the word that is open behind them. -/
def reached (bs : Bytes) (lx : Lexer) : List Token :=
  (feedAll bs lx).2 ++ (feedAll bs lx).1.openWord

theorem reached_append (xs ys : Bytes) (lx : Lexer) :
    reached (xs ++ ys) lx = (feedAll xs lx).2 ++ reached ys (feedAll xs lx).1 := by
  simp [reached, feedAll_append]

/-- Behind an open word the parameters of a line are the words that follow it. -/
theorem reached_params {rest : Bytes} {params : List String} (h : WritesParams rest params)
    {lx : Lexer} (he : lx.escaped = false) :
    (feedAll rest lx).1.escaped = false ∧ ∃ ws, reached rest lx = lx.openWord ++ ws ∧ AllWords ws ∧
      ws.map (decode ·.carried) = params := by
  induction h generalizing lx with
  | @nil gap blanks =>
    by_cases hg : gap = []
    · subst hg
      exact ⟨he, [], by simp [reached], by simp [AllWords], rfl⟩
    · rw [reached, feedAll_gap blanks hg he]
      exact ⟨he, [], by simp [Lexer.drop, Lexer.openWord], by simp [AllWords], rfl⟩
  | @cons gap text rest param params blanks apart nonempty spelled others ih =>
    have hd : lx.drop.escaped = false := he
    have hj := joined_feedAll spelled hd
    have ho := openWord_feedAll spelled (encode_ne_nil nonempty) hd rfl
    obtain ⟨hesc, ws, hws, hall, hparams⟩ := ih hj.escaped
    have hgap : feedAll (gap ++ text) lx = ((feedAll text lx.drop).1, lx.openWord) := by
      rw [feedAll_append, feedAll_gap blanks apart he, hj.tokens, List.append_nil]
    refine ⟨?_, .word (encode param) lx.line :: ws, ?_, ?_, ?_⟩
    · rw [feedAll_append, hgap]
      exact hesc
    · rw [reached_append, hgap, hws, ho]
      rfl
    · exact List.forall_mem_cons.mpr ⟨rfl, hall⟩
    · rw [List.map_cons, hparams, Token.carried, decode_encode]

/-- The words of a command form one group, at the line where its name begins. -/
theorem reached_command {text : Bytes} {name : String} {params : List String}
    (h : WritesCommand text name params) {lx : Lexer} (he : lx.escaped = false)
    (hw : lx.word = []) :
    (feedAll text lx).1.escaped = false ∧ AllWords (reached text lx) ∧
      Command.ofGroup? (reached text lx) = some ⟨name, params, lx.line⟩ := by
  obtain @⟨text, rest, name, params, nonempty, spelled, others⟩ := h
  have hj := joined_feedAll spelled he
  have ho := openWord_feedAll spelled (encode_ne_nil nonempty) he hw
  obtain ⟨hesc, ws, hws, hall, hparams⟩ := reached_params others hj.escaped
  have hreached : reached (text ++ rest) lx = .word (encode name) lx.line :: ws := by
    rw [reached_append, hj.tokens, hws, ho]
    rfl
  rw [hreached]
  refine ⟨?_, List.forall_mem_cons.mpr ⟨rfl, hall⟩, ?_⟩
  · rw [feedAll_append]
    exact hesc
  · rw [Command.ofGroup?, decode_encode, hparams]

/-- A lexer behind some bytes of a script at the place where a command may begin. -/
structure LineStart (before : Bytes) (lx : Lexer) : Prop where
  escaped : lx.escaped = false
  word : lx.word = []
  line : lx.line = 1 + before.count newline

theorem lineStart_initial : LineStart [] .initial := ⟨rfl, rfl, rfl⟩

theorem LineStart.blanks {before gap : Bytes} {lx : Lexer} (h : LineStart before lx)
    (hg : Blanks gap) : LineStart (before ++ gap) lx := by
  refine ⟨h.escaped, h.word, ?_⟩
  rw [h.line, List.count_append, count_blanks hg]
  rfl

/-- A newline that is not escaped closes the command before it, and another may begin. -/
theorem LineStart.line_end {before text : Bytes} {lx : Lexer} (h : LineStart before lx)
    (he : (feedAll text lx).1.escaped = false) :
    LineStart (before ++ text ++ [newline]) (feedAll (text ++ [newline]) lx).1 ∧
      (feedAll (text ++ [newline]) lx).2 =
        reached text lx ++ [.boundary (feedAll text lx).1.line] := by
  have hr : role (feedAll text lx).1.escaped newline = .lineEnd := by rw [he]; rfl
  have hl := line_feedAll (text ++ [newline]) lx
  have hf : feedAll (text ++ [newline]) lx = ((feedAll text lx).1.drop.advance,
      reached text lx ++ [.boundary (feedAll text lx).1.line]) := by
    rw [feedAll_append, Lexer.feedAll_singleton, Grammar.feed_of_lineEnd hr, reached,
      List.append_assoc]
  rw [hf] at hl ⊢
  refine ⟨⟨he, rfl, ?_⟩, rfl⟩
  have hc : (before ++ text ++ [newline]).count newline =
      before.count newline + (text ++ [newline]).count newline := by
    rw [List.append_assoc, List.count_append]
  rw [hl, h.line, hc]
  omega

def tokensFrom (bs : Bytes) (lx : Lexer) : List Token :=
  (feedAll bs lx).2 ++ (feedAll bs lx).1.close

theorem tokensFrom_eq (bs : Bytes) (lx : Lexer) :
    tokensFrom bs lx = reached bs lx ++ [.boundary (feedAll bs lx).1.line] := by
  rw [tokensFrom, Lexer.close, reached, List.append_assoc]

theorem tokensFrom_append (xs ys : Bytes) (lx : Lexer) :
    tokensFrom (xs ++ ys) lx = (feedAll xs lx).2 ++ tokensFrom ys (feedAll xs lx).1 := by
  simp [tokensFrom, feedAll_append]

theorem tokensFrom_cons (b : UInt8) (bs : Bytes) (lx : Lexer) :
    tokensFrom (b :: bs) lx = (lx.feed b).2 ++ tokensFrom bs (lx.feed b).1 := by
  simp [tokensFrom, feedAll_cons]

theorem LineStart.tokensFrom_blanks {before gap : Bytes} {lx : Lexer} (h : LineStart before lx)
    (hg : Blanks gap) (bs : Bytes) : tokensFrom (gap ++ bs) lx = tokensFrom bs lx := by
  have hb := feedAll_blanks_of_nil hg h.escaped h.word
  rw [tokensFrom, feedAll_append, hb]
  rfl

theorem LineStart.commandsOf_line {before text : Bytes} {lx : Lexer} (h : LineStart before lx)
    (he : (feedAll text lx).1.escaped = false) (hall : AllWords (reached text lx)) (rest : Bytes) :
    commandsOf (tokensFrom (text ++ newline :: rest) lx) =
      (Command.ofGroup? (reached text lx)).toList ++
        commandsOf (tokensFrom rest (feedAll (text ++ [newline]) lx).1) := by
  obtain ⟨-, ht⟩ := h.line_end he
  have hf : tokensFrom (text ++ newline :: rest) lx =
      reached text lx ++ .boundary (feedAll text lx).1.line ::
        tokensFrom rest (feedAll (text ++ [newline]) lx).1 := by
    rw [← List.singleton_append, ← List.append_assoc, tokensFrom, feedAll_append, ht, tokensFrom]
    simp
  rw [hf, commandsOf_boundary hall]

/-- The tokens of a script in a layout form the commands that were written. -/
theorem commandsOf_tokensFrom {before script : Bytes} {cs : List Command}
    (h : Writes before script cs) {lx : Lexer} (hs : LineStart before lx) :
    commandsOf (tokensFrom script lx) = cs := by
  -- every line leaves another lexer, of which only the place at a line's start is kept
  induction h generalizing lx with
  | @ended before gap blanks =>
    have hb := hs.tokensFrom_blanks blanks []
    rw [List.append_nil] at hb
    rw [hb, tokensFrom_eq, reached, feedAll_nil, openWord_of_nil hs.word]
    rfl
  | @blankLine before gap rest cs blanks others ih =>
    have hg := hs.blanks blanks
    have ho : reached [] lx = [] := openWord_of_nil hs.word
    have hesc : (feedAll [] lx).1.escaped = false := hs.escaped
    have hl := hg.commandsOf_line hesc (by simp [ho, AllWords]) rest
    obtain ⟨hnext, -⟩ := hg.line_end hesc
    rw [List.append_nil] at hnext
    rw [hs.tokensFrom_blanks blanks, ← List.nil_append (newline :: rest), hl, ho, ih hnext]
    rfl
  | @command before gap text rest name params cs blanks written others ih =>
    have hg := hs.blanks blanks
    obtain ⟨hesc, hall, hc⟩ := reached_command written hs.escaped hs.word
    obtain ⟨hnext, -⟩ := hg.line_end hesc
    rw [List.append_assoc, hs.tokensFrom_blanks blanks, hg.commandsOf_line hesc hall, hc, ih hnext,
      hg.line]
    rfl
  | @lastCommand before gap text name params blanks written =>
    have hg := hs.blanks blanks
    obtain ⟨-, hall, hc⟩ := reached_command written hs.escaped hs.word
    rw [hs.tokensFrom_blanks blanks, tokensFrom_eq, commandsOf_boundary hall, hc, hg.line]
    rfl

end PageScript.Layout
