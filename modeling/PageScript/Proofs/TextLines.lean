import PageScript.Proofs.Characters
import PageScript.Text.Blank
import PageScript.Text.Parts

namespace PageScript.TextLines
open Characters (Lexeme lex lexemes openWord tokens_encode)
open Text (isBlank parts parts_append parts_of_not_mem trimmed)
open Text.Utf8 (encode)
open Lexer (backslash newline)

/-- A line without the carriage return that ends it. -/
def withoutReturn (line : List Char) : List Char :=
  if line.getLast? = some '\r' then line.dropLast else line

/-- The lines among the parts between newlines. A carriage return in front of a newline belongs to
the newline, and behind the last newline there is no line unless something stands there. -/
def linesOf : List (List Char) → List (List Char)
  | [] => []
  | [last] => if last = [] then [] else [last]
  | part :: rest => withoutReturn part :: linesOf rest

def lines (s : String) : List (List Char) := linesOf (parts '\n' s.toList)

example : lines "a \r\n\nb\r" = [['a', ' '], [], ['b', '\r']] := by decide

/-- Trimming leaves something of the line. -/
def isNonBlank (line : List Char) : Bool := !(trimmed line).isEmpty

def isGap (c : Char) : Bool := c = ' ' || c = '\t'

def hasWord (line : List Char) : Bool := line.any fun c => !isGap c

/-- The line is white space, but not only spaces and tabs. -/
def isStray (line : List Char) : Bool := line.all isBlank && hasWord line

theorem isBlank_of_isGap {c : Char} (h : isGap c = true) : isBlank c = true := by
  rcases (by simpa [isGap] using h : c = ' ' ∨ c = '\t') with rfl | rfl <;> decide

theorem mem_dropWhile_of_not {p : Char → Bool} {cs : List Char} {c : Char} (hc : c ∈ cs)
    (hp : p c = false) : c ∈ cs.dropWhile p := by
  rw [← List.takeWhile_append_dropWhile (p := p) (l := cs), List.mem_append] at hc
  rcases hc with hc | hc
  · have hblank := List.mem_takeWhile_imp hc
    rw [hp] at hblank
    cases hblank
  · exact hc

/-- A character that is no white space is never trimmed away. -/
theorem isNonBlank_eq (line : List Char) : isNonBlank line = !line.all isBlank := by
  unfold isNonBlank
  congr 1
  apply Bool.eq_iff_iff.mpr
  rw [List.isEmpty_iff, List.all_eq_true]
  constructor
  · intro h c hc
    by_contra hb
    rw [Bool.not_eq_true] at hb
    have hfront := mem_dropWhile_of_not hc hb
    have hback := mem_dropWhile_of_not (List.mem_reverse.mpr hfront) hb
    have hmem : c ∈ trimmed line := List.mem_reverse.mpr hback
    rw [h] at hmem
    cases hmem
  · intro h
    have hfront : line.dropWhile isBlank = [] := List.dropWhile_eq_nil_iff.mpr h
    rw [trimmed, hfront]
    rfl

theorem isNonBlank_withoutReturn (line : List Char) :
    isNonBlank (withoutReturn line) = isNonBlank line := by
  unfold withoutReturn
  split_ifs with h
  · have hline : line.dropLast ++ ['\r'] = line := List.dropLast_append_getLast? '\r' h
    have hreturn : isBlank '\r' = true := by decide
    rw [isNonBlank_eq, isNonBlank_eq]
    conv_rhs => rw [← hline, List.all_append]
    simp [hreturn]
  · rfl

/-- Whether the last part counts as a line does not matter to the count, as it is blank if not. -/
theorem countP_linesOf (ps : List (List Char)) :
    (linesOf ps).countP isNonBlank = ps.countP isNonBlank := by
  fun_induction linesOf ps with
  | case1 => rfl
  | case2 => rfl
  | case3 => rfl
  | case4 part rest _ ih =>
    rw [List.countP_cons, List.countP_cons, ih, isNonBlank_withoutReturn]

/-- A line with a word in it has something that is no white space, or is stray. -/
theorem countP_hasWord (ps : List (List Char)) :
    ps.countP hasWord = ps.countP isNonBlank + ps.countP isStray := by
  induction ps with
  | nil => rfl
  | cons line rest ih =>
    have hline : (if hasWord line then 1 else 0) =
        (if isNonBlank line then 1 else 0) + (if isStray line then 1 else 0) := by
      rw [isNonBlank_eq, isStray]
      cases hall : line.all isBlank with
      | true => simp
      | false =>
        obtain ⟨c, hc, hb⟩ := List.all_eq_false.mp hall
        have hword : hasWord line = true := by
          refine List.any_eq_true.mpr ⟨c, hc, ?_⟩
          rw [Bool.not_eq_true', ← Bool.not_eq_true]
          exact mt isBlank_of_isGap hb
        simp [hword]
    simp only [List.countP_cons, ih]
    omega

section Lex

variable {c : Char} {line wordLine : ℕ} {word cs : List Char}

theorem lex_gap (hc : isGap c = true) :
    lex line word wordLine (c :: cs) = openWord word wordLine ++ lex line [] wordLine cs := by
  rcases (by simpa [isGap] using hc : c = ' ' ∨ c = '\t') with rfl | rfl <;> simp [lex]

theorem lex_newline :
    lex line word wordLine ('\n' :: cs) =
      openWord word wordLine ++ .boundary line :: lex (line + 1) [] wordLine cs := by
  simp [lex]

theorem lex_plain (hgap : isGap c = false) (hn : c ≠ '\n') (hb : c ≠ '\\') :
    lex line word wordLine (c :: cs) =
      lex line (c :: word) (if word.isEmpty then line else wordLine) cs := by
  have hc : ¬ (c = ' ' ∨ c = '\t') := by simpa [isGap] using hgap
  rw [lex, if_neg hc, if_neg hn]
  · intro he
    exact absurd he hb
  · intro d ds he
    exact absurd he hb

end Lex

theorem openWord_eq_nil {word : List Char} {wordLine : ℕ} :
    openWord word wordLine = [] ↔ word = [] := by
  cases word <;> simp [openWord]

theorem allWords_openWord (word : List Char) (wordLine : ℕ) :
    AllWords ((openWord word wordLine).map Lexeme.token) := by
  cases word <;> simp [openWord, AllWords, Lexeme.token, Token.isBoundary]

/-- The lexemes of a line at whose end the lexer is as at a line's beginning. There are words among
them if one was open or the line has one. -/
structure LexesLine (line : ℕ) (word : List Char) (wordLine : ℕ) (cs : List Char)
    (ws : List Lexeme) (next : ℕ) : Prop where
  words : AllWords (ws.map Lexeme.token)
  eq_nil_iff : ws = [] ↔ word = [] ∧ hasWord cs = false
  last : lex line word wordLine cs = ws ++ [.boundary line]
  inner : ∀ rest, lex line word wordLine (cs ++ '\n' :: rest) =
    ws ++ .boundary line :: lex (line + 1) [] next rest

theorem exists_lexesLine {cs : List Char} (hb : '\\' ∉ cs) (hn : '\n' ∉ cs) (line : ℕ)
    (word : List Char) (wordLine : ℕ) :
    ∃ ws next, LexesLine line word wordLine cs ws next := by
  induction cs generalizing word wordLine with
  | nil =>
    refine ⟨openWord word wordLine, wordLine, allWords_openWord word wordLine, ?_, ?_, ?_⟩
    · simp [openWord_eq_nil, hasWord]
    · simp [lex]
    · intro rest
      exact lex_newline
  | cons c cs ih =>
    obtain ⟨hbc, hbcs⟩ := List.ne_and_not_mem_of_not_mem_cons hb
    obtain ⟨hnc, hncs⟩ := List.ne_and_not_mem_of_not_mem_cons hn
    cases hgap : isGap c with
    | true =>
      obtain ⟨ws, next, h⟩ := ih hbcs hncs [] wordLine
      refine ⟨openWord word wordLine ++ ws, next, ?_, ?_, ?_, ?_⟩
      · rw [List.map_append]
        exact List.forall_mem_append.mpr ⟨allWords_openWord word wordLine, h.words⟩
      · rw [List.append_eq_nil_iff, openWord_eq_nil, h.eq_nil_iff]
        simp [hasWord, hgap]
      · rw [lex_gap hgap, h.last, List.append_assoc]
      · intro rest
        rw [List.cons_append, lex_gap hgap, h.inner, List.append_assoc]
    | false =>
      obtain ⟨ws, next, h⟩ := ih hbcs hncs (c :: word) (if word.isEmpty then line else wordLine)
      refine ⟨ws, next, h.words, ?_, ?_, ?_⟩
      · rw [h.eq_nil_iff]
        simp [hasWord, hgap]
      · rw [lex_plain hgap hnc.symm hbc.symm, h.last]
      · intro rest
        rw [List.cons_append, lex_plain hgap hnc.symm hbc.symm, h.inner]

theorem ofGroup?_eq_none_iff {ws : List Token} (h : AllWords ws) :
    Command.ofGroup? ws = none ↔ ws = [] := by
  cases ws with
  | nil => simp [Command.ofGroup?]
  | cons t ws =>
    cases t with
    | word bytes line => simp [Command.ofGroup?]
    | boundary line => exact absurd (h _ List.mem_cons_self) (by simp [Token.isBoundary])

/-- A line gives a command exactly if it has a word. -/
theorem LexesLine.length_ofGroup? {line wordLine next : ℕ} {cs : List Char} {ws : List Lexeme}
    (h : LexesLine line [] wordLine cs ws next) :
    (Command.ofGroup? (ws.map Lexeme.token)).toList.length = if hasWord cs then 1 else 0 := by
  have hnone : Command.ofGroup? (ws.map Lexeme.token) = none ↔ hasWord cs = false := by
    rw [ofGroup?_eq_none_iff h.words, List.map_eq_nil_iff, h.eq_nil_iff]
    simp
  cases hc : Command.ofGroup? (ws.map Lexeme.token) with
  | none => simp [hnone.mp hc]
  | some c =>
    have hword : hasWord cs = true := by
      rw [← Bool.not_eq_false]
      exact fun hf => by simp [hnone.mpr hf] at hc
    simp [hword]

/-- A text has no separator in it, or it is a part, a separator and again a text. -/
@[elab_as_elim]
theorem parts_induction (separator : Char) {motive : List Char → Prop} (cs : List Char)
    (last : ∀ part, separator ∉ part → motive part)
    (more : ∀ part rest, separator ∉ part → motive rest → motive (part ++ separator :: rest)) :
    motive cs := by
  induction hn : cs.length using Nat.strong_induction_on generalizing cs with
  | _ n ih =>
    by_cases hmem : separator ∈ cs
    · obtain ⟨part, rest, rfl, hpart⟩ := List.eq_append_cons_of_mem hmem
      have hlt : rest.length < n := by
        rw [← hn, List.length_append, List.length_cons]
        omega
      exact more part rest hpart (ih _ hlt rest rfl)
    · exact last cs hmem

theorem length_commandsOf_lex {cs : List Char} (hb : '\\' ∉ cs) (line wordLine : ℕ) :
    (commandsOf ((lex line [] wordLine cs).map Lexeme.token)).length =
      (parts '\n' cs).countP hasWord := by
  induction cs using parts_induction '\n' generalizing line wordLine with
  | last part hpart =>
    obtain ⟨ws, next, h⟩ := exists_lexesLine hb hpart line [] wordLine
    have hcommands : commandsOf ((lex line [] wordLine part).map Lexeme.token) =
        (Command.ofGroup? (ws.map Lexeme.token)).toList := by
      rw [h.last, List.map_append]
      exact (commandsOf_boundary h.words line []).trans (List.append_nil _)
    rw [hcommands, h.length_ofGroup?, parts_of_not_mem hpart, List.countP_singleton]
  | more part rest hpart ih =>
    rw [List.mem_append, not_or] at hb
    obtain ⟨hbpart, hbrest⟩ := hb
    obtain ⟨ws, next, h⟩ := exists_lexesLine hbpart hpart line [] wordLine
    have hrest := ih (fun hm => hbrest (List.mem_cons_of_mem _ hm)) (line + 1) next
    have hcommands : commandsOf ((lex line [] wordLine (part ++ '\n' :: rest)).map Lexeme.token) =
        (Command.ofGroup? (ws.map Lexeme.token)).toList ++
          commandsOf ((lex (line + 1) [] next rest).map Lexeme.token) := by
      rw [h.inner, List.map_append]
      exact commandsOf_boundary h.words line _
    rw [hcommands, List.length_append, h.length_ofGroup?, hrest, parts_append hpart,
      List.countP_cons]
    omega

theorem backslash_mem_encode {s : String} (h : '\\' ∈ s.toList) : backslash ∈ encode s :=
  List.mem_flatMap.mpr ⟨'\\', h, by decide⟩

/-- A text without a backslash gives one command for each of its lines that holds anything but
spaces and tabs. These are the lines of which trimming leaves something, and those of other white
space. -/
theorem commands_count_lines (source : Source) (s : String) (clean : source.failure = none)
    (delivers : source.bytes = encode s) (unescaped : backslash ∉ source.bytes) :
    let all := (Parser.ofSource source).drain
    Calls.Yields Parser.next (Parser.ofSource source) (all.commands.map .ok) ∧
      all.ending = none ∧
      all.commands.length = (parts '\n' s.toList).countP hasWord ∧
      all.commands.length =
        (lines s).countP isNonBlank + (parts '\n' s.toList).countP isStray := by
  intro all
  obtain ⟨hcommands, hending⟩ := Parser.drain_ofSource source
  have htokens : source.tokens = (lexemes s).map Lexeme.token := by
    rw [Source.tokens, clean]
    exact (congrArg Grammar.tokens delivers).trans (tokens_encode s)
  have hb : '\\' ∉ s.toList := by
    intro hm
    exact unescaped (delivers ▸ backslash_mem_encode hm)
  have hcount : all.commands.length = (parts '\n' s.toList).countP hasWord := by
    rw [hcommands, Source.commands, htokens]
    exact length_commandsOf_lex hb 1 1
  refine ⟨?_, hending.trans (Source.fault_eq_none.mpr clean), hcount, ?_⟩
  · rw [hcommands]
    exact Layout.yields_of_clean clean
  · rw [hcount, lines, countP_linesOf]
    exact countP_hasWord _

/-- Blank lines of each kind, in chunks that cut a character and a line end. -/
theorem commands_count_lines_chunked :
    let s := "é\n \t\n\u00A0\r\n\r\n x"
    let source := Source.ofEvents [.data [0xC3], .data [0xA9, 0x0A, 0x20, 0x09, 0x0A, 0xC2],
      .failed (.plain .interrupted), .data [0xA0, 0x0D], .data [0x0A, 0x0D, 0x0A, 0x20, 0x78]]
    source.failure = none ∧ source.bytes = encode s ∧ backslash ∉ source.bytes ∧
      (Parser.ofSource source).drain.commands.length = 4 ∧
      (lines s).countP isNonBlank = 2 ∧ (parts '\n' s.toList).countP isStray = 2 := by
  intro s source
  have hclean : source.failure = none := by decide
  have hbytes : source.bytes = encode s := by decide
  have hplain : backslash ∉ source.bytes := by decide
  have hlines : (lines s).countP isNonBlank = 2 := by decide
  have hstray : (parts '\n' s.toList).countP isStray = 2 := by decide
  obtain ⟨-, -, -, hcount⟩ := commands_count_lines source s hclean hbytes hplain
  rw [hlines, hstray] at hcount
  exact ⟨hclean, hbytes, hplain, hcount, hlines, hstray⟩

/-- A line end of carriage return and newline with nothing in front of it gives a command, although
no line of the text is left by trimming. So the commands are not as many as such lines. -/
theorem blank_line_gives_command :
    let s := "\r\n"
    let source := Source.ofBytes (encode s)
    let commands := (Parser.ofSource source).drain.commands
    source.failure = none ∧ source.bytes = encode s ∧ backslash ∉ source.bytes ∧
      commands = [⟨"\r", [], 1⟩] ∧ commands.length ≠ (lines s).countP isNonBlank := by
  intro s source commands
  have hcommands : source.commands = [⟨"\r", [], 1⟩] := by cbv
  have hdrain : commands = [⟨"\r", [], 1⟩] := (Parser.drain_ofSource source).1.trans hcommands
  refine ⟨Source.failure_ofBytes _, Source.bytes_ofBytes _, ?_, hdrain, ?_⟩
  · rw [Source.bytes_ofBytes]
    decide
  · rw [hdrain]
    decide

end PageScript.TextLines
