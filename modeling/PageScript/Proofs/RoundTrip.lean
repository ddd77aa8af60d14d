import PageScript.Proofs.LayoutLexing

namespace PageScript.Layout
open Text (Bytes)
open Text.Utf8 (encode decode_ne_empty)
open Lexer (backslash space tab newline)

theorem commands_of_clean {s : Source} (h : s.failure = none) :
    s.commands = commandsOf (tokensFrom s.bytes .initial) := by
  rw [Source.commands, Source.tokens, h, tokensFrom, Grammar.tokens_eq_feedAll]

theorem commands_of_writes {s : Source} {cs : List Command} (h : s.failure = none)
    (hw : Writes [] s.bytes cs) : s.commands = cs := by
  rw [commands_of_clean h, commandsOf_tokensFrom hw lineStart_initial]

theorem yields_of_clean {s : Source} (h : s.failure = none) :
    Calls.Yields Parser.next (Parser.ofSource s) (s.commands.map .ok) := by
  have hy := Parser.yields_items (Parser.ofSource s)
  rw [Parser.items_ofSource, Source.fault_eq_none.mpr h] at hy
  simpa using hy

/-- Decoding leaves something of every word, so no word of a command is empty. -/
theorem noEmptyWord_of_words {ts : List Token} {c : Command}
    (h : ∀ bytes line, Token.word bytes line ∈ ts → bytes ≠ []) (hc : c ∈ commandsOf ts) :
    NoEmptyWord c := by
  obtain ⟨ws, hsub, hall, hgroup⟩ := exists_group_of_mem hc
  have hword : ∀ t ∈ ws, t.carried ≠ [] := by
    intro t ht
    cases t with
    | word bytes line => exact h bytes line (hsub ht)
    | boundary line => exact absurd (hall _ ht) (by simp [Token.isBoundary])
  unfold Command.ofGroup? at hgroup
  split at hgroup
  · rename_i name line params
    obtain rfl := by simpa using hgroup
    refine ⟨decode_ne_empty (hword _ List.mem_cons_self), ?_⟩
    intro param hp
    obtain ⟨t, ht, rfl⟩ := List.mem_map.mp hp
    exact decode_ne_empty (hword t (List.mem_cons_of_mem _ ht))
  · simp at hgroup

/-- No token is without bytes, so no word of a command is empty. -/
theorem noEmptyWord_of_mem {s : Source} {c : Command} (h : s.failure = none)
    (hc : c ∈ s.commands) : NoEmptyWord c := by
  refine noEmptyWord_of_words (fun bytes line hmem => ?_) hc
  rw [Source.tokens, h] at hmem
  exact Grammar.ne_nil_of_mem_tokens hmem

/-- Every script in a layout of some commands is parsed to these commands at their lines, however
the source delivers it. Every list of commands without empty words has a script; and the canonical
script of the commands of a source is parsed to the same names and parameters. -/
theorem parser_inverts_layout (source : Source) (clean : source.failure = none) :
    (∀ commands : List Command, Writes [] source.bytes commands →
      Calls.Yields Parser.next (Parser.ofSource source) (commands.map .ok)) ∧
    (∀ commands : List Command, (∀ c ∈ commands, NoEmptyWord c) →
      ∃ placed, Writes [] (print commands) placed ∧ placed.map words = commands.map words) ∧
    ∀ again : Source, again.failure = none →
      again.bytes = print (Parser.ofSource source).drain.commands →
      ∃ commands : List Command,
        Calls.Yields Parser.next (Parser.ofSource again) (commands.map .ok) ∧
        commands.map words = (Parser.ofSource source).drain.commands.map words := by
  refine ⟨?_, fun commands hc => writes_print hc [], ?_⟩
  · intro commands hw
    have hy := yields_of_clean clean
    rwa [commands_of_writes clean hw] at hy
  · intro again hagain hbytes
    rw [(Parser.drain_ofSource source).1] at hbytes ⊢
    obtain ⟨placed, hw, hwords⟩ := writes_print (fun c hc => noEmptyWord_of_mem clean hc) []
    rw [← hbytes] at hw
    have hy := yields_of_clean hagain
    rw [commands_of_writes hagain hw] at hy
    exact ⟨placed, hy, hwords⟩

/-- The round trip at a script in two chunks: an escaped space and an escaped newline inside names,
a character with a backslash between its bytes, a blank line, and no newline at the end. -/
theorem parser_inverts_layout_chunked :
    let first : Bytes := [0x61, backslash, space, 0x62] ++
      ([tab, space] ++ [0xC3, backslash, 0xA9] ++ [space])
    let last : Bytes := [0x78, backslash, newline] ++ ([space] ++ [0x79] ++ [])
    let source := Source.ofEvents
      [.data (first ++ [newline, space]), .data (newline :: tab :: last)]
    let commands : List Command := [⟨"a b", ["é"], 1⟩, ⟨"x\n", ["y"], 3⟩]
    source.failure = none ∧ Writes [] source.bytes commands ∧
      Calls.Yields Parser.next (Parser.ofSource source) (commands.map .ok) ∧
      ∃ again : List Command,
        Calls.Yields Parser.next (Parser.ofSource (.ofBytes (print commands))) (again.map .ok) ∧
        again.map words = commands.map words := by
  intro first last source commands
  have hab : encode "a b" = [0x61, space, 0x62] := by decide
  have he : encode "é" = [0xC3, 0xA9] := by decide
  have hx : encode "x\n" = [0x78, newline] := by decide
  have hy : encode "y" = [0x79] := by decide
  have hfirst : WritesCommand first "a b" ["é"] := by
    refine .intro (by decide) ?_ (.cons (by simp [Blanks]) (by decide) (by decide) ?_ (.nil ?_))
    · rw [hab]
      exact .plain (by decide) (.escaped (.plain (by decide) .nil))
    · rw [he]
      exact .plain (by decide) (.escaped .nil)
    · simp [Blanks]
  have hlast : WritesCommand last "x\n" ["y"] := by
    refine .intro (by decide) ?_ (.cons (by simp [Blanks]) (by decide) (by decide) ?_ (.nil ?_))
    · rw [hx]
      exact .plain (by decide) (.escaped .nil)
    · rw [hy]
      exact .plain (by decide) .nil
    · exact blanks_nil
  have hw : Writes []
      ([] ++ first ++ newline :: ([space] ++ newline :: ([tab] ++ last))) commands :=
    .command blanks_nil hfirst
      (.blankLine (by simp [Blanks]) (.lastCommand (by simp [Blanks]) hlast))
  have hd : (Parser.ofSource source).drain.commands = commands :=
    (Parser.drain_ofSource source).1.trans (commands_of_writes rfl hw)
  obtain ⟨hinv, -, hagain⟩ := parser_inverts_layout source rfl
  rw [hd] at hagain
  exact ⟨rfl, hw, hinv commands hw, hagain _ (Source.failure_ofBytes _) (Source.bytes_ofBytes _)⟩

end PageScript.Layout
