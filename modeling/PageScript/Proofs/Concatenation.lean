import PageScript.Proofs.LaterLines
import PageScript.Proofs.LayoutLexing
import PageScript.Proofs.Running

/-!
# Concatenation

A script that ends with its lines closed leaves the lexer where a script begins, on a later line.
What follows it gives the tokens and commands that it gives alone, that many lines later, and a run
over both is a run over the first and, if that succeeds, a run over the second.
-/
namespace PageScript
open Text (Bytes)
open Lexer (newline)
open Grammar (closed literal)

/-- Nothing, or a text whose last byte is a newline that is not escaped. -/
def ClosesLine (p : Bytes) : Prop :=
  p = [] ∨ ∃ d, p = d ++ [newline] ∧ literal p d.length = false

/-- The third source delivers what the first delivers and then what the second does, and ends as
the second does. Only what is delivered counts, not in which events. -/
structure Source.Joins (first second whole : Source) : Prop where
  clean : first.failure = none
  bytes : whole.bytes = first.bytes ++ second.bytes
  failure : whole.failure = second.failure

section First

variable {p : Bytes}

theorem escaped_of_not_literal {d : Bytes} (h : literal (d ++ [newline]) d.length = false) :
    (Lexer.feedAll d .initial).1.escaped = false := by
  rw [(Grammar.stands_length d).escaped, ← Grammar.literal_append d [newline], h]

/-- Behind an unescaped newline a lexer is as at the start of a script, but for its line. -/
theorem lineStart_of_closesLine (h : ClosesLine p) :
    Layout.LineStart p (Lexer.feedAll p .initial).1 := by
  obtain rfl | ⟨d, rfl, hl⟩ := h
  · exact Layout.lineStart_initial
  · exact (Layout.lineStart_initial.line_end (escaped_of_not_literal hl)).1

theorem behind_of_closesLine (h : ClosesLine p) :
    Lexer.Behind (p.count newline) .initial (Lexer.feedAll p .initial).1 := by
  have hs := lineStart_of_closesLine h
  exact ⟨hs.escaped, hs.line, hs.word, fun hw => absurd rfl hw⟩

/-- A boundary ends the tokens that closed lines complete. -/
theorem closed_of_closesLine (h : ClosesLine p) :
    closed p = [] ∨ ∃ ts line, closed p = ts ++ [.boundary line] := by
  obtain rfl | ⟨d, rfl, hl⟩ := h
  · exact .inl rfl
  · rw [← Grammar.feedAll_eq_closed,
      (Layout.lineStart_initial.line_end (escaped_of_not_literal hl)).2]
    exact .inr ⟨_, _, rfl⟩

theorem commandsOf_closed_append (h : ClosesLine p) (ys : List Token) :
    commandsOf (closed p ++ ys) = commandsOf (closed p) ++ commandsOf ys := by
  obtain hnil | ⟨ts, line, hts⟩ := closed_of_closesLine h
  · rw [hnil]
    rfl
  · rw [hts, commandsOf_append_of_boundary]

end First

namespace Source.Joins

variable {first second whole : Source}

theorem tokens_first (h : Joins first second whole) (hc : ClosesLine first.bytes) :
    first.tokens = closed first.bytes ++ [.boundary (1 + first.bytes.count newline)] := by
  have hs := lineStart_of_closesLine hc
  rw [tokens, h.clean]
  simp only [Grammar.tokens_eq_feedAll, Grammar.feedAll_eq_closed, Lexer.close]
  rw [Layout.openWord_of_nil hs.word, hs.line]
  rfl

theorem tokens_whole (h : Joins first second whole) (hc : ClosesLine first.bytes) :
    whole.tokens =
      closed first.bytes ++ second.tokens.map (.later (first.bytes.count newline)) := by
  obtain ⟨hb, ht⟩ := (behind_of_closesLine hc).feedAll second.bytes
  unfold tokens
  rw [h.failure, h.bytes]
  cases hf : second.failure with
  | none =>
    simp only [Grammar.tokens_eq_feedAll, Lexer.feedAll_append, ht, hb.close,
      Grammar.feedAll_eq_closed, List.map_append, List.append_assoc]
  | some e =>
    simp only [← Grammar.feedAll_eq_closed, Lexer.feedAll_append, ht]

theorem fault_whole (h : Joins first second whole) :
    whole.fault = second.fault.map (.later (first.bytes.count newline)) := by
  unfold fault
  rw [h.failure, h.bytes]
  cases second.failure with
  | none => rfl
  | some e =>
    simp only [Option.map_some, Grammar.lineAt_length, List.count_append, LineError.later,
      Option.some.injEq, LineError.mk.injEq, and_true]
    omega

theorem commands_first (h : Joins first second whole) (hc : ClosesLine first.bytes) :
    first.commands = commandsOf (closed first.bytes) := by
  have hnil : commandsOf [.boundary (1 + first.bytes.count newline)] = [] := rfl
  rw [commands, h.tokens_first hc, commandsOf_closed_append hc, hnil, List.append_nil]

theorem commands_whole (h : Joins first second whole) (hc : ClosesLine first.bytes) :
    whole.commands =
      first.commands ++ second.commands.map (.later (first.bytes.count newline)) := by
  rw [h.commands_first hc, commands, h.tokens_whole hc, commandsOf_closed_append hc,
    commandsOf_later]
  rfl

theorem fault_first (h : Joins first second whole) : first.fault = none :=
  fault_eq_none.mpr h.clean

theorem yields_tokens (h : Joins first second whole) (hc : ClosesLine first.bytes) :
    ∃ (tokens : List Token) (items : List (Except LineError Token)),
      Calls.Yields Tokenizer.next (.ofSource first)
        ((tokens ++ [Token.boundary (1 + first.bytes.count newline)]).map .ok) ∧
      Calls.Yields Tokenizer.next (.ofSource second) items ∧
      Calls.Yields Tokenizer.next (.ofSource whole)
        (tokens.map .ok ++
          items.map (LineError.laterItem Token.later (first.bytes.count newline))) := by
  have hfirst := Tokenizer.yields_items (.ofSource first)
  have hwhole := Tokenizer.yields_items (.ofSource whole)
  rw [Tokenizer.items_ofSource_eq, h.tokens_first hc, h.fault_first] at hfirst
  rw [Tokenizer.items_ofSource_eq, h.tokens_whole hc, h.fault_whole, List.map_append,
    List.append_assoc, ← LineError.map_laterItem, ← Tokenizer.items_ofSource_eq] at hwhole
  exact ⟨_, _, by simpa using hfirst, Tokenizer.yields_items _, hwhole⟩

theorem yields_commands (h : Joins first second whole) (hc : ClosesLine first.bytes) :
    ∃ (commands : List Command) (items : List (Except LineError Command)),
      Calls.Yields Parser.next (Parser.ofSource first) (commands.map .ok) ∧
      Calls.Yields Parser.next (Parser.ofSource second) items ∧
      Calls.Yields Parser.next (Parser.ofSource whole)
        (commands.map .ok ++
          items.map (LineError.laterItem Command.later (first.bytes.count newline))) := by
  have hfirst := Parser.yields_items (Parser.ofSource first)
  have hwhole := Parser.yields_items (Parser.ofSource whole)
  rw [Parser.items_ofSource, h.fault_first] at hfirst
  rw [Parser.items_ofSource, h.commands_whole hc, h.fault_whole, List.map_append,
    List.append_assoc, ← LineError.map_laterItem, ← Parser.items_ofSource] at hwhole
  exact ⟨_, _, by simpa using hfirst, Parser.yields_items _, hwhole⟩

end Source.Joins

namespace Registry

variable {σ : Type} {first second whole : Source}

/-- The run over both does what the dispatch of the second script's commands does behind that of
the first one's. -/
theorem sweep_whole (r : Registry σ) (h : Source.Joins first second whole)
    (hc : ClosesLine first.bytes) (s : σ) :
    let k := first.bytes.count newline
    let before := r.sweep (endResult first.fault) first.commands s
    let both := r.sweep (endResult whole.fault) whole.commands s
    (∀ e, before.result = .error e → both = before) ∧
      (before.result = .ok () →
        let rest := r.sweep (endResult second.fault) second.commands before.shared
        both = ⟨before.called ++ rest.called.map (.later k), rest.result.mapError (.later k),
          rest.shared⟩) := by
  intro k before both
  have hboth : both = r.sweep ((endResult second.fault).mapError (.later k))
      (first.commands ++ second.commands.map (.later k)) s := by
    rw [← endResult_later, ← h.fault_whole, ← h.commands_whole hc]
  have hbefore : before = r.sweep (.ok ()) first.commands s := by
    simp only [before, h.fault_first, endResult]
  obtain ⟨later, hsplit, hshared, hstop⟩ := r.sweep_stops (.ok ()) first.commands s
  rw [← hbefore] at hsplit hshared hstop
  constructor
  · intro e he
    rw [he] at hstop
    calc both = ⟨before.called, .error e, r.replay before.called s⟩ := by
          rw [hboth, hsplit, hstop.sweep_append]
      _ = before := by rw [← he, ← hshared]
  · intro hok
    rw [hok] at hstop
    obtain ⟨rfl, haccepts⟩ := hstop.accepts
    rw [List.append_nil] at hsplit
    rw [hboth, hsplit, sweep_of_accepts r _ haccepts, sweep_later, ← hshared]

theorem run_whole (r : Registry σ) (h : Source.Joins first second whole)
    (hc : ClosesLine first.bytes) (s : σ) :
    let k := first.bytes.count newline
    let before := r.run first s
    let both := r.run whole s
    (∀ e, before.result = .error e →
      both.result = .error e ∧ both.shared = before.shared ∧
        both.dispatched = before.dispatched) ∧
      (before.result = .ok () →
        let rest := r.run second before.shared
        both.result = rest.result.mapError (.later k) ∧ both.shared = rest.shared ∧
          both.dispatched = before.dispatched ++
            rest.dispatched.map fun (name, line, params) => (name, line + k, params)) := by
  intro k before both
  obtain ⟨hfr, hfs, hfd⟩ := r.run_eq_sweep first s
  obtain ⟨hwr, hws, hwd⟩ := r.run_eq_sweep whole s
  obtain ⟨hstopped, hon⟩ := r.sweep_whole h hc s
  constructor
  · intro e he
    have hw := hstopped e (hfr.symm.trans he)
    rw [hw] at hwr hws hwd
    exact ⟨hwr.trans (hfr.symm.trans he), hws.trans hfs.symm, hwd.trans hfd.symm⟩
  · intro hok rest
    obtain ⟨hsr, hss, hsd⟩ := r.run_eq_sweep second before.shared
    have hw := hon (hfr.symm.trans hok)
    simp only [← hfs] at hw
    rw [hw] at hwr hws hwd
    refine ⟨?_, hws.trans hss.symm, ?_⟩
    · rw [hwr, ← hsr]
    · rw [hwd, hfd, hsd, List.map_append, List.map_map, List.map_map]
      rfl

end Registry

/-- A script whose lines are closed can be run apart from what follows it. The tokens of both
together are those of the first without its last boundary and then those of the second, the commands
are those of both, and a run goes on from the state that the first script left if that succeeded;
all lines of the second, that of its error too, are later by the newlines of the first. -/
theorem concatenation_shifts_lines {first second whole : Source}
    (h : Source.Joins first second whole) (hc : ClosesLine first.bytes) :
    let k := first.bytes.count newline
    (∃ (tokens : List Token) (items : List (Except LineError Token)),
      Calls.Yields Tokenizer.next (.ofSource first)
        ((tokens ++ [Token.boundary (1 + k)]).map .ok) ∧
      Calls.Yields Tokenizer.next (.ofSource second) items ∧
      Calls.Yields Tokenizer.next (.ofSource whole)
        (tokens.map .ok ++ items.map (LineError.laterItem Token.later k))) ∧
    (∃ (commands : List Command) (items : List (Except LineError Command)),
      Calls.Yields Parser.next (Parser.ofSource first) (commands.map .ok) ∧
      Calls.Yields Parser.next (Parser.ofSource second) items ∧
      Calls.Yields Parser.next (Parser.ofSource whole)
        (commands.map .ok ++ items.map (LineError.laterItem Command.later k))) ∧
    ∀ {σ : Type} (registry : Registry σ) (s : σ),
      let before := registry.run first s
      let both := registry.run whole s
      (∀ e, before.result = .error e →
        both.result = .error e ∧ both.shared = before.shared ∧
          both.dispatched = before.dispatched) ∧
      (before.result = .ok () →
        let rest := registry.run second before.shared
        both.result = rest.result.mapError (.later k) ∧ both.shared = rest.shared ∧
          both.dispatched = before.dispatched ++
            rest.dispatched.map fun (name, line, params) => (name, line + k, params)) :=
  ⟨h.yields_tokens hc, h.yields_commands hc, fun registry s => registry.run_whole h hc s⟩

/-- Two scripts in chunks that do not end where the first does: it ends behind a newline with a
literal backslash before it, and the second fails behind an escaped newline. -/
theorem concatenation_shifts_lines_chunked :
    let first := Source.ofBytes
      ([0x61, Lexer.backslash, newline, newline, 0x62, Lexer.backslash, Lexer.backslash] ++
        [newline])
    let second := Source.ofEvents
      [.data [0x63, Lexer.space, Lexer.backslash, newline], .failed (.plain .timedOut)]
    let whole := Source.ofEvents
      [.data [0x61, Lexer.backslash], .data [newline, newline, 0x62], .failed (.plain .interrupted),
        .data [Lexer.backslash, Lexer.backslash, newline, 0x63, Lexer.space],
        .data [Lexer.backslash, newline], .failed (.plain .timedOut), .data [0x64]]
    Source.Joins first second whole ∧ ClosesLine first.bytes ∧
      (∃ (tokens : List Token) (items : List (Except LineError Token)),
        Calls.Yields Tokenizer.next (.ofSource first) ((tokens ++ [Token.boundary 4]).map .ok) ∧
        Calls.Yields Tokenizer.next (.ofSource second) items ∧
        Calls.Yields Tokenizer.next (.ofSource whole)
          (tokens.map .ok ++ items.map (LineError.laterItem Token.later 3))) ∧
      ∀ {σ : Type} (registry : Registry σ) (s : σ),
        (registry.run first s).result = .ok () →
          (registry.run whole s).result =
            (registry.run second (registry.run first s).shared).result.mapError (.later 3) := by
  intro first second whole
  let d : Bytes := [0x61, Lexer.backslash, newline, newline, 0x62, Lexer.backslash, Lexer.backslash]
  have hj : Source.Joins first second whole := ⟨by decide, by decide, by decide⟩
  have hc : ClosesLine first.bytes := .inr ⟨d, rfl, by decide⟩
  obtain ⟨htokens, -, hrun⟩ := concatenation_shifts_lines hj hc
  exact ⟨hj, hc, htokens, fun registry s hok => ((hrun registry s).2 hok).1⟩

end PageScript
