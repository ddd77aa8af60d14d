import PageScript.Proofs.RunBehindSteps

namespace PageScript
open Text (Bytes)
open Lexer (newline)
open Grammar (role)

variable {σ : Type}

/-- The first line on which something behind the token can stand. -/
def Token.onward : Token → ℕ
  | word _ line => line
  | boundary line => line + 1

theorem Token.line_le_onward (t : Token) : t.line ≤ t.onward := by
  cases t <;> simp [line, onward]

/-- Tokens on lines between two bounds, each where those before it allow it. -/
structure Ordered (low : ℕ) (ts : List Token) (high : ℕ) : Prop where
  bounds : low ≤ high
  pairwise : ts.Pairwise fun a b => a.onward ≤ b.line
  low_le : ∀ t ∈ ts, low ≤ t.line
  le_high : ∀ t ∈ ts, t.onward ≤ high

section Ordered

variable {low mid high : ℕ} {xs ys ts : List Token} {t : Token}

theorem ordered_nil (h : low ≤ high) : Ordered low [] high :=
  ⟨h, .nil, by simp, by simp⟩

theorem ordered_singleton (hlow : low ≤ t.line) (hhigh : t.onward ≤ high) :
    Ordered low [t] high := by
  have ht := t.line_le_onward
  exact ⟨by omega, by simp, by simpa using hlow, by simpa using hhigh⟩

theorem Ordered.append (hx : Ordered low xs mid) (hy : Ordered mid ys high) :
    Ordered low (xs ++ ys) high := by
  refine ⟨hx.bounds.trans hy.bounds, ?_, ?_, ?_⟩
  · refine List.pairwise_append.mpr ⟨hx.pairwise, hy.pairwise, fun a ha b hb => ?_⟩
    exact (hx.le_high a ha).trans (hy.low_le b hb)
  · intro t ht
    rcases List.mem_append.mp ht with ht | ht
    · exact hx.low_le t ht
    · exact hx.bounds.trans (hy.low_le t ht)
  · intro t ht
    rcases List.mem_append.mp ht with ht | ht
    · exact (hx.le_high t ht).trans hy.bounds
    · exact hy.le_high t ht

theorem Ordered.mono {high' : ℕ} (h : Ordered low ts high) (hle : high ≤ high') :
    Ordered low ts high' :=
  ⟨h.bounds.trans hle, h.pairwise, h.low_le, fun t ht => (h.le_high t ht).trans hle⟩

end Ordered

namespace Lexer

/-- The least line of a token to come: that of the open word, or else the line being read. -/
def floor (lx : Lexer) : ℕ := if lx.word = [] then lx.line else lx.wordLine

theorem floor_of_nil {lx : Lexer} (h : lx.word = []) : lx.floor = lx.line := by
  simp [floor, h]

theorem ordered_openWord {lx : Lexer} (h : lx.floor ≤ lx.line) :
    Ordered lx.floor lx.openWord lx.line := by
  by_cases hw : lx.word = []
  · have ho : lx.openWord = [] := by simp [openWord, hw]
    rw [ho]
    exact ordered_nil h
  · have ho : lx.openWord = [.word lx.word.reverse lx.wordLine] := by simp [openWord, hw]
    have hf : lx.floor = lx.wordLine := by simp [floor, hw]
    rw [ho]
    rw [hf] at h ⊢
    exact ordered_singleton le_rfl h

theorem ordered_boundary (line : ℕ) : Ordered line [.boundary line] (line + 1) :=
  ordered_singleton le_rfl le_rfl

/-- A byte completes tokens between the least line before it and the least line behind it. -/
theorem ordered_feed {lx : Lexer} (h : lx.floor ≤ lx.line) (b : UInt8) :
    Ordered lx.floor (lx.feed b).2 (lx.feed b).1.floor ∧
      (lx.feed b).1.floor ≤ (lx.feed b).1.line := by
  cases hr : role lx.escaped b with
  | marker =>
    rw [Grammar.feed_of_marker hr]
    exact ⟨ordered_nil le_rfl, h⟩
  | blank =>
    rw [Grammar.feed_of_blank hr]
    have hf : lx.drop.floor = lx.line := floor_of_nil rfl
    rw [hf]
    exact ⟨ordered_openWord h, le_rfl⟩
  | lineEnd =>
    rw [Grammar.feed_of_lineEnd hr]
    have hf : lx.drop.advance.floor = lx.line + 1 := floor_of_nil rfl
    rw [hf]
    exact ⟨(ordered_openWord h).append (ordered_boundary lx.line), le_rfl⟩
  | content =>
    obtain ⟨hw, hl, ht⟩ := Grammar.feed_of_content hr
    have hf : (lx.feed b).1.floor = lx.floor := by
      rw [floor, hw, if_neg (List.cons_ne_nil b lx.word), hl, floor]
    have hline : lx.line ≤ (lx.feed b).1.line := by
      rw [Grammar.feed_line]
      split_ifs <;> omega
    rw [ht, hf]
    exact ⟨ordered_nil le_rfl, h.trans hline⟩

theorem ordered_feedAll (bs : Bytes) {lx : Lexer} (h : lx.floor ≤ lx.line) :
    Ordered lx.floor (lx.feedAll bs).2 (lx.feedAll bs).1.floor ∧
      (lx.feedAll bs).1.floor ≤ (lx.feedAll bs).1.line := by
  induction bs generalizing lx with
  | nil => exact ⟨ordered_nil le_rfl, h⟩
  | cons b bs ih =>
    obtain ⟨hfirst, hfloor⟩ := ordered_feed h b
    obtain ⟨hrest, hlast⟩ := ih hfloor
    rw [feedAll_cons]
    exact ⟨hfirst.append hrest, hlast⟩

end Lexer

namespace Source

def lastLine (s : Source) : ℕ := 1 + s.bytes.count newline

theorem fault_eq (s : Source) : s.fault = s.failure.map fun e => ⟨s.lastLine, .io e⟩ := by
  rw [fault, Grammar.lineAt_length, lastLine]

/-- All items but the last stand before the last line, and the last one, which is a boundary or the
failure, on it. -/
theorem exists_ordered (s : Source) :
    ∃ ts, Ordered 1 ts s.lastLine ∧
      s.tokens = ts ++ (if s.failure = none then [.boundary s.lastLine] else []) := by
  have hinitial : Lexer.initial.floor ≤ Lexer.initial.line := le_rfl
  obtain ⟨hall, hfloor⟩ := Lexer.ordered_feedAll s.bytes hinitial
  have hline : (Lexer.feedAll s.bytes .initial).1.line = s.lastLine := by
    rw [(Grammar.stands_length s.bytes).line, Grammar.lineAt_length, lastLine]
  have hword := Lexer.ordered_openWord hfloor
  rw [hline] at hfloor hword
  unfold tokens
  cases s.failure with
  | none =>
    refine ⟨_, hall.append hword, ?_⟩
    simp [Grammar.tokens_eq_feedAll, Lexer.close, hline]
  | some e => exact ⟨_, hall.mono hfloor, by simp [Grammar.feedAll_eq_closed]⟩

end Source

theorem Ordered.tail {low high line : ℕ} {ws rest : List Token}
    (h : Ordered low (ws ++ .boundary line :: rest) high) : Ordered (line + 1) rest high := by
  have hpair := (List.pairwise_cons.mp (List.pairwise_append.mp h.pairwise).2.1)
  refine ⟨h.le_high (.boundary line) (by simp), hpair.2, hpair.1, fun t ht => ?_⟩
  exact h.le_high t (by simp [ht])

/-- The command of a group stands between the bound below its words and its boundary. -/
theorem Ordered.line_of_group {low high line : ℕ} {ws rest : List Token} {c : Command}
    (h : Ordered low (ws ++ .boundary line :: rest) high) (hc : Command.ofGroup? ws = some c) :
    low ≤ c.line ∧ c.line ≤ line := by
  cases ws with
  | nil => cases hc
  | cons t ws =>
    cases t with
    | boundary => cases hc
    | word bytes first =>
      obtain rfl := Option.some.inj hc
      have hlow := h.low_le (.word bytes first) (by simp)
      have hpair := (List.pairwise_cons.mp h.pairwise).1 (.boundary line) (by simp)
      exact ⟨hlow, hpair⟩

/-- Every command begins on a later line than the commands before it, and below the bound. -/
theorem Ordered.commandsOf {low high : ℕ} {ts : List Token} (h : Ordered low ts high) :
    ((commandsOf ts).map Command.line).Pairwise (· < ·) ∧
      ∀ c ∈ commandsOf ts, low ≤ c.line ∧ c.line < high := by
  induction ts using groups_induction generalizing low with
  | ended ws hws => simp [commandsOf_allWords hws]
  | closed ws line rest hws ih =>
    have hline : line + 1 ≤ high := h.le_high (.boundary line) (by simp)
    have hlow : low ≤ line := h.low_le (.boundary line) (by simp)
    obtain ⟨hpair, hbounds⟩ := ih h.tail
    rw [commandsOf_boundary hws]
    cases hc : Command.ofGroup? ws with
    | none =>
      refine ⟨hpair, fun c hm => ?_⟩
      have hb := hbounds c hm
      omega
    | some first =>
      obtain ⟨hfirst, hlast⟩ := h.line_of_group hc
      refine ⟨List.pairwise_cons.mpr ⟨fun l hl => ?_, hpair⟩, fun c hm => ?_⟩
      · obtain ⟨c, hm, rfl⟩ := List.mem_map.mp hl
        have hb := hbounds c hm
        omega
      · rcases List.mem_cons.mp hm with rfl | hm
        · omega
        · have hb := hbounds c hm
          omega

namespace Source

def commandLines (s : Source) : List ℕ :=
  s.commands.map Command.line ++ s.fault.toList.map LineError.line

theorem pairwise_commandLines (s : Source) : s.commandLines.Pairwise (· < ·) := by
  obtain ⟨ts, hordered, htokens⟩ := s.exists_ordered
  unfold commandLines commands
  rw [htokens, s.fault_eq]
  cases s.failure with
  | none =>
    obtain ⟨hpair, -⟩ := (hordered.append (Lexer.ordered_boundary s.lastLine)).commandsOf
    simpa using hpair
  | some e =>
    obtain ⟨hpair, hbounds⟩ := hordered.commandsOf
    have hlast : ∀ c ∈ commandsOf ts, c.line < s.lastLine := fun c hc => (hbounds c hc).2
    simpa [List.pairwise_append, hpair, LineError.io] using hlast

def tokenLines (s : Source) : List ℕ :=
  s.tokens.map Token.line ++ s.fault.toList.map LineError.line

theorem tokenLines_eq (s : Source) :
    ∃ ts, Ordered 1 ts s.lastLine ∧ s.tokenLines = ts.map Token.line ++ [s.lastLine] := by
  obtain ⟨ts, hordered, htokens⟩ := s.exists_ordered
  refine ⟨ts, hordered, ?_⟩
  unfold tokenLines
  rw [htokens, s.fault_eq]
  cases s.failure <;> simp [Token.line]

theorem pairwise_tokenLines (s : Source) : s.tokenLines.Pairwise (· ≤ ·) := by
  obtain ⟨ts, hordered, hlines⟩ := s.tokenLines_eq
  rw [hlines, List.pairwise_append, List.pairwise_map]
  refine ⟨hordered.pairwise.imp fun {a b} hab => a.line_le_onward.trans hab, by simp, ?_⟩
  intro l hl last hlast
  obtain ⟨t, ht, rfl⟩ := List.mem_map.mp hl
  rw [List.mem_singleton.mp hlast]
  exact t.line_le_onward.trans (hordered.le_high t ht)

theorem bounds_tokenLines {s : Source} {l : ℕ} (h : l ∈ s.tokenLines) :
    1 ≤ l ∧ l ≤ s.lastLine := by
  obtain ⟨ts, hordered, hlines⟩ := s.tokenLines_eq
  rw [hlines] at h
  rcases List.mem_append.mp h with h | h
  · obtain ⟨t, ht, rfl⟩ := List.mem_map.mp h
    exact ⟨hordered.low_le t ht, t.line_le_onward.trans (hordered.le_high t ht)⟩
  · rw [List.mem_singleton.mp h]
    exact ⟨hordered.bounds, le_rfl⟩

theorem pairwise_boundaries (s : Source) :
    ((s.tokens.filter Token.isBoundary).map Token.line).Pairwise (· < ·) := by
  obtain ⟨ts, hordered, htokens⟩ := s.exists_ordered
  have hall : ∃ high, Ordered 1 s.tokens high := by
    rw [htokens]
    split_ifs
    · exact ⟨_, hordered.append (Lexer.ordered_boundary s.lastLine)⟩
    · exact ⟨_, by simpa using hordered⟩
  obtain ⟨high, h⟩ := hall
  rw [List.pairwise_map, List.pairwise_filter]
  refine h.pairwise.imp fun {a b} hab ha _ => ?_
  cases a with
  | word => cases ha
  | boundary line => exact hab

end Source

/-- The line that a step tells: that of the command that ran, or that of the error. -/
def Outcome.line? : Outcome → Option ℕ
  | .ok line => line
  | .error e => some e.line

def Parser.itemLine : Except LineError Command → ℕ
  | .ok c => c.line
  | .error e => e.line

theorem Parser.map_itemLine (s : Source) :
    (ofSource s).items.map itemLine = s.commandLines := by
  rw [items_ofSource, List.map_append, List.map_map, List.map_map]
  rfl

namespace Runner

/-- The lines of the items that a run can still come to. -/
def linesLeft (r : Runner σ) : List ℕ :=
  if r.state.isTerminal then [] else r.commands.items.map Parser.itemLine

theorem linesLeft_of_terminal {r : Runner σ} (h : r.state.isTerminal = true) :
    r.linesLeft = [] := by
  simp [linesLeft, h]

theorem linesLeft_of_item {r : Runner σ} {item : Except LineError Command}
    (ht : r.state.isTerminal = false) (hi : r.commands.turn.item = some item) :
    r.linesLeft = Parser.itemLine item :: r.commands.turn.parser.items.map Parser.itemLine := by
  have hitems := Parser.items_turn r.commands
  rw [hi] at hitems
  simp [linesLeft, ht, hitems]

/-- A step tells the first of the lines that are left, if any, and leaves the others or none. -/
theorem linesLeft_step (r : Runner σ) (s : σ) :
    (Outcome.line? (r.step s).outcome).toList ++ (r.step s).runner.linesLeft <+: r.linesLeft := by
  cases ht : r.state.isTerminal with
  | true =>
    rw [step_of_terminal ht]
    exact List.prefix_refl _
  | false =>
    cases hi : r.commands.turn.item with
    | none =>
      rw [step_of_none ht s hi, linesLeft_of_terminal rfl]
      exact List.nil_prefix
    | some item =>
      rw [linesLeft_of_item ht hi]
      cases item with
      | error e =>
        rw [step_of_error ht s hi, linesLeft_of_terminal rfl]
        exact List.prefix_append [e.line] _
      | ok c =>
        cases hl : r.registry.lookup c.name with
        | none =>
          rw [step_of_unknown ht s hi hl, linesLeft_of_terminal rfl]
          exact List.prefix_append [c.line] _
        | some handler =>
          rcases hc : handler.call c.params s with ⟨result, t⟩
          cases result with
          | error e =>
            rw [step_of_refused ht hi hl hc, linesLeft_of_terminal rfl]
            exact List.prefix_append [c.line] _
          | ok =>
            rw [step_of_accepted ht hi hl hc]
            exact List.prefix_refl _

/-- What the first steps tell and what is left are together a beginning of all lines. -/
theorem lines_outcomes (r : Runner σ) (s : σ) (n : ℕ) :
    (r.outcomes s n).filterMap Outcome.line? ++ (r.after s n).1.linesLeft <+: r.linesLeft := by
  induction n with
  | zero => exact List.prefix_refl _
  | succ n ih =>
    have hstep := linesLeft_step (r.after s n).1 (r.after s n).2
    have hone : [(r.stepAt s n).outcome].filterMap Outcome.line? =
        (Outcome.line? (r.stepAt s n).outcome).toList := by
      cases h : Outcome.line? (r.stepAt s n).outcome <;> simp [h]
    rw [outcomes_succ, List.filterMap_append, hone, List.append_assoc, after_succ]
    exact ((List.prefix_append_right_inj _).mpr hstep).trans ih

theorem pairwise_outcomes (registry : Registry σ) (source : Source) (s : σ) (n : ℕ) :
    (((ofSource registry source).outcomes s n).filterMap Outcome.line?).Pairwise (· < ·) := by
  have hlines := lines_outcomes (ofSource registry source) s n
  have hall : (ofSource registry source).linesLeft = source.commandLines :=
    Parser.map_itemLine source
  rw [hall] at hlines
  exact source.pairwise_commandLines.sublist
    ((List.sublist_append_left _ _).trans hlines.sublist)

theorem mem_outcomes {r : Runner σ} {s : σ} {n : ℕ} {o : Outcome} :
    o ∈ r.outcomes s n ↔ ∃ i < n, (r.stepAt s i).outcome = o := by
  simp [outcomes]

/-- An error among the outcomes of steps stands on a later line than all commands that ran. -/
theorem lt_of_error_mem {registry : Registry σ} {source : Source} {s : σ} {n line : ℕ}
    {e : LineError} (he : .error e ∈ (ofSource registry source).outcomes s n)
    (hline : .ok (some line) ∈ (ofSource registry source).outcomes s n) : line < e.line := by
  have hpair := pairwise_outcomes registry source s n
  obtain ⟨lines, tail, blamed, h⟩ := exists_account registry source s n
  rw [h.mem_iff rfl] at he
  -- nothing in the tail tells of a command that ran
  have hmem : line ∈ lines := by
    rw [h.outcomes_eq, List.mem_append] at hline
    rcases hline with hl | hl
    · simpa using hl
    · have hcount := List.countP_eq_zero.mp h.ends.countP_ran _ hl
      simp [Outcome.ran] at hcount
  rw [h.outcomes_eq, List.filterMap_append, List.pairwise_append] at hpair
  refine hpair.2.2 line ?_ e.line (List.mem_filterMap.mpr ⟨_, he, rfl⟩)
  exact List.mem_filterMap.mpr ⟨_, List.mem_map.mpr ⟨line, hmem, rfl⟩, rfl⟩

theorem lt_of_run_error {registry : Registry σ} {source : Source} {s : σ} {n line : ℕ}
    {e : LineError} (he : (registry.run source s).result = .error e)
    (hline : .ok (some line) ∈ (ofSource registry source).outcomes s n) : line < e.line := by
  obtain ⟨m, hm⟩ := exists_outcome_of_run he
  obtain ⟨i, hi, ho⟩ := mem_outcomes.mp hline
  have hfar : ∀ {j o}, j < max n (m + 1) → ((ofSource registry source).stepAt s j).outcome = o →
      o ∈ (ofSource registry source).outcomes s (max n (m + 1)) :=
    fun hj ho => mem_outcomes.mpr ⟨_, hj, ho⟩
  exact lt_of_error_mem (hfar (by omega) hm) (hfar (by omega) ho)

end Runner

/-- Lines order all that comes of a source. The items of the tokenizer stand on lines that never go
back, from the first line to that of the end; boundaries stand on different lines, commands begin
on different lines, each later than those before, and a failure to read is on a later line than any
command. So the lines that the steps of a run tell increase, and the error that ends it is behind
all commands that ran. -/
theorem lines_order_run (source : Source) :
    let last := 1 + source.bytes.count newline
    ∃ (tokens : List Token) (commands : List Command) (fault : Option LineError),
      Calls.Yields Tokenizer.next (.ofSource source)
        (tokens.map .ok ++ fault.toList.map .error) ∧
      Calls.Yields Parser.next (Parser.ofSource source)
        (commands.map .ok ++ fault.toList.map .error) ∧
      fault = source.failure.map (fun e => ⟨last, .io e⟩) ∧
      (tokens.map Token.line ++ fault.toList.map LineError.line).Pairwise (· ≤ ·) ∧
      (∀ line ∈ tokens.map Token.line ++ fault.toList.map LineError.line,
        1 ≤ line ∧ line ≤ last) ∧
      ((tokens.filter Token.isBoundary).map Token.line).Pairwise (· < ·) ∧
      (commands.map Command.line ++ fault.toList.map LineError.line).Pairwise (· < ·) ∧
      ∀ {σ : Type} (registry : Registry σ) (s : σ),
        let start := Runner.ofSource registry source
        (∀ n, ((start.outcomes s n).filterMap Outcome.line?).Pairwise (· < ·)) ∧
        ∀ e, (registry.run source s).result = .error e →
          ∀ n line, .ok (some line) ∈ start.outcomes s n → line < e.line := by
  intro last
  have htokens := Tokenizer.yields_items (.ofSource source)
  have hcommands := Parser.yields_items (Parser.ofSource source)
  rw [Tokenizer.items_ofSource_eq] at htokens
  rw [Parser.items_ofSource] at hcommands
  refine ⟨source.tokens, source.commands, source.fault, htokens, hcommands, source.fault_eq,
    source.pairwise_tokenLines, fun line hl => Source.bounds_tokenLines hl,
    source.pairwise_boundaries, source.pairwise_commandLines, fun registry s => ?_⟩
  exact ⟨Runner.pairwise_outcomes registry source s,
    fun e he n line hl => Runner.lt_of_run_error he hl⟩

end PageScript
