import PageScript.Proofs.Dispatch
import PageScript.Proofs.GrammarLexing
import PageScript.Proofs.Grouping

namespace PageScript
open Text (Bytes)
open Text.Utf8 (decode)
open Grammar (role)

def Token.later (k : ℕ) : Token → Token
  | word bytes line => word bytes (line + k)
  | boundary line => boundary (line + k)

def Command.later (k : ℕ) (c : Command) : Command := { c with line := c.line + k }

/-- Only the line of the error itself changes, not what its cause tells. -/
def LineError.later (k : ℕ) (e : LineError) : LineError := { e with line := e.line + k }

/-- An item of a stream, or the error that ends it, some lines later. -/
def LineError.laterItem {α : Type} (later : ℕ → α → α) (k : ℕ) (item : Except LineError α) :
    Except LineError α :=
  (item.map (later k)).mapError (.later k)

theorem LineError.map_laterItem {α : Type} (later : ℕ → α → α) (k : ℕ) (xs : List α)
    (e : Option LineError) :
    (xs.map Except.ok ++ e.toList.map Except.error).map (laterItem later k) =
      (xs.map (later k)).map Except.ok ++ (e.map (LineError.later k)).toList.map Except.error := by
  cases e <;> simp [laterItem, Except.map, Except.mapError, Function.comp_def]

theorem Token.isBoundary_later (k : ℕ) (t : Token) : (t.later k).isBoundary = t.isBoundary := by
  cases t <;> rfl

theorem Token.carried_later (k : ℕ) (t : Token) : (t.later k).carried = t.carried := by
  cases t <;> rfl

namespace Lexer

/-- The second lexer stands where the first one does, some lines later. The line of the word counts
only while a word is open. -/
structure Behind (k : ℕ) (lx ly : Lexer) : Prop where
  escaped : ly.escaped = lx.escaped
  line : ly.line = lx.line + k
  word : ly.word = lx.word
  wordLine : lx.word ≠ [] → ly.wordLine = lx.wordLine + k

variable {k : ℕ} {lx ly : Lexer}

theorem Behind.openWord (h : Behind k lx ly) : ly.openWord = lx.openWord.map (.later k) := by
  by_cases hw : lx.word = []
  · simp [Lexer.openWord, h.word, hw]
  · simp [Lexer.openWord, h.word, hw, h.wordLine hw, Token.later]

theorem Behind.close (h : Behind k lx ly) : ly.close = lx.close.map (.later k) := by
  simp [Lexer.close, h.openWord, h.line, Token.later]

/-- One byte keeps the distance and completes the same tokens, as many lines later. -/
theorem Behind.feed (h : Behind k lx ly) (b : UInt8) :
    Behind k (lx.feed b).1 (ly.feed b).1 ∧ (ly.feed b).2 = (lx.feed b).2.map (.later k) := by
  have hesc : (ly.feed b).1.escaped = (lx.feed b).1.escaped := by
    rw [Grammar.feed_escaped, Grammar.feed_escaped, h.escaped]
  have hline : (ly.feed b).1.line = (lx.feed b).1.line + k := by
    rw [Grammar.feed_line, Grammar.feed_line, h.line]
    split_ifs <;> omega
  have hrole : ∀ {r}, role lx.escaped b = r → role ly.escaped b = r := fun hr => by
    rwa [h.escaped]
  cases hr : role lx.escaped b with
  | marker =>
    rw [Grammar.feed_of_marker hr, Grammar.feed_of_marker (hrole hr)] at hesc hline ⊢
    exact ⟨⟨hesc, hline, h.word, h.wordLine⟩, rfl⟩
  | blank =>
    rw [Grammar.feed_of_blank hr, Grammar.feed_of_blank (hrole hr)] at hesc hline ⊢
    exact ⟨⟨hesc, hline, rfl, fun hw => absurd rfl hw⟩, h.openWord⟩
  | lineEnd =>
    rw [Grammar.feed_of_lineEnd hr, Grammar.feed_of_lineEnd (hrole hr)] at hesc hline ⊢
    refine ⟨⟨hesc, hline, rfl, fun hw => absurd rfl hw⟩, ?_⟩
    simp [h.openWord, h.line, Token.later]
  | content =>
    obtain ⟨hw, hl, ht⟩ := Grammar.feed_of_content hr
    obtain ⟨hw', hl', ht'⟩ := Grammar.feed_of_content (hrole hr)
    refine ⟨⟨hesc, hline, by rw [hw, hw', h.word], fun _ => ?_⟩, by rw [ht, ht']; rfl⟩
    rw [hl, hl', h.word, h.line]
    split_ifs with hn
    · rfl
    · exact h.wordLine hn

theorem Behind.feedAll (h : Behind k lx ly) (bs : Bytes) :
    Behind k (lx.feedAll bs).1 (ly.feedAll bs).1 ∧
      (ly.feedAll bs).2 = (lx.feedAll bs).2.map (.later k) := by
  induction bs generalizing lx ly with
  | nil => exact ⟨h, rfl⟩
  | cons b bs ih =>
    obtain ⟨hb, ht⟩ := h.feed b
    obtain ⟨hbs, hts⟩ := ih hb
    rw [feedAll_cons, feedAll_cons]
    exact ⟨hbs, by rw [ht, hts, List.map_append]⟩

end Lexer

theorem AllWords.later {ws : List Token} (h : AllWords ws) (k : ℕ) :
    AllWords (ws.map (.later k)) := by
  intro t ht
  obtain ⟨u, hu, rfl⟩ := List.mem_map.mp ht
  rw [Token.isBoundary_later, h u hu]

theorem Command.ofGroup?_later (k : ℕ) (ws : List Token) :
    ofGroup? (ws.map (.later k)) = (ofGroup? ws).map (.later k) := by
  cases ws with
  | nil => rfl
  | cons t ws =>
    cases t with
    | boundary line => rfl
    | word bytes line =>
      have hp : ((ws.map (Token.later k)).map fun t => decode t.carried) =
          ws.map fun t => decode t.carried := by
        simp [Function.comp_def, Token.carried_later]
      rw [List.map_cons, Token.later, ofGroup?, ofGroup?, hp]
      rfl

theorem commandsOf_later (k : ℕ) (ts : List Token) :
    commandsOf (ts.map (.later k)) = (commandsOf ts).map (.later k) := by
  induction ts using groups_induction with
  | ended ws hws => rw [commandsOf_allWords hws, commandsOf_allWords (hws.later k)]; rfl
  | closed ws line ts hws ih =>
    rw [List.map_append, List.map_cons, Token.later, commandsOf_boundary (hws.later k),
      commandsOf_boundary hws, ih, Command.ofGroup?_later, List.map_append]
    cases Command.ofGroup? ws <;> rfl

/-- Behind a boundary a list of tokens can be cut without changing its commands. -/
theorem commandsOf_append_of_boundary (xs : List Token) (line : ℕ) (ys : List Token) :
    commandsOf (xs ++ [.boundary line] ++ ys) =
      commandsOf (xs ++ [.boundary line]) ++ commandsOf ys := by
  induction xs using groups_induction with
  | ended ws hws =>
    have hnil : commandsOf [] = [] := rfl
    rw [List.append_assoc, List.singleton_append, commandsOf_boundary hws, commandsOf_boundary hws,
      hnil, List.append_nil]
  | closed ws l rest hws ih =>
    simp only [List.append_assoc, List.cons_append] at ih ⊢
    rw [commandsOf_boundary hws, commandsOf_boundary hws, ih, List.append_assoc]

namespace Registry

variable {σ : Type}

theorem endResult_later (k : ℕ) (e : Option LineError) :
    endResult (e.map (.later k)) = (endResult e).mapError (.later k) := by
  cases e <;> rfl

/-- A dispatch takes the name and the parameters of a command, and puts its line on an error. -/
theorem sweep_later (r : Registry σ) (k : ℕ) (ending : Except LineError Unit) (cs : List Command)
    (s : σ) :
    r.sweep (ending.mapError (.later k)) (cs.map (.later k)) s =
      ⟨(r.sweep ending cs s).called.map (.later k),
        (r.sweep ending cs s).result.mapError (.later k), (r.sweep ending cs s).shared⟩ := by
  induction cs generalizing s with
  | nil => rfl
  | cons c cs ih =>
    rw [List.map_cons]
    cases hl : r.lookup c.name with
    | none =>
      have hk : r.lookup (c.later k).name = none := hl
      rw [sweep_unknown _ _ s hl, sweep_unknown _ _ s hk]
      rfl
    | some handler =>
      have hk : r.lookup (c.later k).name = some handler := hl
      rcases hc : handler.call c.params s with ⟨result, t⟩
      have hck : handler.call (c.later k).params s = (result, t) := hc
      cases result with
      | error e =>
        rw [sweep_refused _ _ hl hc, sweep_refused _ _ hk hck]
        rfl
      | ok =>
        rw [sweep_accepted _ _ hl hc, sweep_accepted _ _ hk hck, ih]
        rfl

end Registry

end PageScript
