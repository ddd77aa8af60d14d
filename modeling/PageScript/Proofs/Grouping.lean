import PageScript.Command
import PageScript.Proofs.Grammar
import PageScript.Proofs.Lexing

/-!
# Grouping

A list of tokens is cut behind each boundary. Every group with a word in it is a command; what
stands behind the last boundary is not. A parser pulls its tokens from any stream and gives the
commands of the tokens before the first error, then that error.
-/
namespace PageScript
open Text.Utf8 (decode)

variable {τ : Type}

namespace TokenStream

def items [TokenStream τ] (s : τ) : List (Except LineError Token) :=
  match _h : next s with
  | (none, _) => []
  | (some item, rest) => item :: items rest
termination_by size s
decreasing_by exact size_lt _h

theorem items_of_none [TokenStream τ] {s rest : τ} (h : next s = (none, rest)) :
    items s = [] := by
  rw [items]
  split
  · rfl
  · simp_all

theorem items_of_some [TokenStream τ] {s rest : τ} {item : Except LineError Token}
    (h : next s = (some item, rest)) : items s = item :: items rest := by
  rw [items]
  split <;> simp_all

theorem items_list (l : List (Except LineError Token)) : items l = l := by
  induction l with
  | nil =>
    have h : next ([] : List (Except LineError Token)) = (none, []) := rfl
    exact items_of_none h
  | cons item rest ih =>
    have h : next (item :: rest) = (some item, rest) := rfl
    rw [items_of_some h, ih]

theorem items_tokenizer (t : Tokenizer) : items t = t.items := by
  fun_induction items t with
  | case1 t rest h =>
    have hn : t.next = (none, rest) := h
    exact (Tokenizer.items_eq_nil (by rw [hn])).symm
  | case2 t item rest h ih =>
    have hn : t.next = (some item, rest) := h
    rw [ih, Tokenizer.items_next t, hn]
    rfl

end TokenStream

def Command.ofGroup? : List Token → Option Command
  | .word name line :: params => some ⟨decode name, params.map (decode ·.carried), line⟩
  | _ => none

def commandsOf (ts : List Token) : List Command :=
  (ts.splitOnP Token.isBoundary).dropLast.filterMap Command.ofGroup?

/-- Tokens of one group: no boundary stands in between. -/
def AllWords (ws : List Token) : Prop := ∀ t ∈ ws, t.isBoundary = false

/-- Tokens are words only, or words, a boundary and again tokens. -/
@[elab_as_elim]
theorem groups_induction {motive : List Token → Prop} (ts : List Token)
    (ended : ∀ ws, AllWords ws → motive ws)
    (closed : ∀ ws line rest, AllWords ws → motive rest →
      motive (ws ++ .boundary line :: rest)) : motive ts := by
  -- the words passed so far are kept, so that the group they belong to can be closed as a whole
  have hpassed : ∀ ws, AllWords ws → motive (ws ++ ts) := by
    induction ts with
    | nil =>
      intro ws hws
      rw [List.append_nil]
      exact ended ws hws
    | cons t ts ih =>
      intro ws hws
      cases t with
      | word bytes line =>
        have hmore : AllWords (ws ++ [.word bytes line]) := by
          intro t ht
          rcases List.mem_append.mp ht with ht | ht
          · exact hws t ht
          · rw [List.mem_singleton.mp ht]
            rfl
        have hm := ih _ hmore
        rwa [List.append_assoc] at hm
      | boundary line => exact closed ws line ts hws (ih [] (by simp [AllWords]))
  exact hpassed [] (by simp [AllWords])

theorem commandsOf_allWords {ws : List Token} (hws : AllWords ws) : commandsOf ws = [] := by
  rw [commandsOf, List.splitOnP_eq_singleton hws]
  rfl

theorem commandsOf_boundary {ws : List Token} (hws : AllWords ws) (line : ℕ) (ts : List Token) :
    commandsOf (ws ++ .boundary line :: ts) = (Command.ofGroup? ws).toList ++ commandsOf ts := by
  have hs := List.splitOnP_append_cons_of_forall_mem hws (.boundary line) rfl ts
  have hne := List.splitOnP_ne_nil Token.isBoundary ts
  obtain ⟨group, groups, hg⟩ := List.exists_cons_of_ne_nil hne
  rw [commandsOf, commandsOf, hs, hg, List.dropLast_cons_cons, List.filterMap_cons]
  cases Command.ofGroup? ws <;> rfl

/-- More tokens leave the commands that are complete as they are. -/
theorem commandsOf_append (xs ys : List Token) :
    ∃ later, commandsOf (xs ++ ys) = commandsOf xs ++ later := by
  induction xs using groups_induction with
  | ended ws hws => exact ⟨commandsOf (ws ++ ys), by rw [commandsOf_allWords hws]; rfl⟩
  | closed ws line rest hws ih =>
    obtain ⟨later, hl⟩ := ih
    refine ⟨later, ?_⟩
    rw [List.append_assoc, List.cons_append, commandsOf_boundary hws, commandsOf_boundary hws, hl,
      List.append_assoc]

theorem exists_group_of_mem {ts : List Token} {c : Command} (h : c ∈ commandsOf ts) :
    ∃ ws, ws ⊆ ts ∧ AllWords ws ∧ Command.ofGroup? ws = some c := by
  induction ts using groups_induction with
  | ended ws hws => simp [commandsOf_allWords hws] at h
  | closed ws line rest hws ih =>
    rw [commandsOf_boundary hws, List.mem_append, Option.mem_toList] at h
    rcases h with h | h
    · exact ⟨ws, by simp, hws, h⟩
    · obtain ⟨group, hsub, hgroup, hc⟩ := ih h
      exact ⟨group, fun t ht => by simp [hsub ht], hgroup, hc⟩

namespace Draft

/-- The commands that items complete behind a draft, up to the first error. -/
def parse : Option Draft → List (Except LineError Token) → List (Except LineError Command)
  | _, [] => []
  | _, .error e :: _ => [.error e]
  | d, .ok (.word bytes line) :: rest => parse (some (add bytes line d)) rest
  | none, .ok (.boundary _) :: rest => parse none rest
  | some d, .ok (.boundary _) :: rest => .ok d.command :: parse none rest

/-- The command that a group completes behind a draft. -/
def complete? : Option Draft → List Token → Option Command
  | none, group => Command.ofGroup? group
  | some d, group => some ⟨d.name, d.params.reverse ++ group.map (decode ·.carried), d.line⟩

theorem complete?_word (d : Option Draft) (bytes : Text.Bytes) (line : ℕ) (group : List Token) :
    complete? d (.word bytes line :: group) = complete? (some (add bytes line d)) group := by
  cases d <;> simp [complete?, Command.ofGroup?, add, Token.carried]

/-- The commands of groups of which the first goes on with a draft. -/
def completeAll (d : Option Draft) : List (List Token) → List Command
  | [] => []
  | group :: groups => (complete? d group).toList ++ groups.filterMap Command.ofGroup?

theorem completeAll_none (groups : List (List Token)) :
    completeAll none groups = groups.filterMap Command.ofGroup? := by
  cases groups with
  | nil => rfl
  | cons group groups =>
    cases h : Command.ofGroup? group <;> simp [completeAll, complete?, h]

theorem parse_append (d : Option Draft) (ts : List Token) (errors : List LineError) :
    parse d (ts.map .ok ++ errors.map .error) =
      (completeAll d (ts.splitOnP Token.isBoundary).dropLast).map .ok ++
        (errors.take 1).map .error := by
  induction ts generalizing d with
  | nil => cases errors <;> cases d <;> simp [parse, completeAll]
  | cons t ts ih =>
    have hne := List.splitOnP_ne_nil Token.isBoundary ts
    obtain ⟨group, groups, hg⟩ := List.exists_cons_of_ne_nil hne
    cases t with
    | word bytes line =>
      have hi := ih (some (add bytes line d))
      have hs : (Token.word bytes line :: ts).splitOnP Token.isBoundary =
          (.word bytes line :: group) :: groups := by
        simp [List.splitOnP_cons_eq_if_modifyHead, Token.isBoundary, hg]
      have hp : parse d ((Token.word bytes line :: ts).map .ok ++ errors.map .error) =
          parse (some (add bytes line d)) (ts.map .ok ++ errors.map .error) := by
        cases d <;> rfl
      rw [hp, hi, hg, hs]
      cases groups with
      | nil => rfl
      | cons group' groups => simp [completeAll, complete?_word]
    | boundary line =>
      have hi := ih none
      have hs : (Token.boundary line :: ts).splitOnP Token.isBoundary = [] :: group :: groups := by
        simp [List.splitOnP_cons_eq_if_modifyHead, Token.isBoundary, hg]
      rw [hg, completeAll_none] at hi
      rw [hs, List.dropLast_cons_cons]
      cases d with
      | none => simpa [parse, completeAll, complete?, Command.ofGroup?] using hi
      | some d => simpa [parse, completeAll, complete?, command] using hi

theorem parse_none_append (ts : List Token) (errors : List LineError) :
    parse none (ts.map .ok ++ errors.map .error) =
      (commandsOf ts).map .ok ++ (errors.take 1).map .error := by
  rw [parse_append, completeAll_none]
  rfl

end Draft

namespace Parser

def items [TokenStream τ] (p : Parser τ) : List (Except LineError Command) :=
  if p.done then [] else Draft.parse p.draft (TokenStream.items p.tokens)

theorem items_assemble [TokenStream τ] (tokens : τ) (draft : Option Draft) (pulled : List Token) :
    Draft.parse draft (TokenStream.items tokens) =
      (assemble tokens draft pulled).item.toList ++
        (assemble tokens draft pulled).parser.items := by
  fun_induction assemble tokens draft pulled with
  | case1 tokens draft pulled rest h =>
    simp [TokenStream.items_of_none h, Draft.parse, items]
  | case2 tokens draft pulled rest e h =>
    simp [TokenStream.items_of_some h, Draft.parse, items]
  | case3 tokens draft pulled bytes line rest h ih =>
    rw [TokenStream.items_of_some h, ← ih]
    cases draft <;> rfl
  | case4 tokens pulled line rest h ih =>
    rw [TokenStream.items_of_some h, ← ih]
    rfl
  | case5 tokens pulled line rest h d =>
    simp [TokenStream.items_of_some h, Draft.parse, items]

theorem done_assemble [TokenStream τ] {tokens : τ} {draft : Option Draft} {pulled : List Token}
    (h : ∀ c, (assemble tokens draft pulled).item ≠ some (.ok c)) :
    (assemble tokens draft pulled).parser.done = true := by
  fun_induction assemble tokens draft pulled with
  | case1 => rfl
  | case2 => rfl
  | case3 tokens draft pulled bytes line rest hn ih => exact ih h
  | case4 tokens pulled line rest hn ih => exact ih h
  | case5 tokens pulled line rest hn d => exact absurd rfl (h d.command)

theorem items_turn_eq_nil [TokenStream τ] {p : Parser τ} (h : ∀ c, p.turn.item ≠ some (.ok c)) :
    p.turn.parser.items = [] := by
  by_cases hd : p.done = true
  · simp [items, turn, hd]
  · simp only [turn, hd, Bool.false_eq_true, if_false] at h ⊢
    simp [items, done_assemble h]

theorem items_turn [TokenStream τ] (p : Parser τ) :
    p.items = p.turn.item.toList ++ p.turn.parser.items := by
  by_cases hd : p.done = true
  · simp [items, turn, hd]
  · simp only [turn, hd, Bool.false_eq_true, if_false]
    rw [← items_assemble]
    simp [items, hd]

theorem items_eq_nil [TokenStream τ] {p : Parser τ} (h : p.turn.item = none) : p.items = [] := by
  rw [items_turn, items_turn_eq_nil (by simp [h]), h]
  rfl

theorem turn_of_items [TokenStream τ] {p : Parser τ} {item : Except LineError Command}
    {rest : List (Except LineError Command)} (h : p.items = item :: rest) :
    p.turn.item = some item ∧ p.turn.parser.items = rest := by
  have ht := items_turn p
  rw [h] at ht
  cases hi : p.turn.item with
  | none =>
    rw [items_eq_nil hi] at h
    cases h
  | some first =>
    rw [hi] at ht
    obtain ⟨rfl, rfl⟩ := List.cons.inj ht
    exact ⟨rfl, rfl⟩

theorem yields_items [TokenStream τ] (p : Parser τ) : Calls.Yields next p p.items :=
  Calls.yields_of_step items items_turn (fun _ => items_eq_nil) p

theorem items_drain [TokenStream τ] (p : Parser τ) :
    p.items = p.drain.commands.map .ok ++ p.drain.ending.toList.map .error := by
  fun_induction drain p with
  | case1 p h => simp [items_eq_nil h]
  | case2 p e h =>
    rw [items_turn, items_turn_eq_nil (by simp [h]), h]
    rfl
  | case3 p c h rest ih =>
    rw [items_turn, h, ih]
    rfl

end Parser

end PageScript
