import PageScript.Proofs.Grouping

/-!
# Parsing a list of tokens

The tokens before the first error are cut behind each boundary. A parser gives the commands of the
closed groups, then the error, then nothing. A metered list shows how far it was pulled: past the
first error, or past the end if there is none, and no further however often the parser is called.
-/
namespace PageScript
open Text.Utf8 (decode)

/-- The words and boundaries before the first error of a list. -/
def tokensBefore : List (Except LineError Token) → List Token
  | [] => []
  | .error _ :: _ => []
  | .ok t :: rest => t :: tokensBefore rest

def firstError? : List (Except LineError Token) → Option LineError
  | [] => none
  | .error e :: _ => some e
  | .ok _ :: rest => firstError? rest

/-- Tokens cut behind each boundary: closed groups of words with the lines of their boundaries,
and the words behind the last boundary. -/
structure Cut (ts : List Token) (groups : List (List Token × ℕ)) (rest : List Token) : Prop where
  joined : ts = groups.flatMap (fun g => g.1 ++ [.boundary g.2]) ++ rest
  groups_words : ∀ g ∈ groups, AllWords g.1
  rest_words : AllWords rest

def Command.texts (c : Command) : List String := c.name :: c.params

theorem exists_cut (ts : List Token) : ∃ groups rest, Cut ts groups rest := by
  induction ts using groups_induction with
  | ended ws hws => exact ⟨[], ws, rfl, by simp, hws⟩
  | closed ws line ts hws ih =>
    obtain ⟨groups, rest, hjoined, hgroups, hrest⟩ := ih
    refine ⟨(ws, line) :: groups, rest, ?_, List.forall_mem_cons.mpr ⟨hws, hgroups⟩, hrest⟩
    rw [hjoined]
    simp

/-- Closed groups give their commands, whatever stands behind them. -/
theorem commandsOf_groups_append {groups : List (List Token × ℕ)}
    (h : ∀ g ∈ groups, AllWords g.1) (ts : List Token) :
    commandsOf (groups.flatMap (fun g => g.1 ++ [.boundary g.2]) ++ ts) =
      groups.filterMap (fun g => Command.ofGroup? g.1) ++ commandsOf ts := by
  induction groups with
  | nil => rfl
  | cons g groups ih =>
    obtain ⟨hg, hmore⟩ := List.forall_mem_cons.mp h
    have hsplit : (g :: groups).flatMap (fun g => g.1 ++ [Token.boundary g.2]) ++ ts =
        g.1 ++ .boundary g.2 :: (groups.flatMap (fun g => g.1 ++ [.boundary g.2]) ++ ts) := by
      simp
    rw [hsplit, commandsOf_boundary hg, ih hmore, List.filterMap_cons]
    cases Command.ofGroup? g.1 <;> rfl

theorem Cut.commandsOf_eq {ts rest : List Token} {groups : List (List Token × ℕ)}
    (h : Cut ts groups rest) :
    commandsOf ts = groups.filterMap fun g => Command.ofGroup? g.1 := by
  rw [h.joined, commandsOf_groups_append h.groups_words, commandsOf_allWords h.rest_words,
    List.append_nil]

theorem texts_ofGroup? {ws : List Token} (hws : AllWords ws) :
    (Command.ofGroup? ws).toList.flatMap Command.texts = ws.map (decode ·.carried) := by
  cases ws with
  | nil => rfl
  | cons t ws =>
    cases t with
    | word bytes line => simp [Command.ofGroup?, Command.texts, Token.carried]
    | boundary line => exact absurd (hws _ List.mem_cons_self) (by simp [Token.isBoundary])

/-- The commands hold the words of the closed groups, each once and in order. -/
theorem texts_of_groups {groups : List (List Token × ℕ)} (h : ∀ g ∈ groups, AllWords g.1) :
    (groups.filterMap fun g => Command.ofGroup? g.1).flatMap Command.texts =
      (groups.flatMap Prod.fst).map (decode ·.carried) := by
  induction groups with
  | nil => rfl
  | cons g groups ih =>
    obtain ⟨hg, hmore⟩ := List.forall_mem_cons.mp h
    rw [List.filterMap_cons, List.flatMap_cons, List.map_append, ← texts_ofGroup? hg, ← ih hmore]
    cases Command.ofGroup? g.1 <;> simp

/-- What stands behind the first error does not count. -/
theorem Draft.parse_eq_before (d : Option Draft) (items : List (Except LineError Token)) :
    parse d items =
      parse d ((tokensBefore items).map .ok ++ (firstError? items).toList.map .error) := by
  induction items generalizing d with
  | nil => rfl
  | cons item items ih =>
    cases item with
    | error e => simp [tokensBefore, firstError?, parse]
    | ok t =>
      cases t with
      | word bytes line =>
        have hi := ih (some (add bytes line d))
        cases d <;> exact hi
      | boundary line =>
        have hi := ih none
        cases d with
        | none => exact hi
        | some d => exact congrArg (.ok d.command :: ·) hi

theorem Draft.parse_none_eq (items : List (Except LineError Token)) :
    parse none items =
      (commandsOf (tokensBefore items)).map .ok ++ (firstError? items).toList.map .error := by
  have hone : (firstError? items).toList.take 1 = (firstError? items).toList :=
    List.take_of_length_le (by cases firstError? items <;> simp)
  rw [parse_eq_before, parse_none_append, hone]

/-- A list of items that counts how often it was asked for one. -/
@[ext]
structure Metered where
  items : List (Except LineError Token)
  pulls : ℕ

namespace Metered

def ofList (items : List (Except LineError Token)) : Metered := ⟨items, 0⟩

theorem items_ofList (items : List (Except LineError Token)) : (ofList items).items = items := rfl

def next (m : Metered) : Option (Except LineError Token) × Metered :=
  ((TokenStream.uncons m.items).1, ⟨(TokenStream.uncons m.items).2, m.pulls + 1⟩)

theorem next_of_nil {m : Metered} (h : m.items = []) : m.next = (none, ⟨[], m.pulls + 1⟩) := by
  simp [next, TokenStream.uncons, h]

theorem next_of_cons {m : Metered} {item : Except LineError Token}
    {rest : List (Except LineError Token)} (h : m.items = item :: rest) :
    m.next = (some item, ⟨rest, m.pulls + 1⟩) := by
  simp [next, TokenStream.uncons, h]

theorem items_of_next_none {m rest : Metered} (h : m.next = (none, rest)) :
    m.items = [] ∧ rest = ⟨[], m.pulls + 1⟩ := by
  cases hm : m.items with
  | nil =>
    rw [next_of_nil hm] at h
    exact ⟨rfl, (Prod.mk.inj h).2.symm⟩
  | cons item items =>
    rw [next_of_cons hm] at h
    simp at h

theorem items_of_next_some {m rest : Metered} {item : Except LineError Token}
    (h : m.next = (some item, rest)) :
    m.items = item :: rest.items ∧ rest.pulls = m.pulls + 1 := by
  cases hm : m.items with
  | nil =>
    rw [next_of_nil hm] at h
    simp at h
  | cons item' items =>
    rw [next_of_cons hm] at h
    obtain ⟨rfl, rfl⟩ := by simpa using h
    exact ⟨rfl, rfl⟩

end Metered

instance : TokenStream Metered where
  next := Metered.next
  size m := m.items.length
  size_lt h := by simp [(Metered.items_of_next_some h).1]

theorem TokenStream.items_metered (m : Metered) : items m = m.items := by
  fun_induction items m with
  | case1 m rest h => exact (Metered.items_of_next_none h).1.symm
  | case2 m item rest h ih => rw [ih, (Metered.items_of_next_some h).1]

namespace Parser

/-- The pulls that a parser has still to make: its last one meets the first error or the end. -/
def owed (p : Parser Metered) : ℕ := if p.done then 0 else (tokensBefore p.tokens.items).length + 1

/-- A parser that has pulled some items of a list, and will pull up to the first error or the
end. -/
structure Reads (items : List (Except LineError Token)) (p : Parser Metered) : Prop where
  left : p.tokens.items = items.drop p.tokens.pulls
  total : p.tokens.pulls + p.owed = (tokensBefore items).length + 1

theorem reads_ofTokens (items : List (Except LineError Token)) :
    Reads items (ofTokens (.ofList items)) where
  left := rfl
  total := by simp [ofTokens, owed, Metered.ofList]

section Reads

variable {items : List (Except LineError Token)} {m rest : Metered} {d e : Option Draft}

theorem Reads.left_tail (h : Reads items ⟨m, d, false⟩) (hr : rest.items = m.items.tail)
    (hp : rest.pulls = m.pulls + 1) : rest.items = items.drop rest.pulls := by
  rw [hr, hp, h.left, List.tail_drop]

theorem Reads.token {t : Token} (h : Reads items ⟨m, d, false⟩)
    (hn : m.next = (some (.ok t), rest)) : Reads items ⟨rest, e, false⟩ := by
  obtain ⟨hm, hp⟩ := Metered.items_of_next_some hn
  have ht := h.total
  refine ⟨h.left_tail (by rw [hm]; rfl) hp, ?_⟩
  simp only [owed, hm, tokensBefore, hp, List.length_cons, Bool.false_eq_true, if_false] at ht ⊢
  omega

theorem Reads.last (h : Reads items ⟨m, d, false⟩) (hb : tokensBefore m.items = [])
    (hr : rest.items = m.items.tail) (hp : rest.pulls = m.pulls + 1) :
    Reads items ⟨rest, e, true⟩ := by
  have ht := h.total
  refine ⟨h.left_tail hr hp, ?_⟩
  simp only [owed, hb, List.length_nil, Bool.false_eq_true, if_false] at ht
  simpa [owed, hp] using ht

end Reads

theorem reads_assemble {items : List (Except LineError Token)} {m : Metered}
    {draft : Option Draft} (pulled : List Token) (h : Reads items ⟨m, draft, false⟩) :
    Reads items (assemble m draft pulled).parser := by
  fun_induction assemble m draft pulled with
  | case1 m draft pulled rest hn =>
    obtain ⟨hm, rfl⟩ := Metered.items_of_next_none hn
    exact h.last (by rw [hm]; rfl) (by rw [hm]; rfl) rfl
  | case2 m draft pulled rest e hn =>
    obtain ⟨hm, hp⟩ := Metered.items_of_next_some hn
    exact h.last (by rw [hm]; rfl) (by rw [hm]; rfl) hp
  | case3 m draft pulled bytes line rest hn ih => exact ih (h.token hn)
  | case4 m pulled line rest hn ih => exact ih (h.token hn)
  | case5 m pulled line rest hn d => exact h.token hn

/-- One call keeps account of the pulls; a parser that is done makes none. -/
theorem Reads.next {items : List (Except LineError Token)} {p : Parser Metered}
    (h : Reads items p) : Reads items p.next.2 := by
  obtain ⟨m, draft, done⟩ := p
  cases done with
  | false => exact reads_assemble [] h
  | true => exact h

theorem Reads.after {items : List (Except LineError Token)} {p : Parser Metered}
    (h : Reads items p) (n : ℕ) : Reads items (Calls.after Parser.next n p) := by
  induction n generalizing p with
  | zero => exact h
  | succ n ih => exact ih h.next

variable {τ : Type} [TokenStream τ]

theorem done_turn {p : Parser τ} (h : ∀ c, p.turn.item ≠ some (.ok c)) :
    p.turn.parser.done = true := by
  by_cases hd : p.done = true
  · simp [turn, hd]
  · simp only [turn, hd, Bool.false_eq_true, if_false] at h ⊢
    exact done_assemble h

theorem done_after {p : Parser τ} (h : p.done = true) (n : ℕ) :
    (Calls.after next n p).done = true := by
  have hp : p.next.2 = p := by simp [next, turn, h]
  induction n with
  | zero => exact h
  | succ n ih => rwa [Calls.after, hp]

/-- A parser that has given all its commands is done once it is called again. -/
theorem done_of_yields {p : Parser τ} {commands : List Command} {e : Option LineError}
    (h : Calls.Yields next p (commands.map .ok ++ e.toList.map .error)) {n : ℕ}
    (hn : commands.length < n) : (Calls.after next n p).done = true := by
  obtain ⟨k, rfl⟩ := Nat.exists_eq_add_of_lt hn
  have hlast : (Calls.after next commands.length p).next.1 = e.map .error := by
    have ha := h commands.length
    rw [List.getElem?_append_right (by simp)] at ha
    cases e <;> simpa [Calls.answer] using ha
  have hdone : (Calls.after next commands.length p).next.2.done = true := by
    apply done_turn
    intro c hc
    have he := hlast.symm.trans hc
    cases e <;> simp at he
  rw [Nat.add_assoc, Nat.add_comm k, Calls.after_add, Calls.after_add]
  exact done_after hdone k

theorem items_ofTokens (s : τ) :
    (ofTokens s).items = (commandsOf (tokensBefore (TokenStream.items s))).map .ok ++
      (firstError? (TokenStream.items s)).toList.map .error := by
  simp only [Parser.items, ofTokens, Bool.false_eq_true, if_false]
  exact Draft.parse_none_eq _

/-- Over any list of items a parser gives one command for each closed group with a word in it, in
order, then the first error, then nothing for ever. The commands hold the words of the closed
groups and no others, each once and in order. Once the parser has answered the call behind its last
command, it has pulled the tokens before the first error and one item more, and it pulls nothing
from then on. -/
theorem parser_groups_tokens (items : List (Except LineError Token)) :
    ∃ groups rest, Cut (tokensBefore items) groups rest ∧
      let commands := groups.filterMap fun g => Command.ofGroup? g.1
      let answers := commands.map .ok ++ (firstError? items).toList.map .error
      let pulled := (tokensBefore items).length + 1
      commands.flatMap Command.texts = (groups.flatMap Prod.fst).map (decode ·.carried) ∧
        Calls.Yields next (ofTokens items) answers ∧
        Calls.Yields next (ofTokens (Metered.ofList items)) answers ∧
        ∀ n, commands.length < n →
          (Calls.after next n (ofTokens (Metered.ofList items))).tokens =
            ⟨items.drop pulled, pulled⟩ := by
  obtain ⟨groups, rest, hcut⟩ := exists_cut (tokensBefore items)
  have hlist := yields_items (ofTokens items)
  have hmetered := yields_items (ofTokens (Metered.ofList items))
  rw [items_ofTokens, TokenStream.items_list, hcut.commandsOf_eq] at hlist
  rw [items_ofTokens, TokenStream.items_metered, Metered.items_ofList, hcut.commandsOf_eq]
    at hmetered
  refine ⟨groups, rest, hcut, texts_of_groups hcut.groups_words, hlist, hmetered, ?_⟩
  intro n hn
  have hdone := done_of_yields hmetered hn
  obtain ⟨hleft, htotal⟩ := (reads_ofTokens items).after n
  rw [owed, hdone, if_pos rfl, Nat.add_zero] at htotal
  rw [htotal] at hleft
  exact Metered.ext hleft htotal

end Parser

end PageScript
