import PageScript.Proofs.TokenLists

namespace PageScript

/-- The tokens of closed groups, each with the line of its boundary. -/
def tokensOf (groups : List (List Token × ℕ)) : List Token :=
  groups.flatMap fun g => g.1 ++ [.boundary g.2]

def groupCommands (groups : List (List Token × ℕ)) : List Command :=
  groups.filterMap fun g => Command.ofGroup? g.1

def emptyGroups (lines : List ℕ) : List (List Token × ℕ) := lines.map ([], ·)

@[simp] theorem tokensOf_nil : tokensOf [] = [] := rfl

@[simp] theorem tokensOf_cons (g : List Token × ℕ) (groups : List (List Token × ℕ)) :
    tokensOf (g :: groups) = g.1 ++ .boundary g.2 :: tokensOf groups := by
  simp [tokensOf]

@[simp] theorem emptyGroups_nil : emptyGroups [] = [] := rfl

@[simp] theorem emptyGroups_cons (line : ℕ) (lines : List ℕ) :
    emptyGroups (line :: lines) = ([], line) :: emptyGroups lines := rfl

theorem tokensOf_append (xs ys : List (List Token × ℕ)) :
    tokensOf (xs ++ ys) = tokensOf xs ++ tokensOf ys := by
  simp [tokensOf]

theorem groupCommands_append (xs ys : List (List Token × ℕ)) :
    groupCommands (xs ++ ys) = groupCommands xs ++ groupCommands ys := by
  simp [groupCommands]

theorem groupCommands_emptyGroups (lines : List ℕ) : groupCommands (emptyGroups lines) = [] := by
  simp [groupCommands, emptyGroups, Command.ofGroup?]

theorem groupCommands_singleton {ws : List Token} {c : Command}
    (hc : Command.ofGroup? ws = some c) (line : ℕ) : groupCommands [(ws, line)] = [c] := by
  simp [groupCommands, hc]

theorem allWords_nil : AllWords [] := by
  simp [AllWords]

theorem AllWords.cons {ws : List Token} (h : AllWords ws) (bytes : Text.Bytes) (line : ℕ) :
    AllWords (.word bytes line :: ws) :=
  List.forall_mem_cons.mpr ⟨rfl, h⟩

theorem words_emptyGroups (lines : List ℕ) : ∀ g ∈ emptyGroups lines, AllWords g.1 := by
  intro g hg
  obtain ⟨_, -, rfl⟩ := List.mem_map.mp hg
  exact allWords_nil

namespace Parser

variable {τ : Type} [TokenStream τ]

/-- A turn that gives a command, with the lines of the groups without words, the words and the line
of the boundary that it takes. If a command was begun before, no group stands in front. -/
structure CommandTurn (tokens : τ) (draft : Option Draft) (pulled : List Token) (turn : Turn τ)
    (c : Command) (lines : List ℕ) (ws : List Token) (line : ℕ) : Prop where
  words : AllWords ws
  command : Draft.complete? draft ws = some c
  begun : draft ≠ none → lines = []
  pulled_eq : turn.pulled = pulled.reverse ++ tokensOf (emptyGroups lines ++ [(ws, line)])
  left : tokensBefore (TokenStream.items tokens) =
    tokensOf (emptyGroups lines ++ [(ws, line)]) ++
      tokensBefore (TokenStream.items turn.parser.tokens)
  fault : firstError? (TokenStream.items tokens) =
    firstError? (TokenStream.items turn.parser.tokens)
  fresh : turn.parser = ofTokens turn.parser.tokens

/-- A turn that takes all tokens that are left and gives the error behind them. -/
structure LastTurn (tokens : τ) (draft : Option Draft) (pulled : List Token) (turn : Turn τ)
    (lines : List ℕ) (ws : List Token) : Prop where
  words : AllWords ws
  begun : draft ≠ none → lines = []
  pulled_eq : turn.pulled = pulled.reverse ++ (tokensOf (emptyGroups lines) ++ ws)
  left : tokensBefore (TokenStream.items tokens) = tokensOf (emptyGroups lines) ++ ws
  item : turn.item = (firstError? (TokenStream.items tokens)).map .error

variable {tokens : τ} {draft : Option Draft} {pulled : List Token}

theorem exists_commandTurn {c : Command}
    (h : (assemble tokens draft pulled).item = some (.ok c)) :
    ∃ lines ws line,
      CommandTurn tokens draft pulled (assemble tokens draft pulled) c lines ws line := by
  fun_induction assemble tokens draft pulled with
  | case1 => simp at h
  | case2 => simp at h
  | case3 tokens draft pulled bytes first rest hn ih =>
    obtain ⟨lines, ws, line, ht⟩ := ih h
    obtain rfl := ht.begun (by simp)
    have hitems := TokenStream.items_of_some hn
    refine ⟨[], .word bytes first :: ws, line, ht.words.cons bytes first, ?_, fun _ => rfl, ?_, ?_,
      ?_, ht.fresh⟩
    · rw [Draft.complete?_word, ht.command]
    · rw [ht.pulled_eq]
      simp
    · rw [hitems, tokensBefore, ht.left]
      simp
    · rw [hitems, firstError?, ht.fault]
  | case4 tokens pulled first rest hn ih =>
    obtain ⟨lines, ws, line, ht⟩ := ih h
    have hitems := TokenStream.items_of_some hn
    refine ⟨first :: lines, ws, line, ht.words, ht.command, by simp, ?_, ?_, ?_, ht.fresh⟩
    · rw [ht.pulled_eq]
      simp
    · rw [hitems, tokensBefore, ht.left]
      simp
    · rw [hitems, firstError?, ht.fault]
  | case5 tokens pulled line rest hn d =>
    obtain rfl : d.command = c := by simpa using h
    have hitems := TokenStream.items_of_some hn
    refine ⟨[], [], line, allWords_nil, ?_, fun _ => rfl, ?_, ?_, ?_, rfl⟩
    · simp [Draft.complete?, Draft.command]
    · simp
    · rw [hitems, tokensBefore]
      simp
    · rw [hitems, firstError?]

theorem exists_lastTurn (h : ∀ c, (assemble tokens draft pulled).item ≠ some (.ok c)) :
    ∃ lines ws, LastTurn tokens draft pulled (assemble tokens draft pulled) lines ws := by
  fun_induction assemble tokens draft pulled with
  | case1 tokens draft pulled rest hn =>
    have hitems := TokenStream.items_of_none hn
    refine ⟨[], [], allWords_nil, fun _ => rfl, by simp, ?_, ?_⟩
    · rw [hitems]
      rfl
    · rw [hitems]
      rfl
  | case2 tokens draft pulled rest e hn =>
    have hitems := TokenStream.items_of_some hn
    refine ⟨[], [], allWords_nil, fun _ => rfl, by simp, ?_, ?_⟩
    · rw [hitems]
      rfl
    · rw [hitems]
      rfl
  | case3 tokens draft pulled bytes first rest hn ih =>
    obtain ⟨lines, ws, ht⟩ := ih h
    obtain rfl := ht.begun (by simp)
    have hitems := TokenStream.items_of_some hn
    refine ⟨[], .word bytes first :: ws, ht.words.cons bytes first, fun _ => rfl, ?_, ?_, ?_⟩
    · rw [ht.pulled_eq]
      simp
    · rw [hitems, tokensBefore, ht.left]
      simp
    · rw [hitems, firstError?, ht.item]
  | case4 tokens pulled first rest hn ih =>
    obtain ⟨lines, ws, ht⟩ := ih h
    have hitems := TokenStream.items_of_some hn
    refine ⟨first :: lines, ws, ht.words, by simp, ?_, ?_, ?_⟩
    · rw [ht.pulled_eq]
      simp
    · rw [hitems, tokensBefore, ht.left]
      simp
    · rw [hitems, firstError?, ht.item]
  | case5 tokens pulled line rest hn d => exact absurd rfl (h d.command)

end Parser

end PageScript
