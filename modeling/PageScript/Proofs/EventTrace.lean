import PageScript.Proofs.Histories
import PageScript.Proofs.Turns

/-!
# The events of a run

The events tell how far a run has read: each token as it is pulled, and each command behind the
boundary that completes it, just before its handler is called. When a command ends the run, its
boundary is the last token told of, and nothing behind it was read.
-/
namespace PageScript

variable {σ : Type}

namespace Event

def ofCommand (c : Command) : Event := dispatch c.name c.line c.params.length

/-- An event that tells how a run ended that called so many commands. -/
inductive Ends (called : ℕ) : Except LineError Unit → Event → Prop
  | finished : Ends called (.ok ()) (.runFinished called)
  | failed {e : LineError} {text : String} (said : e.cause.Says text) :
      Ends called (.error e) (.runFailed e.line text)

def ofResult (called : ℕ) : Except LineError Unit → Event
  | .ok () => runFinished called
  | .error e => runFailed e.line e.cause.message

theorem ends_ofResult (called : ℕ) (result : Except LineError Unit) :
    Ends called result (ofResult called result) := by
  cases result with
  | ok => exact .finished
  | error e => exact .failed e.cause.says_message

@[simp] theorem ofToken_boundary (line : ℕ) : ofToken (.boundary line) = token line true := rfl

theorem map_ofToken {ws : List Token} (h : AllWords ws) :
    ws.map ofToken = ws.map fun t => .token t.line false := by
  refine List.map_congr_left fun t ht => ?_
  rw [ofToken, h t ht]

end Event

namespace Registry

variable {r : Registry σ}

theorem accepts_emptyGroups (lines : List ℕ) (s : σ) :
    r.Accepts (groupCommands (emptyGroups lines)) s := by
  rw [groupCommands_emptyGroups]
  trivial

/-- How far a run reads: closed groups and words behind them, while later tokens stay unread. Either
it reads all tokens, or it reads up to the boundary of the command that has no handler or whose
handler fails. The handlers of the given commands are called, with the given result. -/
inductive Halts (r : Registry σ) (fault : Option LineError) (s : σ) :
    List (List Token × ℕ) → List Token → List Token → List Command →
      Except LineError Unit → Prop
  | ended {groups : List (List Token × ℕ)} {rest : List Token}
      (accepted : r.Accepts (groupCommands groups) s) :
      Halts r fault s groups rest [] (groupCommands groups) (endResult fault)
  | unknown {before : List (List Token × ℕ)} {ws later : List Token} {line : ℕ} {c : Command}
      (accepted : r.Accepts (groupCommands before) s) (command : Command.ofGroup? ws = some c)
      (missing : r.lookup c.name = none) :
      Halts r fault s (before ++ [(ws, line)]) [] later (groupCommands before)
        (.error ⟨c.line, .unknownCommand c.name⟩)
  | refused {before : List (List Token × ℕ)} {ws later : List Token} {line : ℕ} {c : Command}
      {handler : Handler σ} {e : HandlerError}
      (accepted : r.Accepts (groupCommands before) s) (command : Command.ofGroup? ws = some c)
      (found : r.lookup c.name = some handler)
      (failed : (handler.call c.params (r.replay (groupCommands before) s)).1 = .error e) :
      Halts r fault s (before ++ [(ws, line)]) [] later (groupCommands before ++ [c])
        (.error ⟨c.line, .handler e⟩)

section Halts

variable {fault : Option LineError} {s t : σ} {first groups : List (List Token × ℕ)}
  {rest later : List Token} {called : List Command} {result : Except LineError Unit}

/-- Groups whose commands are accepted may stand in front. -/
theorem Halts.append (h : r.Halts fault t groups rest later called result)
    (hfirst : r.Accepts (groupCommands first) s) (ht : r.replay (groupCommands first) s = t) :
    r.Halts fault s (first ++ groups) rest later (groupCommands first ++ called) result := by
  subst ht
  have haccepts : ∀ {more}, r.Accepts (groupCommands more) (r.replay (groupCommands first) s) →
      r.Accepts (groupCommands (first ++ more)) s := fun hmore => by
    rw [groupCommands_append]
    exact accepts_append.mpr ⟨hfirst, hmore⟩
  cases h with
  | ended accepted =>
    rw [← groupCommands_append]
    exact .ended (haccepts accepted)
  | unknown accepted command missing =>
    rw [← List.append_assoc, ← groupCommands_append]
    exact .unknown (haccepts accepted) command missing
  | refused accepted command found failed =>
    rw [← List.append_assoc, ← List.append_assoc, ← groupCommands_append]
    refine .refused (haccepts accepted) command found ?_
    rw [groupCommands_append, replay_append]
    exact failed

theorem halts_of_missing {ws : List Token} {c : Command} (hc : Command.ofGroup? ws = some c)
    (hl : r.lookup c.name = none) (lines : List ℕ) (line : ℕ) :
    r.Halts fault s (emptyGroups lines ++ [(ws, line)]) [] later []
      (.error ⟨c.line, .unknownCommand c.name⟩) := by
  have h : r.Halts fault s (emptyGroups lines ++ [(ws, line)]) [] later
      (groupCommands (emptyGroups lines)) _ := .unknown (accepts_emptyGroups lines s) hc hl
  rwa [groupCommands_emptyGroups] at h

theorem halts_of_failed {ws : List Token} {c : Command} {handler : Handler σ} {e : HandlerError}
    (hc : Command.ofGroup? ws = some c) (hl : r.lookup c.name = some handler)
    (he : (handler.call c.params s).1 = .error e) (lines : List ℕ) (line : ℕ) :
    r.Halts fault s (emptyGroups lines ++ [(ws, line)]) [] later [c]
      (.error ⟨c.line, .handler e⟩) := by
  have hfailed : (handler.call c.params (r.replay (groupCommands (emptyGroups lines)) s)).1 =
      .error e := by
    rw [groupCommands_emptyGroups, replay_nil, he]
  have h : r.Halts fault s (emptyGroups lines ++ [(ws, line)]) [] later
      (groupCommands (emptyGroups lines) ++ [c]) _ :=
    .refused (accepts_emptyGroups lines s) hc hl hfailed
  rwa [groupCommands_emptyGroups, List.nil_append] at h

/-- The dispatch of all commands among the tokens makes the same calls. -/
theorem Halts.called_sweep (h : r.Halts fault s groups rest later called result)
    (hgroups : ∀ g ∈ groups, AllWords g.1) (hrest : AllWords rest) :
    (r.sweep (endResult fault) (commandsOf (tokensOf groups ++ rest ++ later)) s).called =
      called := by
  have hall : commandsOf (tokensOf groups ++ (rest ++ later)) =
      groupCommands groups ++ commandsOf (rest ++ later) :=
    commandsOf_groups_append hgroups (rest ++ later)
  rw [List.append_assoc, hall]
  cases h with
  | ended accepted =>
    rw [List.append_nil, commandsOf_allWords hrest, sweep_of_accepts r _ accepted]
    simp [sweep]
  | unknown accepted command missing =>
    rw [groupCommands_append, groupCommands_singleton command, List.append_assoc,
      sweep_of_accepts r _ accepted, List.singleton_append, sweep_unknown _ _ _ missing]
    simp
  | @refused before _ _ _ c handler e accepted command found failed =>
    have hcall : handler.call c.params (r.replay (groupCommands before) s) =
        (.error e, (handler.call c.params (r.replay (groupCommands before) s)).2) := by
      rw [← failed]
    rw [groupCommands_append, groupCommands_singleton command, List.append_assoc,
      sweep_of_accepts r _ accepted, List.singleton_append, sweep_refused _ _ found hcall]

end Halts

/-- The events of a closed group: its tokens, and the call of its command if there is a handler. -/
def eventsOf (r : Registry σ) (g : List Token × ℕ) : List Event :=
  g.1.map (fun t => .token t.line false) ++ [.token g.2 true] ++
    (((Command.ofGroup? g.1).filter fun c => r.contains c.name).map .ofCommand).toList

theorem flatMap_eventsOf_emptyGroups (r : Registry σ) (lines : List ℕ) :
    (emptyGroups lines).flatMap r.eventsOf = (tokensOf (emptyGroups lines)).map .ofToken := by
  induction lines with
  | nil => rfl
  | cons line lines ih => simpa [eventsOf, Command.ofGroup?] using ih

/-- A command is told of behind its boundary if it has a handler. -/
theorem flatMap_eventsOf {ws : List Token} (hws : AllWords ws) {c : Command}
    (hc : Command.ofGroup? ws = some c) (lines : List ℕ) (line : ℕ) :
    (emptyGroups lines ++ [(ws, line)]).flatMap r.eventsOf =
      (tokensOf (emptyGroups lines ++ [(ws, line)])).map .ofToken ++
        if r.contains c.name then [.ofCommand c] else [] := by
  rw [List.flatMap_append, flatMap_eventsOf_emptyGroups, tokensOf_append, List.map_append,
    List.append_assoc, List.flatMap_singleton, eventsOf, hc, ← Event.map_ofToken hws]
  cases hk : r.contains c.name <;> simp [hk]

end Registry

namespace Runner

/-- A runner that can go on and stands behind a boundary or at the beginning. -/
structure Ready (r : Runner σ) : Prop where
  going : r.state.isTerminal = false
  fresh : r.commands = .ofTokens r.commands.tokens

theorem Ready.turn_eq {r : Runner σ} (h : r.Ready) :
    r.commands.turn = Parser.assemble r.commands.tokens none [] := by
  rw [h.fresh]
  rfl

def tokensLeft (r : Runner σ) : List Token := tokensBefore (TokenStream.items r.commands.tokens)

def faultLeft (r : Runner σ) : Option LineError :=
  firstError? (TokenStream.items r.commands.tokens)

def started (r : Runner σ) : List Event :=
  if r.state = .idle then [.runStarted r.registry.size] else []

theorem seen_eq (r : Runner σ) : r.seen = r.started ++ r.commands.turn.pulled.map .ofToken := rfl

/-- A run that reads these groups and words, calls the handlers of these commands and tells so. -/
structure Tells (r : Runner σ) (s : σ) (groups : List (List Token × ℕ)) (rest later : List Token)
    (called : List Command) : Prop where
  groups_words : ∀ g ∈ groups, AllWords g.1
  rest_words : AllWords rest
  split : r.tokensLeft = tokensOf groups ++ rest ++ later
  halts : r.registry.Halts r.faultLeft s groups rest later called (r.run s).result
  events : (r.run s).events = r.started ++ groups.flatMap r.registry.eventsOf ++
    rest.map (fun t => .token t.line false) ++
      [.ofResult (r.dispatched + called.length) (r.run s).result]

section Tells

variable {r : Runner σ} {s t : σ} {c : Command} {lines : List ℕ} {ws : List Token} {line : ℕ}

/-- Behind the last command a run reads all tokens that are left, and ends as they do. -/
theorem Ready.tells_of_last (hr : r.Ready)
    (ht : Parser.LastTurn r.commands.tokens none [] r.commands.turn lines ws) :
    r.Tells s (emptyGroups lines) ws [] [] := by
  have hseen : r.seen = r.started ++ (emptyGroups lines).flatMap r.registry.eventsOf ++
      ws.map (fun t => .token t.line false) := by
    rw [seen_eq, ht.pulled_eq, Registry.flatMap_eventsOf_emptyGroups, ← Event.map_ofToken ht.words]
    simp
  have hrun : (r.run s).result = endResult r.faultLeft ∧
      (r.run s).events = r.seen ++ [.ofResult r.dispatched (endResult r.faultLeft)] := by
    have hitem : r.commands.turn.item = r.faultLeft.map .error := ht.item
    cases hf : r.faultLeft with
    | none =>
      rw [hf] at hitem
      have hs := step_of_none hr.going s hitem
      rw [run_of_none (by rw [hs]), hs]
      exact ⟨rfl, rfl⟩
    | some e =>
      rw [hf] at hitem
      have hs := step_of_error hr.going s hitem
      rw [run_of_error (by rw [hs]), hs]
      exact ⟨rfl, rfl⟩
  have hhalts : r.registry.Halts r.faultLeft s (emptyGroups lines) ws []
      (groupCommands (emptyGroups lines)) (endResult r.faultLeft) :=
    .ended (Registry.accepts_emptyGroups lines s)
  rw [groupCommands_emptyGroups] at hhalts
  refine ⟨words_emptyGroups lines, ht.words, ?_, ?_, ?_⟩
  · rw [List.append_nil]
    exact ht.left
  · rw [hrun.1]
    exact hhalts
  · rw [hrun.2, hrun.1, hseen]
    rfl

section Command

variable (ht : Parser.CommandTurn r.commands.tokens none [] r.commands.turn c lines ws line)
include ht

theorem seen_of_command : r.seen = r.started ++
    (tokensOf (emptyGroups lines ++ [(ws, line)])).map .ofToken := by
  rw [seen_eq, ht.pulled_eq]
  rfl

theorem words_of_command : ∀ g ∈ emptyGroups lines ++ [(ws, line)], AllWords g.1 :=
  List.forall_mem_append.mpr ⟨words_emptyGroups lines, by simpa using ht.words⟩

/-- When the command fails, its boundary is the last token that is read. -/
theorem tells_of_failed {called : List Command} {e : LineError}
    (ho : (r.step s).outcome = .error e)
    (hevents : (r.step s).events = r.started ++
      (emptyGroups lines ++ [(ws, line)]).flatMap r.registry.eventsOf ++
        [.ofResult (r.dispatched + called.length) (.error e)])
    (hhalts : r.registry.Halts r.faultLeft s (emptyGroups lines ++ [(ws, line)]) []
      (tokensBefore (TokenStream.items r.commands.turn.parser.tokens)) called (.error e)) :
    r.Tells s (emptyGroups lines ++ [(ws, line)]) []
      (tokensBefore (TokenStream.items r.commands.turn.parser.tokens)) called := by
  have hrun := run_of_error ho
  refine ⟨words_of_command ht, allWords_nil, ?_, ?_, ?_⟩
  · rw [List.append_nil]
    exact ht.left
  · rw [hrun]
    exact hhalts
  · rw [hrun, hevents, List.map_nil, List.append_nil]

variable (hi : r.commands.turn.item = some (.ok c))
include hi

theorem Ready.tells_of_unknown (hr : r.Ready) (hl : r.registry.lookup c.name = none) :
    r.Tells s (emptyGroups lines ++ [(ws, line)]) []
      (tokensBefore (TokenStream.items r.commands.turn.parser.tokens)) [] := by
  have hs := step_of_unknown hr.going s hi hl
  refine tells_of_failed ht (by rw [hs]) ?_ (Registry.halts_of_missing ht.command hl lines line)
  rw [hs, Registry.flatMap_eventsOf ht.words ht.command, Registry.contains, hl, seen_of_command ht]
  simp [Event.ofResult]

theorem Ready.tells_of_refused (hr : r.Ready) {handler : Handler σ} {e : HandlerError}
    (hl : r.registry.lookup c.name = some handler)
    (hc : handler.call c.params s = (.error e, t)) :
    r.Tells s (emptyGroups lines ++ [(ws, line)]) []
      (tokensBefore (TokenStream.items r.commands.turn.parser.tokens)) [c] := by
  have hs := step_of_refused hr.going hi hl hc
  have he : (handler.call c.params s).1 = .error e := by rw [hc]
  refine tells_of_failed ht (by rw [hs]) ?_ (Registry.halts_of_failed ht.command hl he lines line)
  rw [hs, Registry.flatMap_eventsOf ht.words ht.command, Registry.contains, hl, seen_of_command ht]
  simp [Event.ofResult, Event.ofCommand]

/-- A command that is accepted is told of in front of what the rest of the run tells. -/
theorem Ready.tells_of_accepted (hr : r.Ready) {handler : Handler σ}
    (hl : r.registry.lookup c.name = some handler)
    (hc : handler.call c.params s = (.ok (), t)) {groups : List (List Token × ℕ)}
    {rest later : List Token} {called : List Command}
    (hrest : (r.step s).runner.Tells t groups rest later called) :
    r.Tells s (emptyGroups lines ++ [(ws, line)] ++ groups) rest later (c :: called) := by
  have hs := step_of_accepted hr.going hi hl hc
  have hcommands : groupCommands (emptyGroups lines ++ [(ws, line)]) = [c] := by
    rw [groupCommands_append, groupCommands_emptyGroups, groupCommands_singleton ht.command,
      List.nil_append]
  have haccepts : r.registry.Accepts (groupCommands (emptyGroups lines ++ [(ws, line)])) s := by
    rw [hcommands]
    exact ⟨⟨handler, hl, by rw [hc]⟩, trivial⟩
  have hreplay : r.registry.replay (groupCommands (emptyGroups lines ++ [(ws, line)])) s = t := by
    rw [hcommands, Registry.replay_cons, Registry.replay_nil, Registry.effect_of_lookup hl, hc]
  have hevents : (r.step s).events = r.started ++
      (emptyGroups lines ++ [(ws, line)]).flatMap r.registry.eventsOf := by
    rw [hs, Registry.flatMap_eventsOf ht.words ht.command, Registry.contains, hl,
      seen_of_command ht]
    simp [Event.ofCommand]
  have hrun := run_of_line (r := r) (s := s) (by rw [hs])
  -- from here on the step counts only for the runner and the state that it leaves
  have hleft : r.tokensLeft = tokensOf (emptyGroups lines ++ [(ws, line)]) ++
      (r.step s).runner.tokensLeft := by
    rw [hs]
    exact ht.left
  have hfault : (r.step s).runner.faultLeft = r.faultLeft := by
    rw [hs]
    exact ht.fault.symm
  have hregistry : (r.step s).runner.registry = r.registry := by rw [hs]
  have hstarted : (r.step s).runner.started = [] := by
    rw [hs]
    rfl
  have hdispatched : (r.step s).runner.dispatched = r.dispatched + 1 := by rw [hs]
  have hshared : (r.step s).shared = t := by rw [hs]
  rw [hshared] at hrun
  refine ⟨?_, hrest.rest_words, ?_, ?_, ?_⟩
  · exact List.forall_mem_append.mpr ⟨words_of_command ht, hrest.groups_words⟩
  · rw [hleft, hrest.split, tokensOf_append _ groups]
    simp only [List.append_assoc]
  · have hhalts := hrest.halts
    rw [hregistry, hfault] at hhalts
    have hall := hhalts.append haccepts hreplay
    rw [hcommands] at hall
    rw [hrun]
    exact hall
  · rw [hrun]
    simp only [hrest.events, hevents, hregistry, hstarted, hdispatched]
    rw [List.length_cons, List.nil_append, Nat.add_assoc, Nat.add_comm 1]
    simp only [List.flatMap_append, List.append_assoc]

end Command

end Tells

theorem exists_tells (r : Runner σ) (hr : r.Ready) (s : σ) :
    ∃ groups rest later called, r.Tells s groups rest later called := by
  -- every command that the parser gives leaves a smaller parser
  induction hn : r.commands.size using Nat.strong_induction_on generalizing r s with
  | _ n ih =>
    have hturn := hr.turn_eq
    by_cases hc : ∀ c, r.commands.turn.item ≠ some (.ok c)
    · rw [hturn] at hc
      obtain ⟨lines, ws, ht⟩ := Parser.exists_lastTurn hc
      rw [← hturn] at ht
      exact ⟨_, _, _, _, hr.tells_of_last ht⟩
    · push Not at hc
      obtain ⟨c, hi⟩ := hc
      obtain ⟨lines, ws, line, ht⟩ := Parser.exists_commandTurn (hturn ▸ hi)
      rw [← hturn] at ht
      cases hl : r.registry.lookup c.name with
      | none => exact ⟨_, _, _, _, hr.tells_of_unknown ht hi hl⟩
      | some handler =>
        rcases hcall : handler.call c.params s with ⟨result, t⟩
        cases result with
        | error e => exact ⟨_, _, _, _, hr.tells_of_refused ht hi hl hcall⟩
        | ok =>
          have hs := step_of_accepted hr.going hi hl hcall
          have hlt : r.commands.turn.parser.size < n := hn ▸ Parser.turn_size_lt hi
          obtain ⟨groups, rest, later, called, htells⟩ :=
            ih _ hlt (r.step s).runner (by rw [hs]; exact ⟨rfl, ht.fresh⟩) t (by rw [hs])
          exact ⟨_, _, _, _, hr.tells_of_accepted ht hi hl hcall htells⟩

theorem events_noted (r : Runner σ) (s : σ) (log : List (Call σ)) :
    (r.noted.run (s, log)).events = (r.run s).events := by
  induction hn : r.commands.size using Nat.strong_induction_on generalizing r s log with
  | _ n ih =>
    have hnoted := r.step_noted s log
    cases ho : (r.step s).outcome with
    | error e => rw [run_of_error ho, run_of_error (by rw [hnoted]; exact ho), hnoted]
    | ok given =>
      cases given with
      | none => rw [run_of_none ho, run_of_none (by rw [hnoted]; exact ho), hnoted]
      | some line =>
        have hlt : (r.step s).runner.commands.size < n := hn ▸ step_size_lt ho
        rw [run_of_line ho, run_of_line (by rw [hnoted]; exact ho), hnoted]
        simp only [ih _ hlt _ _ _ rfl]

end Runner

namespace Grammar
open Text (Bytes)

theorem allWords_wordAt (bs : Bytes) (i : ℕ) : AllWords (wordAt bs i) := by
  unfold wordAt
  split
  · exact allWords_nil
  · exact allWords_nil.cons _ _

/-- Only a newline or the end gives a boundary, and nothing behind it. -/
theorem tokensAt_of_boundary {bs : Bytes} {i line : ℕ} {xs ys : List Token}
    (h : tokensAt bs i = xs ++ .boundary line :: ys) :
    (roleAt bs i = some .lineEnd ∨ roleAt bs i = none) ∧ ys = [] := by
  have hnot : ∀ zs, wordAt bs i ≠ xs ++ .boundary line :: zs := by
    intro zs hw
    have hb := allWords_wordAt bs i (.boundary line) (by simp [hw])
    simp [Token.isBoundary] at hb
  have hlast : ∀ {b}, wordAt bs i ++ [b] = xs ++ .boundary line :: ys → ys = [] := by
    intro b hw
    rcases List.eq_nil_or_concat ys with hnil | ⟨zs, z, rfl⟩
    · exact hnil
    · rw [List.concat_eq_append, ← List.cons_append, ← List.append_assoc] at hw
      exact absurd (List.append_inj_left' hw rfl) (hnot zs)
  unfold tokensAt at h
  split at h
  · exact absurd h (hnot ys)
  · rename_i hrole
    exact ⟨.inl hrole, hlast h⟩
  · rename_i hrole
    exact ⟨.inr hrole, hlast h⟩
  · simp at h
  · simp at h

/-- The tokens up to a boundary are those up to the newline or the end that it stands for. -/
theorem exists_position {bs : Bytes} {n line : ℕ} {xs ys : List Token}
    (h : (List.range n).flatMap (tokensAt bs) = xs ++ .boundary line :: ys) :
    ∃ i < n, (roleAt bs i = some .lineEnd ∨ roleAt bs i = none) ∧
      xs ++ [.boundary line] = (List.range (i + 1)).flatMap (tokensAt bs) := by
  induction n generalizing ys with
  | zero => simp at h
  | succ n ih =>
    have hsucc : (List.range (n + 1)).flatMap (tokensAt bs) =
        (List.range n).flatMap (tokensAt bs) ++ tokensAt bs n := by
      simp [List.range_succ]
    have hhere : ∀ zs, xs = (List.range n).flatMap (tokensAt bs) ++ zs →
        tokensAt bs n = zs ++ .boundary line :: ys →
        ∃ i < n + 1, (roleAt bs i = some .lineEnd ∨ roleAt bs i = none) ∧
          xs ++ [.boundary line] = (List.range (i + 1)).flatMap (tokensAt bs) := by
      intro zs hxs hn
      obtain ⟨hrole, rfl⟩ := tokensAt_of_boundary hn
      exact ⟨n, n.lt_succ_self, hrole, by rw [hsucc, hn, hxs, List.append_assoc]⟩
    rw [hsucc] at h
    rcases List.append_eq_append_iff.mp h with ⟨zs, hxs, hn⟩ | ⟨zs, hbefore, hrest⟩
    · exact hhere zs hxs hn
    · cases zs with
      | nil => exact hhere [] (by simpa using hbefore.symm) (by simpa using hrest.symm)
      | cons z zs =>
        obtain ⟨rfl, -⟩ := List.cons.inj hrest
        obtain ⟨i, hi, hrole, htokens⟩ := ih hbefore
        exact ⟨i, by omega, hrole, htokens⟩

end Grammar

namespace Source

theorem exists_position (source : Source) {xs ys : List Token} {line : ℕ}
    (h : source.tokens = xs ++ .boundary line :: ys) :
    ∃ i ≤ source.bytes.length,
      (Grammar.roleAt source.bytes i = some .lineEnd ∨ Grammar.roleAt source.bytes i = none) ∧
        xs ++ [.boundary line] = (List.range (i + 1)).flatMap (Grammar.tokensAt source.bytes) := by
  have hrange : ∃ n ≤ source.bytes.length + 1,
      source.tokens = (List.range n).flatMap (Grammar.tokensAt source.bytes) := by
    unfold tokens
    cases source.failure with
    | none => exact ⟨_, le_rfl, rfl⟩
    | some e => exact ⟨_, Nat.le_succ _, rfl⟩
  obtain ⟨n, hn, htokens⟩ := hrange
  obtain ⟨i, hi, hrole, hupto⟩ := Grammar.exists_position (htokens.symm.trans h)
  exact ⟨i, by omega, hrole, hupto⟩

theorem before_items (source : Source) :
    tokensBefore (TokenStream.items (Tokenizer.ofSource source)) = source.tokens ∧
      firstError? (TokenStream.items (Tokenizer.ofSource source)) = source.fault := by
  have hsplit : ∀ (ts : List Token) (e : Option LineError),
      tokensBefore (ts.map .ok ++ e.toList.map .error) = ts ∧
        firstError? (ts.map .ok ++ e.toList.map .error) = e := by
    intro ts e
    induction ts with
    | nil => cases e <;> exact ⟨rfl, rfl⟩
    | cons t ts ih => exact ⟨congrArg (t :: ·) ih.1, ih.2⟩
  rw [TokenStream.items_tokenizer, Tokenizer.items_ofSource_eq]
  exact hsplit source.tokens source.fault

end Source

namespace Registry

theorem countP_callsOf {r : Registry σ} {cs : List Command} {s : σ} (h : r.Accepts cs s) :
    (r.callsOf cs s).countP r.succeeded = cs.length := by
  induction cs generalizing s with
  | nil => rfl
  | cons c cs ih =>
    obtain ⟨⟨handler, hl, hc⟩, hrest⟩ := h
    have hfirst : r.succeeded ⟨c.name, c.params, s⟩ = true := by
      simp [succeeded, answer?, hl, hc, Except.isOk, Except.toBool]
    rw [callsOf, List.countP_cons_of_pos hfirst, ih hrest, List.length_cons]

section Halts

variable {r : Registry σ} {source : Source} {s : σ} {groups : List (List Token × ℕ)}
  {rest later : List Token} {called : List Command} {result : Except LineError Unit}

/-- On a handler's error one more handler was called than succeeded. -/
theorem Halts.countP_called (h : r.Halts source.fault s groups rest later called result) :
    ((∀ line f, result ≠ .error ⟨line, .handler f⟩) ∧
        (r.callsOf called s).countP r.succeeded = called.length) ∨
      ((∃ line f, result = .error ⟨line, .handler f⟩) ∧
        (r.callsOf called s).countP r.succeeded + 1 = called.length) := by
  cases h with
  | ended accepted =>
    refine .inl ⟨fun line f hr => ?_, countP_callsOf accepted⟩
    cases hf : source.failure <;>
      simp [Source.fault, hf, endResult] at hr
  | unknown accepted command missing =>
    refine .inl ⟨fun line f hr => ?_, countP_callsOf accepted⟩
    simp at hr
  | @refused before _ _ _ c handler e accepted command found failed =>
    refine .inr ⟨⟨_, _, rfl⟩, ?_⟩
    have hlast : r.succeeded ⟨c.name, c.params, r.replay (groupCommands before) s⟩ = false := by
      simp [succeeded, answer?, found, failed, Except.isOk, Except.toBool]
    rw [callsOf_append, List.countP_append, countP_callsOf accepted]
    simp [callsOf, hlast]

/-- Unless a command failed all tokens were read, and else those up to its boundary. -/
theorem Halts.reads_to (h : r.Halts source.fault s groups rest later called result) :
    ((result = .ok () ∨ ∃ line error, result = .error ⟨line, .io error⟩) ∧ later = []) ∨
      ((∃ e, result = .error e ∧ ∀ line error, e ≠ ⟨line, .io error⟩) ∧
        ∃ before ws line, groups = before ++ [(ws, line)] ∧ rest = []) := by
  cases h with
  | ended accepted =>
    refine .inl ⟨?_, rfl⟩
    cases hf : source.failure with
    | none => exact .inl (by simp [Source.fault, hf, endResult])
    | some e => exact .inr ⟨_, e, by rw [Source.fault, hf]; rfl⟩
  | unknown accepted command missing =>
    exact .inr ⟨⟨_, rfl, by simp⟩, _, _, _, rfl, rfl⟩
  | refused accepted command found failed =>
    exact .inr ⟨⟨_, rfl, by simp⟩, _, _, _, rfl, rfl⟩

end Halts

/-- Neither tokens nor calls tell of an end. -/
theorem runFinished_mem_iff {r : Registry σ} {groups : List (List Token × ℕ)} {rest : List Token}
    {n : ℕ} {last : Event} :
    .runFinished n ∈
        [.runStarted r.size] ++ groups.flatMap r.eventsOf ++
          rest.map (fun t => .token t.line false) ++ [last] ↔
      .runFinished n = last := by
  have hgroups : .runFinished n ∉ groups.flatMap r.eventsOf := by
    simp [eventsOf, Event.ofCommand]
  have hrest : .runFinished n ∉ rest.map fun t => Event.token t.line false := by
    simp
  simp [hgroups, hrest]

/-- The events of a run are its start, the tokens that it pulls with each call right behind the
boundary of its command, and one end, which tells the result. The tokens are all that the tokenizer
has, or, when a command fails, those up to its boundary: no token of a byte behind the newline or
the end that completes this command. Each call is told of once, and no command without a handler;
on a handler's error one more call is told of than succeeded. -/
theorem events_tell_run (registry : Registry σ) (source : Source) (s : σ) :
    let run := registry.run source s
    let noted := registry.noted.run source (s, [])
    ∃ (groups : List (List Token × ℕ)) (rest later : List Token) (called : List Command)
        (last : Event),
      let pulled := tokensOf groups ++ rest
      Calls.Yields Tokenizer.next (.ofSource source)
        ((pulled ++ later).map .ok ++ source.fault.toList.map .error) ∧
      Cut pulled groups rest ∧
      run.events = [.runStarted registry.size] ++ groups.flatMap registry.eventsOf ++
        rest.map (fun t => .token t.line false) ++ [last] ∧
      Event.Ends run.dispatched.length run.result last ∧
      ((∃ n, .runFinished n ∈ run.events) ↔ run.result = .ok ()) ∧
      registry.Halts source.fault s groups rest later called run.result ∧
      run.dispatched = called.map Command.summary ∧
      noted.events = run.events ∧
      noted.result = run.result ∧
      noted.shared = (run.shared, registry.callsOf called s) ∧
      (((∀ line f, run.result ≠ .error ⟨line, .handler f⟩) ∧
          noted.shared.2.countP registry.succeeded = run.dispatched.length) ∨
        ((∃ line f, run.result = .error ⟨line, .handler f⟩) ∧
          noted.shared.2.countP registry.succeeded + 1 = run.dispatched.length)) ∧
      (((run.result = .ok () ∨ ∃ line error, run.result = .error ⟨line, .io error⟩) ∧
          later = []) ∨
        ((∃ e, run.result = .error e ∧ ∀ line error, e ≠ ⟨line, .io error⟩) ∧
          ∃ i ≤ source.bytes.length,
            (Grammar.roleAt source.bytes i = some .lineEnd ∨
              Grammar.roleAt source.bytes i = none) ∧
            pulled = (List.range (i + 1)).flatMap (Grammar.tokensAt source.bytes))) := by
  intro run noted
  let start := Runner.ofSource registry source
  have htokens : start.tokensLeft = source.tokens := source.before_items.1
  have hfault : start.faultLeft = source.fault := source.before_items.2
  obtain ⟨groups, rest, later, called, hgroups, hrest, hsplit, hhalts, hevents⟩ :=
    start.exists_tells ⟨rfl, rfl⟩ s
  rw [htokens] at hsplit
  rw [hfault] at hhalts
  -- the dispatch of all commands calls the same handlers, so what it is known to do is what is told
  have hcalled : (registry.sweep (endResult source.fault) source.commands s).called = called := by
    rw [Source.commands, hsplit]
    exact hhalts.called_sweep hgroups hrest
  obtain ⟨hresult, hshared, hdispatched⟩ := registry.run_eq_sweep source s
  obtain ⟨hnoted, hcalls⟩ := registry.run_noted source s
  rw [hcalled] at hdispatched hcalls
  rw [← hresult] at hnoted
  rw [← hshared] at hcalls
  have hcount : run.dispatched.length = called.length := by
    rw [hdispatched, List.length_map]
  have htold : run.events = [.runStarted registry.size] ++ groups.flatMap registry.eventsOf ++
      rest.map (fun t => .token t.line false) ++
        [.ofResult run.dispatched.length run.result] := by
    rw [hcount, ← Nat.zero_add called.length]
    exact hevents
  refine ⟨groups, rest, later, called, _, ?_, ⟨rfl, hgroups, hrest⟩, htold,
    Event.ends_ofResult _ _, ?_, hhalts, hdispatched, start.events_noted s [], hnoted, hcalls, ?_,
    ?_⟩
  · have hyields := Tokenizer.yields_items (.ofSource source)
    rwa [Tokenizer.items_ofSource_eq, hsplit] at hyields
  · simp only [htold, runFinished_mem_iff]
    cases run.result <;> simp [Event.ofResult]
  · rw [hcalls, hcount]
    exact hhalts.countP_called
  · rcases hhalts.reads_to with hall | ⟨hfailed, before, ws, line, rfl, rfl⟩
    · exact .inl hall
    · have hlast : tokensOf (before ++ [(ws, line)]) ++ [] =
          tokensOf before ++ ws ++ [.boundary line] := by
        simp [tokensOf_append]
      rw [hlast, List.append_assoc, List.singleton_append] at hsplit
      rw [hlast]
      exact .inr ⟨hfailed, source.exists_position hsplit⟩

end Registry

end PageScript
