import PageScript.Cli.Program
import PageScript.Proofs.Flags
import PageScript.Proofs.JsonTexts
import PageScript.Proofs.StartPage

/-!
# Check and run

A check reads a script to its end and calls nothing. A run stops at the first command that fails,
and may not get to a failing read. The errors that one of them gives are compared with what the
other says of the same script, in worlds that only the clock and the wish for JSON tell apart.
-/
namespace PageScript.Config

end PageScript.Config

namespace PageScript.Cli
open StartPage

/-- Two worlds that differ in the clock and in `CONFLANG_JSON` at most. -/
structure World.Alike (w w' : World) : Prop where
  env : ∀ name, name ≠ "CONFLANG_JSON" → w.env name = w'.env name
  stat : w.stat = w'.stat
  openFile : w.openFile = w'.openFile
  stdin : w.stdin = w'.stdin
  home : w.home = w'.home

/-- What is logged before and while a script is read. -/
def Session.logged (s : Session) (events : List Event) : String :=
  unlines (s.notes ++ s.logging.lines (.configLoaded s.configPath :: events))

/-- The output is a text of a JSON value. -/
def Outcome.Prints (o : Outcome) (v : Json) : Prop :=
  ∃ text : String, o.stdout = text ++ "\n" ∧ v.IsText text.toList

/-- The error of a script as JSON in the output, or as a line behind the log. -/
structure Outcome.Reports (o : Outcome) (s : Session) (path : String) (events : List Event)
    (e : LineError) : Prop where
  exit : o.exit = 2
  json : s.json = true → o.stderr = s.logged events ∧ ∃ v cause, o.Prints v ∧ e.cause.Says cause ∧
    v.HasMembers [("status", .text "error"), ("file", .text path), ("line", .number e.line),
      ("error", .text cause)]
  text : s.json = false → o.stdout = "" ∧ ∃ cause, e.cause.Says cause ∧
    o.stderr = s.logged events ++
      (path ++ ": error: " ++ cause ++ " (at line " ++ toString e.line ++ ")\n")

abbrev runOf (source : Source) : Runner.Finish Settings := registry.run source Settings.initial

section Alike

variable {w w' : World} {i i' : Invocation} {file : Option String} {s : Session} {path : String}
  {source : Source}

theorem World.Alike.symm (h : w.Alike w') : w'.Alike w where
  env := fun name hname => (h.env name hname).symm
  stat := h.stat.symm
  openFile := h.openFile.symm
  stdin := h.stdin.symm
  home := h.home.symm

theorem World.Alike.configDir (h : w.Alike w') :
    w.env.configDir w.home = w'.env.configDir w'.home := by
  unfold Environment.configDir
  rw [h.env "XDG_CONFIG_HOME" (by decide), h.env "HOME" (by decide), h.home]

theorem World.Alike.configPath (h : w.Alike w') (hi : i.config = i'.config) :
    w.configPath i = w'.configPath i' := by
  unfold World.configPath Environment.configPath
  rw [hi, h.env "CONFLANG_CONFIG" (by decide), h.configDir]

theorem World.Alike.default (h : w.Alike w') :
    Config.default w.env w.home = .default w'.env w'.home := by
  unfold Config.default Environment.defaultScript
  rw [h.configDir]

theorem World.Alike.loadConfig (h : w.Alike w') (path : String) :
    w.loadConfig path = w'.loadConfig path := by
  unfold World.loadConfig
  rw [h.default, h.stat, h.openFile]

theorem World.Alike.openScript (h : w.Alike w') (path : String) :
    w.openScript path = w'.openScript path := by
  unfold World.openScript
  rw [h.openFile, h.stdin]

/-- The sessions have the same configuration, or neither starts. -/
theorem World.Alike.session (h : w.Alike w') (hi : i.config = i'.config)
    (hs : w.session i = .ok s) : ∃ s', w'.session i' = .ok s' ∧ s'.config = s.config := by
  unfold World.session at hs ⊢
  rw [h.loadConfig, h.configPath hi] at hs
  cases hc : w'.loadConfig (w'.configPath i') with
  | error e =>
    rw [hc] at hs
    cases hs
  | ok config =>
    rw [hc] at hs
    cases hs
    exact ⟨_, rfl, rfl⟩

end Alike

section Outcomes

variable {w : World} {i : Invocation} {file : Option String} {s : Session} {path : String}
  {source : Source} {events : List Event} {e : LineError} {elapsed : ℕ}

theorem unlines_append (xs ys : List String) : unlines (xs ++ ys) = unlines xs ++ unlines ys := by
  simp [unlines, String.join_append]

theorem stderr_outcome (s : Session) (exit : ℕ) (stdout : String) (events : List Event)
    (errors : List String) :
    (s.outcome exit stdout events errors).stderr = s.logged events ++ unlines errors := by
  rw [Session.outcome, unlines_append, Session.logged]

theorem stderr_outcome_nil (s : Session) (exit : ℕ) (stdout : String) (events : List Event) :
    (s.outcome exit stdout events []).stderr = s.logged events :=
  (stderr_outcome s exit stdout events []).trans String.append_empty

theorem prints_outcome (s : Session) (exit : ℕ) (v : Json) (events : List Event)
    (errors : List String) : (s.outcome exit (Report.printed v) events errors).Prints v :=
  ⟨v.pretty, rfl, v.isText_pretty⟩

theorem hasMembers_failureJson (path : String) (e : LineError) :
    (Report.failureJson path e).HasMembers [("status", .text "error"), ("file", .text path),
      ("line", .number e.line), ("error", .text e.cause.message)] :=
  ⟨_, rfl, by simp [Json.member?, List.lookup_cons]⟩

theorem unlines_failureLine (path : String) (e : LineError) :
    unlines [Report.failureLine path e] =
      path ++ ": error: " ++ e.cause.message ++ " (at line " ++ toString e.line ++ ")\n" := by
  have hmessage : e.message = e.cause.message ++ " (at line " ++ toString e.line ++ ")" := rfl
  simp [unlines, Report.failureLine, hmessage, String.append_assoc]

theorem reports_scriptFailed (s : Session) (path : String) (events : List Event) (e : LineError) :
    (s.scriptFailed path events e).Reports s path events e := by
  unfold Session.scriptFailed
  cases hj : s.json with
  | true =>
    refine ⟨rfl, fun _ => ⟨stderr_outcome_nil s _ _ _, ?_⟩, fun h => by simp [hj] at h⟩
    exact ⟨_, _, prints_outcome s _ _ _ _, e.cause.says_message, hasMembers_failureJson path e⟩
  | false =>
    refine ⟨rfl, fun h => by simp [hj] at h, fun _ => ⟨rfl, _, e.cause.says_message, ?_⟩⟩
    rw [← unlines_failureLine]
    exact stderr_outcome s _ _ _ _

theorem run_of_error (h : (runOf source).result = .error e) :
    (s.run elapsed path source).Reports s path (runOf source).events e := by
  simp only [Session.run, h]
  exact reports_scriptFailed s path _ e

end Outcomes

section Scripts

variable {source : Source} {e : LineError}

end Scripts

section Commands

variable {w w' : World} {i i' : Invocation} {file : Option String} {s s' : Session}
  {path : String} {source : Source} {elapsed elapsed' : ℕ}

end Commands

end PageScript.Cli
