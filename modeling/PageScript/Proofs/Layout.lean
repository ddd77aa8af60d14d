import PageScript.Command
import PageScript.Proofs.Decoding

/-!
# Layouts

The scripts in which a list of commands can be written. A word may have any of its bytes behind a
backslash and must have the special ones there. Blanks stand between words, at both ends of a line
and on blank lines in any number. `print` chooses one script among them.
-/
namespace PageScript.Layout
open Text (Bytes)
open Text.Utf8 (encode)
open Lexer (backslash space tab newline)

/-- The bytes that belong to a word only behind a backslash. -/
def Special (b : UInt8) : Prop := b = backslash ∨ b = space ∨ b = tab ∨ b = newline

instance (b : UInt8) : Decidable (Special b) := by
  unfold Special
  infer_instance

/-- A text of a word, escaped wherever it must be and anywhere else. -/
inductive Spells : Bytes → Bytes → Prop
  | nil : Spells [] []
  | plain {b : UInt8} {text word : Bytes} (ordinary : ¬ Special b) (rest : Spells text word) :
      Spells (b :: text) (b :: word)
  | escaped {b : UInt8} {text word : Bytes} (rest : Spells text word) :
      Spells (backslash :: b :: text) (b :: word)

def Blanks (gap : Bytes) : Prop := ∀ b ∈ gap, b = space ∨ b = tab

/-- Parameters, each of them behind a gap, and the blanks at the end of the line. -/
inductive WritesParams : Bytes → List String → Prop
  | nil {gap : Bytes} (blanks : Blanks gap) : WritesParams gap []
  | cons {gap text rest : Bytes} {param : String} {params : List String} (blanks : Blanks gap)
      (apart : gap ≠ []) (nonempty : param ≠ "") (spelled : Spells text (encode param))
      (others : WritesParams rest params) : WritesParams (gap ++ text ++ rest) (param :: params)

/-- A command from its name on, without the newline that ends it. -/
inductive WritesCommand : Bytes → String → List String → Prop
  | intro {text rest : Bytes} {name : String} {params : List String} (nonempty : name ≠ "")
      (spelled : Spells text (encode name)) (others : WritesParams rest params) :
      WritesCommand (text ++ rest) name params

/-- The rest of a script behind the bytes `before`, and the commands in it. The line of a command
counts all newlines before its name. Only the last command may lack its newline. -/
inductive Writes : Bytes → Bytes → List Command → Prop
  | ended {before gap : Bytes} (blanks : Blanks gap) : Writes before gap []
  | blankLine {before gap rest : Bytes} {cs : List Command} (blanks : Blanks gap)
      (others : Writes (before ++ gap ++ [newline]) rest cs) :
      Writes before (gap ++ newline :: rest) cs
  | command {before gap text rest : Bytes} {name : String} {params : List String}
      {cs : List Command} (blanks : Blanks gap) (written : WritesCommand text name params)
      (others : Writes (before ++ gap ++ text ++ [newline]) rest cs) :
      Writes before (gap ++ text ++ newline :: rest)
        (⟨name, params, 1 + (before ++ gap).count newline⟩ :: cs)
  | lastCommand {before gap text : Bytes} {name : String} {params : List String}
      (blanks : Blanks gap) (written : WritesCommand text name params) :
      Writes before (gap ++ text) [⟨name, params, 1 + (before ++ gap).count newline⟩]

/-- A word with a backslash before each special byte and no other. -/
def escape (word : Bytes) : Bytes :=
  word.flatMap fun b => if Special b then [backslash, b] else [b]

def printParams (params : List String) : Bytes :=
  params.flatMap fun param => space :: escape (encode param)

/-- One line for each command, with one space before each parameter. -/
def print (cs : List Command) : Bytes :=
  cs.flatMap fun c => escape (encode c.name) ++ printParams c.params ++ [newline]

def words (c : Command) : String × List String := (c.name, c.params)

def NoEmptyWord (c : Command) : Prop := c.name ≠ "" ∧ ∀ param ∈ c.params, param ≠ ""

theorem spells_escape (word : Bytes) : Spells (escape word) word := by
  induction word with
  | nil => exact .nil
  | cons b word ih =>
    unfold escape at ih ⊢
    rw [List.flatMap_cons]
    by_cases hb : Special b
    · rw [if_pos hb]
      exact .escaped ih
    · rw [if_neg hb]
      exact .plain hb ih

theorem writesParams_print {params : List String} (h : ∀ param ∈ params, param ≠ "") :
    WritesParams (printParams params) params := by
  induction params with
  | nil => exact .nil (by simp [Blanks, printParams])
  | cons param params ih =>
    have hi := ih fun p hp => h p (List.mem_cons_of_mem _ hp)
    have hp := h param List.mem_cons_self
    have hspace : Blanks [space] := by simp [Blanks]
    exact .cons hspace (by simp) hp (spells_escape (encode param)) hi

theorem blanks_nil : Blanks [] := by
  simp [Blanks]

/-- The canonical script of commands is a script of commands with the same words. -/
theorem writes_print {cs : List Command} (h : ∀ c ∈ cs, NoEmptyWord c) (before : Bytes) :
    ∃ placed, Writes before (print cs) placed ∧ placed.map words = cs.map words := by
  induction cs generalizing before with
  | nil => exact ⟨[], .ended blanks_nil, rfl⟩
  | cons c cs ih =>
    obtain ⟨hname, hparams⟩ := h c List.mem_cons_self
    have hw : WritesCommand (escape (encode c.name) ++ printParams c.params) c.name c.params :=
      .intro hname (spells_escape _) (writesParams_print hparams)
    obtain ⟨placed, hplaced, hwords⟩ := ih (fun d hd => h d (List.mem_cons_of_mem c hd))
      (before ++ [] ++ (escape (encode c.name) ++ printParams c.params) ++ [newline])
    have hc := Writes.command blanks_nil hw hplaced
    have hp : print (c :: cs) =
        [] ++ (escape (encode c.name) ++ printParams c.params) ++ newline :: print cs := by
      simp [print]
    rw [← hp] at hc
    exact ⟨_, hc, by simp [hwords, words]⟩

end PageScript.Layout
