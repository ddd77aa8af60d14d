import PageScript.Proofs.PathEnds
import PageScript.Proofs.TreeKinds

/-!
# Directories made on the way

Making the directories on a way either meets a file, and then nothing is made, or makes those of a
beginning of the way. All are made when no file is met and the system takes the path.
-/
namespace PageScript
open PageScript.Path (counted namesOf Counts EndsAt cut Plain Leads Fits)

namespace Node

/-- No file stands at a place or on the way to it. -/
def Clear (root : Node) (place : List String) : Prop :=
  ∀ way content, way <+: place → root.lookup way ≠ .ok (.file content)

section Clear

variable {root : Node} {here place : List String}

theorem Clear.of_isPrefix (h : Clear root place) (hp : here <+: place) : Clear root here :=
  fun way content hw => h way content (hw.trans hp)

theorem HasDirectory.clear (h : HasDirectory root place) : Clear root place := by
  intro way content hw hf
  obtain ⟨entries, he⟩ := hasDirectory_of_isPrefix h hw
  cases hf.symm.trans he

theorem Clear.append_name {name : String} (h : HasDirectory root here)
    (hfree : ∀ content, root.lookup (here ++ [name]) ≠ .ok (.file content)) :
    Clear root (here ++ [name]) := by
  intro way content hw
  rcases List.prefix_concat_iff.mp hw with rfl | hw
  · exact hfree content
  · exact h.clear way content hw

theorem Clear.missing {e : IoError} (h : Clear root place) (hp : here <+: place)
    (he : root.lookup here = .error e) : e = .noSuchFile := by
  rcases lookup_error he with he | ⟨way, content, hw, hf⟩
  · exact he
  · exact absurd hf (h way content (hw.trans hp))

/-- Behind a missing name there is no file. -/
theorem clear_of_missing (hm : root.lookup here = .error .noSuchFile) (hp : here <+: place) :
    Clear root place := by
  intro way content hw hf
  obtain ⟨hfront, hback⟩ := no_file_of_missing hm hf
  rcases List.prefix_or_prefix_of_prefix hp hw with h | h
  · exact hfront h
  · exact hback h

end Clear

end Node

namespace FileTree
open Node (HasDirectory Clear)

section Bind

variable {α β : Type} {x : Except IoError α} {f : α → Except IoError β}

theorem exists_of_bind_ok {b : β} (h : x.bind f = .ok b) : ∃ a, x = .ok a ∧ f a = .ok b := by
  cases x with
  | error e => cases h
  | ok a => exact ⟨a, rfl, h⟩

theorem exists_of_bind_error {e : IoError} (h : x.bind f = .error e) :
    x = .error e ∨ ∃ a, x = .ok a ∧ f a = .error e := by
  cases x with
  | error e' =>
    obtain rfl := Except.error.inj h
    exact .inl rfl
  | ok a => exact .inr ⟨a, rfl, h⟩

end Bind

section Follow

variable {root : Node} {here there steps : List String}

/-- Steps that never lead up lead to where their names say. -/
theorem eq_of_follow (hup : ".." ∉ steps) (h : follow root here steps = .ok there) :
    there = here ++ counted steps := by
  induction steps generalizing here with
  | nil =>
    obtain rfl := Except.ok.inj h
    simp [counted]
  | cons step steps ih =>
    obtain ⟨hstep, hup⟩ := List.ne_and_not_mem_of_not_mem_cons hup
    rw [follow_cons (hasDirectory_of_follow h), if_neg hstep.symm] at h
    split_ifs at h with hdot
    · simpa [counted, hdot] using ih hup h
    · simpa [counted, hdot] using ih hup h

/-- Where all directories are there, only a name that is too long can stop it. -/
theorem follow_of_hasDirectory (hup : ".." ∉ steps)
    (hshort : ∀ step ∈ steps, Path.isLongName step = false)
    (hd : HasDirectory root (here ++ counted steps)) :
    follow root here steps = .ok (here ++ counted steps) := by
  induction steps generalizing here with
  | nil => simp [follow, counted]
  | cons step steps ih =>
    obtain ⟨hstep, hup⟩ := List.ne_and_not_mem_of_not_mem_cons hup
    obtain ⟨hlong, hshort⟩ := List.forall_mem_cons.mp hshort
    rw [follow_cons (Node.hasDirectory_of_append hd), if_neg hstep.symm, hlong]
    by_cases hdot : step = "."
    · have hc : counted (step :: steps) = counted steps := by simp [counted, hdot]
      rw [hc] at hd ⊢
      rw [if_pos hdot, ih hup hshort hd]
    · have hc : here ++ counted (step :: steps) = here ++ [step] ++ counted steps := by
        simp [counted, hdot]
      rw [hc] at hd ⊢
      rw [if_neg hdot, if_neg Bool.false_ne_true, ih hup hshort hd]

/-- A place that is reported as missing is one on the way. -/
theorem exists_missing_of_follow (hup : ".." ∉ steps)
    (h : follow root here steps = .error .noSuchFile) :
    ∃ way, way <+: counted steps ∧ root.lookup (here ++ way) = .error .noSuchFile := by
  induction steps generalizing here with
  | nil => cases h
  | cons step steps ih =>
    obtain ⟨hstep, hup⟩ := List.ne_and_not_mem_of_not_mem_cons hup
    rw [follow] at h
    split at h
    · rename_i e hl
      obtain rfl := Except.error.inj h
      exact ⟨[], List.nil_prefix, by rwa [List.append_nil]⟩
    · exact absurd (Except.error.inj h) (by decide)
    · rw [if_neg hstep.symm] at h
      split_ifs at h with hdot hlong
      · obtain ⟨way, hw, hl⟩ := ih hup h
        exact ⟨way, by simpa [counted, hdot] using hw, hl⟩
      · exact absurd (Except.error.inj h) (by decide)
      · obtain ⟨way, hw, hl⟩ := ih hup h
        refine ⟨step :: way, ?_, by simpa using hl⟩
        simpa [counted, hdot] using hw

/-- Where no file is met and no name is too long, only a missing place stops it. -/
theorem missing_of_follow {e : IoError} (hup : ".." ∉ steps)
    (hshort : ∀ step ∈ steps, Path.isLongName step = false)
    (hclear : Clear root (here ++ counted steps)) (h : follow root here steps = .error e) :
    e = .noSuchFile := by
  induction steps generalizing here with
  | nil => cases h
  | cons step steps ih =>
    obtain ⟨hstep, hup⟩ := List.ne_and_not_mem_of_not_mem_cons hup
    obtain ⟨hlong, hshort⟩ := List.forall_mem_cons.mp hshort
    rw [follow] at h
    split at h
    · rename_i e' hl
      obtain rfl := Except.error.inj h
      exact hclear.missing (List.prefix_append _ _) hl
    · rename_i content hl
      exact absurd hl (hclear here content (List.prefix_append _ _))
    · rw [if_neg hstep.symm, hlong, if_neg Bool.false_ne_true] at h
      split_ifs at h with hdot
      · exact ih hup hshort (by simpa [counted, hdot] using hclear) h
      · exact ih hup hshort (by simpa [counted, hdot] using hclear) h

end Follow

section Leads

variable {tree : FileTree} {path name : String} {before : List String}

theorem start_of_leads (hl : Leads path before name) (tree : FileTree) :
    tree.start path = tree.base := by
  simp [start, hl.relative]

theorem admissible_of_fits (hne : path ≠ "") (hf : Fits path) : admissible path = .ok () := by
  simp [admissible, hf.noNul, hf.notLong, hne]

theorem admissible_ne_noSuchFile (hne : path ≠ "") : admissible path ≠ .error .noSuchFile := by
  unfold admissible
  rw [if_neg hne]
  split_ifs <;> simp <;> decide

/-- The last name of the path is to be had in the directory to which the names before it lead. -/
theorem place_eq (hl : Leads path before name) (tree : FileTree) :
    tree.place path =
      (admissible path).bind fun _ => (follow tree.root tree.base before).bind fun here =>
        (tree.root.lookup here).bind fun
          | .file _ => .error .notADirectory
          | .directory _ => .ok (here, some name) := by
  have hlast : (Path.names path).getLast? = some name := by simp [hl.names_eq]
  have hname : (some name).filter (fun last => decide (last ≠ "." ∧ last ≠ "..")) = some name := by
    simp [hl.name_ne, hl.name_ne_up]
  rw [place, start_of_leads hl]
  simp only [hl.dropLast_names, hlast, hname]
  rfl

theorem names_before_short (hl : Leads path before name) (hf : Fits path) :
    ∀ step ∈ before, Path.isLongName step = false := by
  intro step hs
  exact hf.names_short step (by rw [hl.names_eq]; exact List.mem_append_left _ hs)

theorem place_of_hasDirectory (hl : Leads path before name) (hf : Fits path)
    (hd : HasDirectory tree.root (tree.base ++ counted before)) :
    tree.place path = .ok (tree.base ++ counted before, some name) := by
  have hfollow := follow_of_hasDirectory hl.no_up_before (names_before_short hl hf) hd
  obtain ⟨entries, he⟩ := hd
  rw [place_eq hl, admissible_of_fits hl.ne_empty hf, hfollow]
  simp only [Except.bind, he]

theorem hasDirectory_of_place (hl : Leads path before name) {here : List String}
    {last : Option String} (h : tree.place path = .ok (here, last)) :
    here = tree.base ++ counted before ∧ last = some name ∧
      HasDirectory tree.root (tree.base ++ counted before) := by
  rw [place_eq hl] at h
  obtain ⟨-, -, h⟩ := exists_of_bind_ok h
  obtain ⟨there, hfollow, h⟩ := exists_of_bind_ok h
  obtain ⟨node, hn, h⟩ := exists_of_bind_ok h
  obtain rfl := eq_of_follow hl.no_up_before hfollow
  cases node with
  | file content => cases h
  | directory entries =>
    cases h
    exact ⟨rfl, rfl, entries, hn⟩

/-- Without files on the way, a place that cannot be had is missing. -/
theorem missing_of_place {e : IoError} (hl : Leads path before name) (hf : Fits path)
    (hclear : Clear tree.root (tree.base ++ counted before)) (h : tree.place path = .error e) :
    e = .noSuchFile := by
  rw [place_eq hl, admissible_of_fits hl.ne_empty hf] at h
  cases hfollow : follow tree.root tree.base before with
  | error e' =>
    rw [hfollow] at h
    cases h
    exact missing_of_follow hl.no_up_before (names_before_short hl hf) hclear hfollow
  | ok there =>
    obtain rfl := eq_of_follow hl.no_up_before hfollow
    rw [hfollow] at h
    cases hn : tree.root.lookup (tree.base ++ counted before) with
    | error e' =>
      simp only [Except.bind, hn] at h
      cases h
      exact hclear.missing (List.prefix_refl _) hn
    | ok node =>
      cases node with
      | file content => exact absurd hn (hclear _ content (List.prefix_refl _))
      | directory entries =>
        simp only [Except.bind, hn] at h
        cases h

/-- A place that is missing is one below which there is no file. -/
theorem clear_of_place (hl : Leads path before name)
    (h : tree.place path = .error .noSuchFile) :
    Clear tree.root (tree.base ++ counted before ++ [name]) := by
  rw [place_eq hl] at h
  rcases exists_of_bind_error h with ha | ⟨-, -, h⟩
  · exact absurd ha (admissible_ne_noSuchFile hl.ne_empty)
  rcases exists_of_bind_error h with hfollow | ⟨there, hfollow, h⟩
  · obtain ⟨way, hw, hm⟩ := exists_missing_of_follow hl.no_up_before hfollow
    have hp : tree.base ++ way <+: tree.base ++ counted before :=
      (List.prefix_append_right_inj _).mpr hw
    exact Node.clear_of_missing hm (hp.trans (List.prefix_append _ _))
  obtain rfl := eq_of_follow hl.no_up_before hfollow
  rcases exists_of_bind_error h with hn | ⟨node, -, h⟩
  · exact Node.clear_of_missing hn (List.prefix_append _ _)
  · cases node with
    | file content => exact absurd (Except.error.inj h) (by decide)
    | directory entries => cases h

end Leads

/-- The directories of a way below the base were made, so far as they were not there. Nothing else
was changed, and no file was met. -/
structure Makes (tree : FileTree) (way : List String) (made : FileTree) : Prop where
  base : made.base = tree.base
  clear : Clear tree.root (tree.base ++ way)
  kindAt : ∀ place, made.root.kindAt place =
    if tree.base <+: place ∧ place <+: tree.base ++ way then some .directory
    else tree.root.kindAt place

section Makes

variable {tree mid made : FileTree} {way : List String}

theorem makes_self (h : HasDirectory tree.root (tree.base ++ way)) : Makes tree way tree := by
  refine ⟨rfl, h.clear, fun place => ?_⟩
  split_ifs with hp
  · exact Node.hasDirectory_iff.mp (Node.hasDirectory_of_isPrefix h hp.2)
  · rfl

theorem Makes.hasDirectory (h : Makes tree way made) :
    HasDirectory made.root (made.base ++ way) := by
  rw [h.base, Node.hasDirectory_iff, h.kindAt,
    if_pos ⟨List.prefix_append _ _, List.prefix_refl _⟩]

theorem Makes.clear_of_clear {place : List String} (h : Makes tree way made) :
    Clear made.root place ↔ Clear tree.root place := by
  constructor
  · intro hclear w content hw hf
    rw [← Node.kindAt_eq_file] at hf
    refine hclear w content hw ?_
    rw [← Node.kindAt_eq_file, h.kindAt, if_neg, hf]
    rintro ⟨-, hp⟩
    exact h.clear w content hp (Node.kindAt_eq_file.mp hf)
  · intro hclear w content hw hf
    rw [← Node.kindAt_eq_file, h.kindAt] at hf
    split_ifs at hf with hp
    · cases hf
    · exact hclear w content hw (Node.kindAt_eq_file.mp hf)

theorem Makes.trans {name : String} (h : Makes tree way mid) (h' : Makes mid (way ++ [name]) made) :
    Makes tree (way ++ [name]) made := by
  refine ⟨h'.base.trans h.base, ?_, fun place => ?_⟩
  · rw [← h.clear_of_clear, ← h.base]
    exact h'.clear
  · rw [h'.kindAt, h.kindAt, h.base]
    split_ifs with hlong hshort
    · rfl
    · refine absurd ⟨hshort.1, hshort.2.trans ?_⟩ hlong
      exact (List.prefix_append_right_inj _).mpr (List.prefix_append _ _)
    · rfl

end Makes

section Ensure

variable {tree made : FileTree} {path name : String} {before : List String}

theorem makes_insert {way : List String} (hd : HasDirectory tree.root (tree.base ++ way))
    {e : IoError} (hfree : tree.root.lookup (tree.base ++ way ++ [name]) = .error e) :
    Makes tree (way ++ [name])
      { tree with root := Node.insert (.directory []) (tree.base ++ way ++ [name]) tree.root } := by
  have hnone : ¬ HasDirectory tree.root (tree.base ++ way ++ [name]) := by
    rintro ⟨entries, he⟩
    cases hfree.symm.trans he
  refine ⟨rfl, ?_, fun place => ?_⟩
  · rw [← List.append_assoc]
    exact Clear.append_name hd fun content hf => by cases hfree.symm.trans hf
  · rw [Node.kindAt_insert hd hnone Node.leaf_directory]
    split_ifs with hplace hp hp
    · rfl
    · exact absurd ⟨by simp [hplace], by simp [hplace]⟩ hp
    · rw [← List.append_assoc, List.prefix_concat_iff] at hp
      have hway := hp.2.resolve_left hplace
      exact Node.hasDirectory_iff.mp (Node.hasDirectory_of_isPrefix hd hway)
    · rfl

theorem hasDirectory_of_isDirectory (hl : Leads path before name)
    (h : tree.isDirectory path = true) :
    HasDirectory tree.root (tree.base ++ (counted before ++ [name])) := by
  unfold isDirectory at h
  split at h
  · rename_i node hs
    rw [stat, start_of_leads hl] at hs
    obtain ⟨-, -, hs⟩ := exists_of_bind_ok hs
    obtain ⟨there, hfollow, hn⟩ := exists_of_bind_ok hs
    have hthere := eq_of_follow hl.no_up_steps hfollow
    rw [hl.counted_steps] at hthere
    subst hthere
    cases node with
    | file content => cases h
    | directory entries => exact ⟨entries, hn⟩
  · cases h

theorem isDirectory_of_hasDirectory (hl : Leads path before name) (hf : Fits path)
    (hd : HasDirectory tree.root (tree.base ++ (counted before ++ [name]))) :
    tree.isDirectory path = true := by
  rw [← hl.counted_steps] at hd
  have hfollow := follow_of_hasDirectory hl.no_up_steps hf.steps_short hd
  obtain ⟨entries, he⟩ := hd
  have hs : tree.stat path = .ok (.directory entries) := by
    rw [stat, admissible_of_fits hl.ne_empty hf, start_of_leads hl]
    simp only [bind, Except.bind, hfollow, he]
  rw [isDirectory, hs]
  rfl

theorem makes_of_make (hl : Leads path before name) (h : tree.make path = .ok made) :
    Makes tree (counted before ++ [name]) made := by
  obtain ⟨⟨here, last⟩, hp, h⟩ := exists_of_bind_ok h
  obtain ⟨rfl, rfl, hd⟩ := hasDirectory_of_place hl hp
  dsimp only at h
  split_ifs at h
  split at h
  · cases h
  · rename_i e hfree
    cases h
    exact makes_insert hd hfree

theorem makes_of_ensure (hl : Leads path before name) (h : tree.ensure path = .ok made) :
    Makes tree (counted before ++ [name]) made := by
  unfold ensure at h
  split at h
  · rename_i made' hm
    cases h
    exact makes_of_make hl hm
  · split_ifs at h with hd
    cases h
    exact makes_self (hasDirectory_of_isDirectory hl hd)

theorem eq_self_of_ensure (hl : Leads path before name)
    (hd : HasDirectory tree.root (tree.base ++ (counted before ++ [name])))
    (h : tree.ensure path = .ok made) : made = tree := by
  unfold ensure at h
  split at h
  · rename_i made' hm
    obtain ⟨⟨here, last⟩, hp, hm⟩ := exists_of_bind_ok hm
    obtain ⟨rfl, rfl, -⟩ := hasDirectory_of_place hl hp
    obtain ⟨entries, he⟩ := hd
    rw [← List.append_assoc] at he
    dsimp only at hm
    rw [he] at hm
    split_ifs at hm
  · split_ifs at h
    exact (Except.ok.inj h).symm

theorem clear_of_ensure (hl : Leads path before name)
    (h : tree.ensure path = .error .noSuchFile) :
    Clear tree.root (tree.base ++ (counted before ++ [name])) := by
  unfold ensure at h
  split at h
  · cases h
  · rename_i e hm
    split_ifs at h
    cases h
    rw [← List.append_assoc]
    rcases exists_of_bind_error hm with hp | ⟨⟨here, last⟩, hp, hm⟩
    · exact clear_of_place hl hp
    · obtain ⟨rfl, rfl, -⟩ := hasDirectory_of_place hl hp
      dsimp only at hm
      split_ifs at hm
      · exact absurd (Except.error.inj hm) (by decide)
      · split at hm
        · exact absurd (Except.error.inj hm) (by decide)
        · cases hm

theorem exists_ensure (hl : Leads path before name) (hf : Fits path)
    (hd : HasDirectory tree.root (tree.base ++ counted before))
    (hclear : Clear tree.root (tree.base ++ (counted before ++ [name]))) :
    ∃ made, tree.ensure path = .ok made := by
  have hlong : Path.isLongName name = false :=
    hf.names_short name (by rw [hl.names_eq]; simp)
  have hplace := place_of_hasDirectory hl hf hd
  rw [← List.append_assoc] at hclear
  unfold ensure
  split
  · exact ⟨_, rfl⟩
  · rename_i e hm
    rw [if_pos]
    · exact ⟨_, rfl⟩
    · refine isDirectory_of_hasDirectory hl hf ?_
      rw [make, hplace] at hm
      simp only [bind, Except.bind, hlong, Bool.false_eq_true, if_false] at hm
      split at hm
      · rename_i node hn
        cases node with
        | file content => exact absurd hn (hclear _ content (List.prefix_refl _))
        | directory entries => exact ⟨entries, by rw [← List.append_assoc]; exact hn⟩
      · cases hm

theorem missing_of_ensure {e : IoError} (hl : Leads path before name) (hf : Fits path)
    (hclear : Clear tree.root (tree.base ++ (counted before ++ [name])))
    (h : tree.ensure path = .error e) : e = .noSuchFile := by
  by_cases hd : HasDirectory tree.root (tree.base ++ counted before)
  · obtain ⟨made, hm⟩ := exists_ensure hl hf hd hclear
    cases hm.symm.trans h
  · unfold ensure at h
    split at h
    · cases h
    · rename_i e' hm
      split_ifs at h
      cases h
      rcases exists_of_bind_error hm with hp | ⟨⟨here, last⟩, hp, -⟩
      · have hbefore : tree.base ++ counted before <+: tree.base ++ (counted before ++ [name]) := by
          rw [← List.append_assoc]
          exact List.prefix_append _ _
        exact missing_of_place hl hf (hclear.of_isPrefix hbefore) hp
      · exact absurd (hasDirectory_of_place hl hp).2.2 hd

end Ensure

/-- What becomes of a tree when the last directory of a way is made sure of, by what became of it
for those before: it is there at once or refused, or it is missing, and those before come first. -/
inductive EnsureStep (tree : FileTree) (path : String) :
    Except IoError Unit × FileTree → Except IoError Unit × FileTree → Prop where
  | at_once {before : Except IoError Unit × FileTree} {made : FileTree}
      (h : tree.ensure path = .ok made) : EnsureStep tree path before (.ok (), made)
  | refused {before : Except IoError Unit × FileTree} {e : IoError}
      (h : tree.ensure path = .error e) (hne : e ≠ .noSuchFile) :
      EnsureStep tree path before (.error e, tree)
  | before_failed {mid : FileTree} {e : IoError}
      (hmissing : tree.ensure path = .error .noSuchFile) :
      EnsureStep tree path (.error e, mid) (.error e, mid)
  | made_then {mid made : FileTree} (hmissing : tree.ensure path = .error .noSuchFile)
      (h : mid.ensure path = .ok made) : EnsureStep tree path (.ok (), mid) (.ok (), made)
  | failed_then {mid : FileTree} {e : IoError} (hmissing : tree.ensure path = .error .noSuchFile)
      (h : mid.ensure path = .error e) : EnsureStep tree path (.ok (), mid) (.error e, mid)

theorem ensureStep (tree : FileTree) (path : String) (last : ℕ) (before : List ℕ) :
    EnsureStep tree (Path.upTo path last) (tree.ensureAll path before)
      (tree.ensureAll path (last :: before)) := by
  rw [ensureAll]
  split
  · exact .at_once ‹_›
  · split_ifs with hmissing
    · subst hmissing
      generalize tree.ensureAll path before = below
      split
      · exact .before_failed ‹_›
      · split
        · exact .made_then ‹_› ‹_›
        · exact .failed_then ‹_› ‹_›
    · exact .refused ‹_› hmissing

section EnsureAll

variable {tree : FileTree} {path : String} {ps : List (List Char)}

/-- What holds of no directories, and with one step of a way longer by a name, holds of the way of
any beginning of a plain path. -/
theorem ensureAll_induction {motive : List String → Except IoError Unit × FileTree → Prop}
    (hplain : Plain path) (hps : ps <+: Text.parts '/' path.toList)
    (nil : motive [] (.ok (), tree))
    (snoc : ∀ front part before result, EndsAt path front part →
      motive (counted (namesOf front)) before →
      EnsureStep tree (cut path front part) before result →
      motive (counted (namesOf front) ++ [String.ofList part]) result) :
    motive (counted (namesOf ps)) (tree.ensureAll path (Path.endsFrom 0 ps).reverse) := by
  induction ps using List.reverseRecOn with
  | nil => exact nil
  | append_singleton ps part ih =>
    have hih := ih ((List.prefix_append _ _).trans hps)
    by_cases hc : Counts part
    · rw [Path.endsFrom_snoc hc, Path.counted_namesOf_snoc hc]
      exact snoc ps part _ _ ⟨hplain, hps, hc⟩ hih (ensureStep tree path _ _)
    · rw [Path.endsFrom_snoc_of_not hc, Path.counted_namesOf_snoc_of_not hc]
      exact hih

/-- Whatever happens, the directories of a beginning of the way were made, and of the whole way if
nothing failed. -/
theorem makes_of_ensureAll (hplain : Plain path) (hps : ps <+: Text.parts '/' path.toList)
    (hbase : HasDirectory tree.root tree.base) :
    ∃ way, way <+: counted (namesOf ps) ∧
      Makes tree way (tree.ensureAll path (Path.endsFrom 0 ps).reverse).2 ∧
      ((tree.ensureAll path (Path.endsFrom 0 ps).reverse).1 = .ok () →
        way = counted (namesOf ps)) := by
  have hself : Makes tree [] tree := makes_self (by rwa [List.append_nil])
  refine ensureAll_induction (motive := fun whole result =>
    ∃ way, way <+: whole ∧ Makes tree way result.2 ∧ (result.1 = .ok () → way = whole))
    hplain hps ⟨[], List.nil_prefix, hself, fun _ => rfl⟩ ?_
  rintro front part before result hends ⟨way, hway, hmakes, hall⟩ hstep
  cases hstep with
  | at_once h => exact ⟨_, List.prefix_refl _, makes_of_ensure hends.leads h, fun _ => rfl⟩
  | refused h hne => exact ⟨[], List.nil_prefix, hself, by simp⟩
  | before_failed hmissing => exact ⟨way, hway.trans (List.prefix_append _ _), hmakes, by simp⟩
  | made_then hmissing h =>
    obtain rfl := hall rfl
    exact ⟨_, List.prefix_refl _, hmakes.trans (makes_of_ensure hends.leads h), fun _ => rfl⟩
  | failed_then hmissing h => exact ⟨way, hway.trans (List.prefix_append _ _), hmakes, by simp⟩

theorem ensureAll_of_not_clear (hplain : Plain path) (hps : ps <+: Text.parts '/' path.toList)
    (hbase : HasDirectory tree.root tree.base)
    (hfile : ¬ Clear tree.root (tree.base ++ counted (namesOf ps))) :
    ∃ e, tree.ensureAll path (Path.endsFrom 0 ps).reverse = (.error e, tree) := by
  refine ensureAll_induction (motive := fun way result =>
    ¬ Clear tree.root (tree.base ++ way) → ∃ e, result = (.error e, tree))
    hplain hps ?_ ?_ hfile
  · intro hnot
    rw [List.append_nil] at hnot
    exact absurd hbase.clear hnot
  · intro front part before result hends _ hstep hnot
    have hmissing : tree.ensure (cut path front part) ≠ .error .noSuchFile :=
      fun h => hnot (clear_of_ensure hends.leads h)
    cases hstep with
    | at_once h => exact absurd (makes_of_ensure hends.leads h).clear hnot
    | refused h hne => exact ⟨_, rfl⟩
    | before_failed h => exact absurd h hmissing
    | made_then h => exact absurd h hmissing
    | failed_then h => exact absurd h hmissing

theorem ensureAll_of_hasDirectory (hplain : Plain path)
    (hps : ps <+: Text.parts '/' path.toList)
    (hd : HasDirectory tree.root (tree.base ++ counted (namesOf ps))) :
    (tree.ensureAll path (Path.endsFrom 0 ps).reverse).2 = tree := by
  refine ensureAll_induction (motive := fun way result =>
    HasDirectory tree.root (tree.base ++ way) → result.2 = tree) hplain hps (fun _ => rfl) ?_ hd
  intro front part before result hends ih hstep hd
  have hsame := ih (Node.hasDirectory_of_isPrefix hd (by simp))
  cases hstep with
  | at_once h => exact eq_self_of_ensure hends.leads hd h
  | refused h hne => rfl
  | before_failed hmissing => exact hsame
  | made_then hmissing h =>
    obtain rfl := hsame
    cases hmissing.symm.trans h
  | failed_then hmissing h => exact hsame

theorem ensureAll_of_clear (hplain : Plain path) (hfits : Fits path)
    (hps : ps <+: Text.parts '/' path.toList) (hbase : HasDirectory tree.root tree.base)
    (hclear : Clear tree.root (tree.base ++ counted (namesOf ps))) :
    (tree.ensureAll path (Path.endsFrom 0 ps).reverse).1 = .ok () ∧
      Makes tree (counted (namesOf ps)) (tree.ensureAll path (Path.endsFrom 0 ps).reverse).2 := by
  refine ensureAll_induction (motive := fun way result =>
    Clear tree.root (tree.base ++ way) → result.1 = .ok () ∧ Makes tree way result.2)
    hplain hps (fun _ => ⟨rfl, makes_self (by rwa [List.append_nil])⟩) ?_ hclear
  intro front part before result hends ih hstep hclear
  have hl := hends.leads
  obtain ⟨hrest, hmakes⟩ := ih (hclear.of_isPrefix (by simp))
  cases hstep with
  | at_once h => exact ⟨rfl, makes_of_ensure hl h⟩
  | refused h hne => exact absurd (missing_of_ensure hl (hends.fits hfits) hclear h) hne
  | before_failed hmissing => cases hrest
  | made_then hmissing h => exact ⟨rfl, hmakes.trans (makes_of_ensure hl h)⟩
  | failed_then hmissing h =>
    -- the directory above is there now, so the second attempt does not fail
    obtain ⟨made, hm⟩ := exists_ensure hl (hends.fits hfits) hmakes.hasDirectory
      (by rw [hmakes.base, hmakes.clear_of_clear]; exact hclear)
    cases hm.symm.trans h

end EnsureAll

end FileTree

end PageScript
