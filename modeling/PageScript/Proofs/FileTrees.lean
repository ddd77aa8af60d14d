import Mathlib
import PageScript.FileTree

namespace PageScript
open Text (Bytes)

namespace Node

def HasDirectory (root : Node) (path : List String) : Prop :=
  ∃ entries, root.lookup path = .ok (.directory entries)

theorem hasDirectory_cons {entries : List (String × Node)} {name : String} {path : List String} :
    HasDirectory (.directory entries) (name :: path) ↔
      ∃ child, entries.lookup name = some child ∧ HasDirectory child path := by
  unfold HasDirectory
  rw [lookup]
  cases entries.lookup name <;> simp

theorem not_hasDirectory_file (content : Bytes) (path : List String) :
    ¬ HasDirectory (.file content) path := by
  rintro ⟨entries, h⟩
  cases path <;> simp [lookup] at h

theorem lookup_insert {root node : Node} {here : List String} {name : String}
    (h : HasDirectory root here) :
    (insert node (here ++ [name]) root).lookup (here ++ [name]) = .ok node := by
  induction here generalizing root with
  | nil =>
    cases root with
    | file content => exact absurd h (not_hasDirectory_file content [])
    | directory entries => simp [insert, lookup, lookup_put_same]
  | cons step here ih =>
    cases root with
    | file content => exact absurd h (not_hasDirectory_file content _)
    | directory entries =>
      obtain ⟨child, hc, hd⟩ := hasDirectory_cons.mp h
      simp [insert, lookup, lookup_put_same, hc, ih hd]

theorem hasDirectory_insert {root node : Node} {path other : List String}
    (hp : ¬ HasDirectory root path) (h : HasDirectory root other) :
    HasDirectory (insert node path root) other := by
  induction path generalizing root other with
  | nil =>
    cases root with
    | file content => exact absurd h (not_hasDirectory_file content other)
    | directory entries => exact absurd ⟨entries, rfl⟩ hp
  | cons name path ih =>
    cases root with
    | file content => exact absurd h (not_hasDirectory_file content other)
    | directory entries =>
      cases other with
      | nil => exact ⟨_, rfl⟩
      | cons step other =>
        obtain ⟨child, hc, hd⟩ := hasDirectory_cons.mp h
        refine hasDirectory_cons.mpr ?_
        by_cases hs : step = name
        · subst hs
          have hpath : ¬ HasDirectory child path :=
            fun hpath => hp (hasDirectory_cons.mpr ⟨child, hc, hpath⟩)
          refine ⟨insert node path child, ?_, ih hpath hd⟩
          simp [lookup_put_same, hc]
        · exact ⟨child, by rw [lookup_put_other hs, hc], hd⟩

end Node

namespace FileTree
open Node (HasDirectory)

theorem hasDirectory_of_follow {root : Node} {here there rest : List String} {step : String}
    (h : follow root here (step :: rest) = .ok there) : HasDirectory root here := by
  rw [follow] at h
  cases hl : root.lookup here with
  | error e => simp [hl] at h
  | ok node =>
    cases node with
    | file content => simp [hl] at h
    | directory entries => exact ⟨entries, hl⟩

theorem follow_cons {root : Node} {here : List String} (hd : HasDirectory root here)
    (step : String) (rest : List String) :
    follow root here (step :: rest) =
      if step = "." then follow root here rest
      else if step = ".." then follow root here.dropLast rest
      else if Path.isLongName step then .error .nameTooLong
      else follow root (here ++ [step]) rest := by
  obtain ⟨entries, he⟩ := hd
  rw [follow, he]

theorem follow_append {root : Node} {here there steps : List String}
    (h : follow root here steps = .ok there) (rest : List String) :
    follow root here (steps ++ rest) = follow root there rest := by
  induction steps generalizing here with
  | nil =>
    obtain rfl := Except.ok.inj h
    rfl
  | cons step steps ih =>
    have hd := hasDirectory_of_follow h
    rw [follow_cons hd] at h
    rw [List.cons_append, follow_cons hd]
    split_ifs at h ⊢
    · exact ih h
    · exact ih h
    · exact ih h

/-- Steps lead to the same place in a tree that has all the directories. -/
theorem follow_mono {root root' : Node}
    (hr : ∀ path, HasDirectory root path → HasDirectory root' path)
    {here there steps : List String} (h : follow root here steps = .ok there) :
    follow root' here steps = .ok there := by
  induction steps generalizing here with
  | nil => exact h
  | cons step steps ih =>
    have hd := hasDirectory_of_follow h
    rw [follow_cons hd] at h
    rw [follow_cons (hr here hd)]
    split_ifs at h ⊢
    · exact ih h
    · exact ih h
    · exact ih h

/-- What is known of a place where a name can be made. -/
structure Places (tree : FileTree) (path : String) (here : List String) (name : String) : Prop where
  admitted : admissible path = .ok ()
  names : Path.names path = (Path.names path).dropLast ++ [name]
  reached : follow tree.root (tree.start path) (Path.names path).dropLast = .ok here
  directory : HasDirectory tree.root here
  notDot : name ≠ "."
  notUp : name ≠ ".."

theorem places_of_place {tree : FileTree} {path : String} {here : List String} {name : String}
    (h : tree.place path = .ok (here, some name)) : Places tree path here name := by
  unfold place at h
  cases ha : admissible path with
  | error e => simp [ha, bind, Except.bind] at h
  | ok u =>
    cases hf : follow tree.root (tree.start path) (Path.names path).dropLast with
    | error e => simp [ha, hf, bind, Except.bind] at h
    | ok there =>
      cases hl : tree.root.lookup there with
      | error e => simp [ha, hf, hl, bind, Except.bind] at h
      | ok node =>
        cases node with
        | file content => simp [ha, hf, hl, bind, Except.bind] at h
        | directory entries =>
          simp only [ha, hf, hl, bind, Except.bind, Except.ok.injEq, Prod.mk.injEq] at h
          obtain ⟨rfl, hlast⟩ := h
          obtain ⟨hlast, hname⟩ := Option.filter_eq_some_iff.mp hlast
          obtain ⟨hdot, hup⟩ := of_decide_eq_true hname
          have hnames := (List.dropLast_append_getLast? name hlast).symm
          exact ⟨ha, hnames, hf, ⟨entries, hl⟩, hdot, hup⟩

theorem places_of_write {tree written : FileTree} {path : String} {content : Bytes}
    (h : tree.write path content = .ok written) :
    ∃ here name, Places tree path here name ∧ Path.wantsDirectory path = false ∧
      Path.isLongName name = false ∧ ¬ HasDirectory tree.root (here ++ [name]) ∧
      written = { tree with root := Node.insert (.file content) (here ++ [name]) tree.root } := by
  unfold write at h
  cases hp : tree.place path with
  | error e => simp [hp, bind, Except.bind] at h
  | ok place =>
    obtain ⟨here, name | name⟩ := place
    · simp [hp, bind, Except.bind] at h
    · simp only [hp, bind, Except.bind] at h
      split_ifs at h with hw hl
      have hplaces := places_of_place hp
      split at h
      · simp at h
      · rename_i hfree
        have hd : ¬ HasDirectory tree.root (here ++ [name]) := fun ⟨_, he⟩ => hfree _ he
        exact ⟨here, name, hplaces, Bool.eq_false_iff.mpr hw, Bool.eq_false_iff.mpr hl, hd,
          (Except.ok.inj h).symm⟩

theorem stat_write {tree written : FileTree} {path : String} {content : Bytes}
    (h : tree.write path content = .ok written) : written.stat path = .ok (.file content) := by
  obtain ⟨here, name, hp, hw, hl, hd, rfl⟩ := places_of_write h
  have hkept : ∀ other, HasDirectory tree.root other →
      HasDirectory (Node.insert (.file content) (here ++ [name]) tree.root) other :=
    fun other => Node.hasDirectory_insert hd
  have hreached := follow_mono hkept hp.reached
  have hsteps : Path.steps path = (Path.names path).dropLast ++ [name] := by
    rw [Path.steps, hw]
    exact hp.names
  have hfollow : follow (Node.insert (.file content) (here ++ [name]) tree.root)
      (tree.start path) (Path.steps path) = .ok (here ++ [name]) := by
    rw [hsteps, follow_append hreached, follow_cons (hkept here hp.directory), if_neg hp.notDot,
      if_neg hp.notUp, hl]
    rfl
  have hnode : (Node.insert (.file content) (here ++ [name]) tree.root).lookup (here ++ [name]) =
      .ok (.file content) := Node.lookup_insert hp.directory
  have hstart : start { tree with root := Node.insert (.file content) (here ++ [name]) tree.root }
      path = tree.start path := rfl
  rw [stat, hp.admitted, hstart]
  simp only [bind, Except.bind, hfollow, hnode]

/-- After a successful save the path leads to the file, whatever was there before. -/
theorem stat_save {tree : FileTree} {path : String} {content : Bytes}
    (h : (tree.save path content).1 = .ok ()) :
    (tree.save path content).2.stat path = .ok (.file content) := by
  unfold save at h ⊢
  split at h
  · simp at h
  · split at h
    · simp at h
    · rename_i hwrite
      exact stat_write hwrite

end FileTree

end PageScript
