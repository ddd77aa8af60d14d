import PageScript.Proofs.FileTrees

namespace PageScript
open Text (Bytes)

/-- A node without the entries of a directory. -/
inductive Kind where
  | file (content : Bytes)
  | directory
  deriving DecidableEq, Repr

namespace Node

def kind : Node → Kind
  | file content => .file content
  | directory _ => .directory

def kindAt (root : Node) (place : List String) : Option Kind :=
  (root.lookup place).toOption.map kind

section Lookup

variable {root node : Node} {here way : List String}

theorem lookup_append (root : Node) (here way : List String) :
    root.lookup (here ++ way) = (root.lookup here).bind (lookup way) := by
  induction here generalizing root with
  | nil => rfl
  | cons name here ih =>
    cases root with
    | file content => rfl
    | directory entries =>
      rw [List.cons_append, lookup, lookup]
      cases entries.lookup name with
      | none => rfl
      | some child => exact ih child

theorem hasDirectory_iff : HasDirectory root here ↔ root.kindAt here = some .directory := by
  unfold HasDirectory kindAt
  cases root.lookup here with
  | error e => simp [Except.toOption]
  | ok node => cases node <;> simp [Except.toOption, kind]

theorem kindAt_eq_file {content : Bytes} :
    root.kindAt here = some (.file content) ↔ root.lookup here = .ok (.file content) := by
  unfold kindAt
  cases root.lookup here with
  | error e => simp [Except.toOption]
  | ok node => cases node <;> simp [Except.toOption, kind]

theorem hasDirectory_of_lookup {name : String} (h : root.lookup (here ++ name :: way) = .ok node) :
    HasDirectory root here := by
  rw [lookup_append] at h
  cases hl : root.lookup here with
  | error e => simp [hl, Except.bind] at h
  | ok found =>
    cases found with
    | file content => simp [hl, Except.bind, lookup] at h
    | directory entries => exact ⟨entries, hl⟩

theorem hasDirectory_of_append (h : HasDirectory root (here ++ way)) : HasDirectory root here := by
  cases way with
  | nil => rwa [List.append_nil] at h
  | cons name way =>
    obtain ⟨entries, he⟩ := h
    exact hasDirectory_of_lookup he

theorem hasDirectory_of_isPrefix {place : List String} (h : HasDirectory root place)
    (hp : here <+: place) : HasDirectory root here := by
  obtain ⟨way, rfl⟩ := hp
  exact hasDirectory_of_append h

theorem lookup_error {e : IoError} (h : root.lookup here = .error e) :
    e = .noSuchFile ∨ ∃ way content, way <+: here ∧ root.lookup way = .ok (.file content) := by
  induction here generalizing root with
  | nil => simp [lookup] at h
  | cons name here ih =>
    cases root with
    | file content => exact .inr ⟨[], content, List.nil_prefix, rfl⟩
    | directory entries =>
      rw [lookup] at h
      cases hc : entries.lookup name with
      | none =>
        rw [hc] at h
        exact .inl (Except.error.inj h).symm
      | some child =>
        rw [hc] at h
        refine (ih h).imp_right ?_
        rintro ⟨way, content, hw, hl⟩
        refine ⟨name :: way, content, List.cons_prefix_cons.mpr ⟨rfl, hw⟩, ?_⟩
        rw [lookup, hc]
        exact hl

/-- Where nothing is because a name is missing, no file stands on the way. -/
theorem no_file_of_missing {place : List String} {content : Bytes}
    (hm : root.lookup here = .error .noSuchFile) (hf : root.lookup place = .ok (.file content)) :
    ¬ here <+: place ∧ ¬ place <+: here := by
  constructor
  · rintro ⟨way, rfl⟩
    rw [lookup_append, hm] at hf
    cases hf
  · rintro ⟨way, rfl⟩
    rw [lookup_append, hf] at hm
    cases way with
    | nil => cases hm
    | cons name way => exact absurd (Except.error.inj hm) (by decide)

end Lookup

section Insert

variable {root node : Node} {here place : List String} {name : String}

/-- A node that was put somewhere is not seen where its place is not passed. -/
theorem kindAt_insert_other (hd : HasDirectory root here) (hp : ¬ here ++ [name] <+: place) :
    (insert node (here ++ [name]) root).kindAt place = root.kindAt place := by
  induction here generalizing root place with
  | nil =>
    cases root with
    | file content => exact absurd hd (not_hasDirectory_file content [])
    | directory entries =>
      cases place with
      | nil => rfl
      | cons step place =>
        have hs : step ≠ name := by
          rintro rfl
          exact hp (by simp)
        simp [kindAt, insert, lookup, lookup_put_other hs]
  | cons first here ih =>
    cases root with
    | file content => exact absurd hd (not_hasDirectory_file content _)
    | directory entries =>
      obtain ⟨child, hc, hchild⟩ := hasDirectory_cons.mp hd
      cases place with
      | nil => rfl
      | cons step place =>
        by_cases hs : step = first
        · subst hs
          have hp' : ¬ here ++ [name] <+: place := fun hpre =>
            hp (List.cons_prefix_cons.mpr ⟨rfl, hpre⟩)
          have hkind := ih hchild hp'
          simpa [kindAt, insert, lookup, lookup_put_same, hc] using hkind
        · simp [kindAt, insert, lookup, lookup_put_other hs]

/-- Nothing stands below the place. -/
def Leaf (node : Node) : Prop := ∀ name way, ∃ e, node.lookup (name :: way) = .error e

theorem leaf_file (content : Bytes) : Leaf (.file content) := fun _ _ => ⟨_, rfl⟩

theorem leaf_directory : Leaf (.directory []) := fun _ _ => ⟨_, rfl⟩

/-- Putting a node with nothing below it where no directory was changes what stands there. -/
theorem kindAt_insert (hd : HasDirectory root here) (hfree : ¬ HasDirectory root (here ++ [name]))
    (hleaf : Leaf node) (place : List String) :
    (insert node (here ++ [name]) root).kindAt place =
      if place = here ++ [name] then some node.kind else root.kindAt place := by
  have hnode : (insert node (here ++ [name]) root).lookup (here ++ [name]) = .ok node :=
    lookup_insert hd
  by_cases hp : here ++ [name] <+: place
  · obtain ⟨way, rfl⟩ := hp
    cases way with
    | nil => simp [kindAt, hnode, Except.toOption]
    | cons step way =>
      obtain ⟨e, he⟩ := hleaf step way
      have hnone : root.kindAt (here ++ [name] ++ step :: way) = none := by
        cases hl : root.lookup (here ++ [name] ++ step :: way) with
        | error e =>
          rw [kindAt, hl]
          rfl
        | ok found => exact absurd (hasDirectory_of_lookup hl) hfree
      rw [hnone, kindAt, lookup_append, hnode]
      simp [Except.bind, he, Except.toOption]
  · have hne : place ≠ here ++ [name] := fun he => hp (he ▸ List.prefix_refl _)
    rw [if_neg hne, kindAt_insert_other hd hp]

end Insert

end Node

end PageScript
