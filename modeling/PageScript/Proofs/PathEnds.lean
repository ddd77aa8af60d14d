import Mathlib
import PageScript.Path

namespace PageScript.Path
open Text (parts parts_append parts_of_not_mem)

/-- The characters of parts with a separator behind each. -/
def width : List (List Char) → ℕ
  | [] => 0
  | part :: rest => part.length + 1 + width rest

/-- The first part and what is behind its separator, if there is one. -/
theorem parts_eq_cons {separator : Char} {cs part : List Char} {rest : List (List Char)}
    (h : parts separator cs = part :: rest) :
    separator ∉ part ∧
      (rest = [] ∧ cs = part ∨
        ∃ later, cs = part ++ separator :: later ∧ parts separator later = rest) := by
  induction cs generalizing part with
  | nil =>
    obtain ⟨rfl, rfl⟩ := by simpa [parts] using h
    simp
  | cons c cs ih =>
    rw [parts] at h
    split_ifs at h with hc
    · obtain ⟨rfl, rfl⟩ := List.cons.inj h
      exact ⟨by simp, .inr ⟨cs, by rw [hc]; rfl, rfl⟩⟩
    · obtain ⟨first, more, hp⟩ := List.exists_cons_of_ne_nil (Text.parts_ne_nil separator cs)
      simp only [hp] at h
      obtain ⟨rfl, rfl⟩ := List.cons.inj h
      obtain ⟨hfirst, hmore⟩ := ih hp
      refine ⟨by simp [hfirst, Ne.symm hc], ?_⟩
      rcases hmore with ⟨rfl, rfl⟩ | ⟨later, rfl, hl⟩
      · exact .inl ⟨rfl, rfl⟩
      · exact .inr ⟨later, rfl, hl⟩

/-- A text cut where one of its parts ends has the parts up to this one. -/
theorem parts_take {separator : Char} {cs part : List Char} {front back : List (List Char)}
    (h : parts separator cs = front ++ part :: back) :
    parts separator (cs.take (width front + part.length)) = front ++ [part] := by
  induction front generalizing cs with
  | nil =>
    obtain ⟨hpart, hrest⟩ := parts_eq_cons h
    have htake : cs.take part.length = part := by
      rcases hrest with ⟨-, rfl⟩ | ⟨later, rfl, -⟩ <;> simp
    rw [width, Nat.zero_add, htake]
    exact parts_of_not_mem hpart
  | cons first front ih =>
    obtain ⟨hfirst, hrest⟩ := parts_eq_cons h
    rcases hrest with ⟨hnil, -⟩ | ⟨later, rfl, hl⟩
    · simp at hnil
    · have hwidth : width (first :: front) + part.length =
          first.length + (width front + part.length + 1) := by
        rw [width]
        omega
      rw [hwidth, List.take_length_add_append, List.take_succ_cons, parts_append hfirst, ih hl]
      rfl

/-- A part of a path that is one of its components. -/
def Counts (part : List Char) : Prop := part ≠ [] ∧ part ≠ ['.']

instance (part : List Char) : Decidable (Counts part) := inferInstanceAs (Decidable (_ ∧ _))

theorem endsFrom_append (place : ℕ) (front back : List (List Char)) :
    endsFrom place (front ++ back) =
      endsFrom place front ++ endsFrom (place + width front) back := by
  induction front generalizing place with
  | nil => rfl
  | cons part front ih =>
    have hplace : place + width (part :: front) = place + part.length + 1 + width front := by
      rw [width]
      omega
    rw [List.cons_append, endsFrom, endsFrom, ih, hplace]
    split_ifs <;> simp

theorem endsFrom_singleton (place : ℕ) (part : List Char) :
    endsFrom place [part] = if Counts part then [place + part.length] else [] := by
  by_cases hnil : part = []
  · simp [endsFrom, Counts, hnil]
  · by_cases hdot : part = ['.'] <;> simp [endsFrom, Counts, hnil, hdot]

theorem endsFrom_eq_nil {ps : List (List Char)} (h : ∀ part ∈ ps, ¬ Counts part) (place : ℕ) :
    endsFrom place ps = [] := by
  induction ps generalizing place with
  | nil => rfl
  | cons part ps ih =>
    obtain ⟨hpart, hps⟩ := List.forall_mem_cons.mp h
    have hone := endsFrom_singleton place part
    rw [if_neg hpart] at hone
    rw [← List.singleton_append, endsFrom_append, hone, ih hps]
    rfl

def counted (names : List String) : List String := names.filter (· ≠ ".")

def namesOf (ps : List (List Char)) : List String := (ps.map String.ofList).filter (· ≠ "")

theorem names_eq_namesOf (path : String) : names path = namesOf (parts '/' path.toList) := rfl

theorem namesOf_append (xs ys : List (List Char)) :
    namesOf (xs ++ ys) = namesOf xs ++ namesOf ys := by
  simp [namesOf]

theorem counted_append (xs ys : List String) : counted (xs ++ ys) = counted xs ++ counted ys := by
  simp [counted]

theorem namesOf_singleton_of_counts {part : List Char} (h : Counts part) :
    namesOf [part] = [String.ofList part] := by
  simp [namesOf, h.1]

theorem ofList_ne_dot {part : List Char} (h : Counts part) : String.ofList part ≠ "." := by
  intro he
  apply h.2
  rw [← String.toList_ofList (l := part), he]
  rfl

theorem counted_singleton {name : String} (h : name ≠ ".") : counted [name] = [name] := by
  simp [counted, h]

theorem counted_namesOf_eq_nil {ps : List (List Char)} (h : ∀ part ∈ ps, ¬ Counts part) :
    counted (namesOf ps) = [] := by
  rw [counted, List.filter_eq_nil_iff]
  intro name hname
  obtain ⟨hmem, hne⟩ := List.mem_filter.mp hname
  obtain ⟨part, hp, rfl⟩ := List.mem_map.mp hmem
  intro hdot
  refine h part hp ⟨fun he => ?_, fun he => ?_⟩
  · simp [he] at hne
  · simp [he] at hdot

/-- A relative path of names: no step up, and no dot that counts. -/
structure Plain (path : String) : Prop where
  relative : isAbsolute path = false
  named : ∀ name ∈ components path, name ≠ "." ∧ name ≠ ".."

namespace Plain

variable {path : String}

theorem head_ne_dot (h : Plain path) : (names path).head? ≠ some "." := by
  intro hd
  have hmem : "." ∈ components path := by simp [components, h.relative, hd]
  exact (h.named "." hmem).1 rfl

theorem components_eq (h : Plain path) : components path = counted (names path) := by
  simp [components, h.head_ne_dot, counted]

theorem no_up (h : Plain path) : ".." ∉ names path := by
  intro hmem
  have hc : ".." ∈ components path := by
    rw [h.components_eq]
    exact List.mem_filter.mpr ⟨hmem, by decide⟩
  exact (h.named ".." hc).2 rfl

theorem ends_eq (h : Plain path) : ends path = endsFrom 0 (parts '/' path.toList) := by
  unfold ends
  split
  · rename_i rest hp
    refine absurd ?_ h.head_ne_dot
    simp [names_eq_namesOf, hp, namesOf]
  · rfl

end Plain

/-- A path whose names lead downwards to a last one. -/
structure Leads (path : String) (before : List String) (name : String) : Prop where
  relative : isAbsolute path = false
  names_eq : names path = before ++ [name]
  no_up : ".." ∉ names path
  name_ne : name ≠ "."

/-- A path with no byte and no length that the system refuses. -/
structure Fits (path : String) : Prop where
  noNul : holdsNul path = false
  notLong : isLong path = false
  names_short : ∀ name ∈ names path, isLongName name = false

namespace Leads

variable {path name : String} {before : List String}

theorem ne_empty (h : Leads path before name) : path ≠ "" := by
  rintro rfl
  have hempty : names "" = [] := by decide
  have hn := h.names_eq
  rw [hempty] at hn
  simp at hn

theorem dropLast_names (h : Leads path before name) : (names path).dropLast = before := by
  rw [h.names_eq, List.dropLast_concat]

theorem no_up_before (h : Leads path before name) : ".." ∉ before := by
  intro hmem
  refine h.no_up ?_
  rw [h.names_eq]
  exact List.mem_append_left _ hmem

theorem name_ne_up (h : Leads path before name) : name ≠ ".." := by
  rintro rfl
  refine h.no_up ?_
  simp [h.names_eq]

theorem counted_names (h : Leads path before name) :
    counted (names path) = counted before ++ [name] := by
  rw [h.names_eq, counted_append, counted_singleton h.name_ne]

theorem components_eq (h : Leads path before name) (hplain : Plain path) :
    components path = counted before ++ [name] := by
  rw [hplain.components_eq, h.counted_names]

/-- A slash at the end adds a step that does not count. -/
theorem counted_steps (h : Leads path before name) :
    counted (steps path) = counted before ++ [name] := by
  rw [← h.counted_names, steps]
  split_ifs
  · simp [counted]
  · rfl

theorem no_up_steps (h : Leads path before name) : ".." ∉ steps path := by
  have hup := h.no_up
  unfold steps
  split_ifs
  · simpa using hup
  · exact hup

end Leads

theorem Fits.steps_short {path : String} (h : Fits path) :
    ∀ step ∈ steps path, isLongName step = false := by
  intro step hs
  unfold steps at hs
  split_ifs at hs
  · rcases List.mem_append.mp hs with hs | hs
    · exact h.names_short step hs
    · rw [List.mem_singleton.mp hs]
      decide
  · exact h.names_short step hs

/-- A component of a plain path, with the parts before it. -/
structure EndsAt (path : String) (front : List (List Char)) (part : List Char) : Prop where
  plain : Plain path
  split : front ++ [part] <+: parts '/' path.toList
  counts : Counts part

def cut (path : String) (front : List (List Char)) (part : List Char) : String :=
  upTo path (width front + part.length)

theorem toList_cut_isPrefix (path : String) (front : List (List Char)) (part : List Char) :
    (cut path front part).toList <+: path.toList := by
  rw [cut, upTo, String.toList_ofList]
  exact List.take_prefix _ _

namespace EndsAt

variable {path : String} {front : List (List Char)} {part : List Char}

theorem names_cut (h : EndsAt path front part) :
    names (cut path front part) = namesOf front ++ [String.ofList part] := by
  obtain ⟨back, hb⟩ := h.split
  rw [List.append_assoc, List.singleton_append] at hb
  rw [names_eq_namesOf, cut, upTo, String.toList_ofList, parts_take hb.symm, namesOf_append,
    namesOf_singleton_of_counts h.counts]

theorem names_cut_subset (h : EndsAt path front part) :
    names (cut path front part) ⊆ names path := by
  obtain ⟨back, hb⟩ := h.split
  rw [h.names_cut, ← namesOf_singleton_of_counts h.counts, ← namesOf_append, names_eq_namesOf, ← hb,
    namesOf_append _ back]
  exact List.subset_append_left _ _

theorem isAbsolute_cut (h : EndsAt path front part) : isAbsolute (cut path front part) = false := by
  have hr := h.plain.relative
  obtain ⟨rest, hrest⟩ := toList_cut_isPrefix path front part
  cases hc : (cut path front part).toList with
  | nil => simp [isAbsolute, hc]
  | cons c cs =>
    rw [hc] at hrest
    simpa [isAbsolute, hc, ← hrest] using hr

theorem leads (h : EndsAt path front part) :
    Leads (cut path front part) (namesOf front) (String.ofList part) where
  relative := h.isAbsolute_cut
  names_eq := h.names_cut
  no_up hmem := h.plain.no_up (h.names_cut_subset hmem)
  name_ne := ofList_ne_dot h.counts

theorem fits (h : EndsAt path front part) (hf : Fits path) : Fits (cut path front part) where
  noNul := by
    have hn := hf.noNul
    simp only [holdsNul, List.contains_eq_mem, decide_eq_false_iff_not] at hn ⊢
    exact fun hmem => hn ((toList_cut_isPrefix path front part).subset hmem)
  notLong := by
    have hl := hf.notLong
    obtain ⟨rest, hrest⟩ := toList_cut_isPrefix path front part
    have hsize : path = cut path front part ++ String.ofList rest := by
      rw [← String.toList_inj, String.toList_append, String.toList_ofList, hrest]
    rw [hsize] at hl
    simp only [isLong, String.utf8ByteSize_append, decide_eq_false_iff_not] at hl ⊢
    omega
  names_short name hn := hf.names_short name (h.names_cut_subset hn)

end EndsAt

section Snoc

variable {ps : List (List Char)} {part : List Char}

theorem endsFrom_snoc (h : Counts part) :
    (endsFrom 0 (ps ++ [part])).reverse = (width ps + part.length) :: (endsFrom 0 ps).reverse := by
  simp [endsFrom_append, endsFrom_singleton, h]

theorem endsFrom_snoc_of_not (h : ¬ Counts part) : endsFrom 0 (ps ++ [part]) = endsFrom 0 ps := by
  simp [endsFrom_append, endsFrom_singleton, h]

theorem counted_namesOf_snoc (h : Counts part) :
    counted (namesOf (ps ++ [part])) = counted (namesOf ps) ++ [String.ofList part] := by
  rw [namesOf_append, counted_append, namesOf_singleton_of_counts h,
    counted_singleton (ofList_ne_dot h)]

theorem counted_namesOf_snoc_of_not (h : ¬ Counts part) :
    counted (namesOf (ps ++ [part])) = counted (namesOf ps) := by
  have hpart : counted (namesOf [part]) = [] := counted_namesOf_eq_nil (by simpa using h)
  rw [namesOf_append, counted_append, hpart, List.append_nil]

end Snoc

theorem Plain.leads {path name : String} {before : List String} (h : Plain path)
    (hnames : names path = before ++ [name]) (hname : name ≠ ".") : Leads path before name :=
  ⟨h.relative, hnames, h.no_up, hname⟩

/-- A path that the system takes for that of a file. -/
structure FitsFile (path : String) : Prop extends Fits path where
  noSlash : wantsDirectory path = false
  noDot : (names path).getLast? ≠ some "."

theorem FitsFile.exists_leads {path : String} (h : FitsFile path) (hplain : Plain path)
    (hne : components path ≠ []) : ∃ before name, Leads path before name := by
  rcases List.eq_nil_or_concat' (names path) with hnil | ⟨before, name, hnames⟩
  · refine absurd ?_ hne
    rw [hplain.components_eq, hnil]
    rfl
  · refine ⟨before, name, hplain.leads hnames ?_⟩
    rintro rfl
    exact h.noDot (by simp [hnames])

/-- Parts of which none is a component, or of which one is the last. -/
theorem exists_last (ps : List (List Char)) :
    (∀ part ∈ ps, ¬ Counts part) ∨
      ∃ front part back, ps = front ++ part :: back ∧ Counts part ∧ ∀ p ∈ back, ¬ Counts p := by
  induction ps with
  | nil => exact .inl (by simp)
  | cons first ps ih =>
    rcases ih with hnone | ⟨front, part, back, rfl, hc, hback⟩
    · by_cases hc : Counts first
      · exact .inr ⟨[], first, ps, rfl, hc, hnone⟩
      · exact .inl (List.forall_mem_cons.mpr ⟨hc, hnone⟩)
    · exact .inr ⟨first :: front, part, back, rfl, hc, hback⟩

/-- The last component of a plain path, with the parts around it. -/
structure LastPart (path : String) (front : List (List Char)) (part : List Char)
    (back : List (List Char)) : Prop where
  plain : Plain path
  parts_eq : parts '/' path.toList = front ++ part :: back
  counts : Counts part
  back_not : ∀ p ∈ back, ¬ Counts p

namespace LastPart

variable {path : String} {front back : List (List Char)} {part : List Char}

theorem front_isPrefix (h : LastPart path front part back) : front <+: parts '/' path.toList := by
  rw [h.parts_eq]
  exact List.prefix_append _ _

theorem parts_snoc (h : LastPart path front part back) :
    parts '/' path.toList = front ++ [part] ++ back := by
  rw [h.parts_eq]
  simp

theorem components_eq (h : LastPart path front part back) :
    components path = counted (namesOf front) ++ [String.ofList part] := by
  rw [h.plain.components_eq, names_eq_namesOf, h.parts_snoc, namesOf_append, counted_append,
    counted_namesOf_snoc h.counts, counted_namesOf_eq_nil h.back_not, List.append_nil]

theorem dropLast_ends (h : LastPart path front part back) :
    (ends path).dropLast = endsFrom 0 front := by
  rw [h.plain.ends_eq, h.parts_snoc, endsFrom_append, endsFrom_eq_nil h.back_not, endsFrom_append,
    endsFrom_singleton, if_pos h.counts, List.append_nil, List.dropLast_concat]

end LastPart

end PageScript.Path
