import PageScript.Config
import PageScript.Proofs.MadeDirectories

/-!
# Saving all or nothing

What a save does to the tree, at every place. It is refused, and nothing changes, where a file or a
directory is in the way. Otherwise it succeeds if the system takes the path for that of a file; if
not, directories on the way may be left behind, and that is all.
-/
namespace PageScript
open Text (Bytes)
open PageScript.Path (counted namesOf Counts LastPart Plain Leads Fits FitsFile)

namespace FileTree
open Node (HasDirectory Clear)

variable {tree made written : FileTree} {path name : String} {before : List String}
  {content : Bytes}

theorem short_of_follow {root : Node} {here there steps : List String} (hup : ".." ∉ steps)
    (h : follow root here steps = .ok there) : ∀ step ∈ steps, Path.isLongName step = false := by
  induction steps generalizing here with
  | nil => simp
  | cons step steps ih =>
    obtain ⟨hstep, hup⟩ := List.ne_and_not_mem_of_not_mem_cons hup
    rw [follow_cons (hasDirectory_of_follow h), if_neg hstep.symm] at h
    split_ifs at h with hdot hlong
    · exact List.forall_mem_cons.mpr ⟨by rw [hdot]; decide, ih hup h⟩
    · exact List.forall_mem_cons.mpr ⟨Bool.eq_false_iff.mpr hlong, ih hup h⟩

theorem fits_of_admissible (h : admissible path = .ok ()) :
    Path.holdsNul path = false ∧ Path.isLong path = false := by
  unfold admissible at h
  split_ifs at h with hnul _ hlong
  exact ⟨Bool.eq_false_iff.mpr hnul, Bool.eq_false_iff.mpr hlong⟩

/-- A write that succeeds had a path for a file and a directory to put it in. -/
theorem exists_leads_of_write (hplain : Plain path) (h : tree.write path content = .ok written) :
    ∃ before name, Leads path before name ∧ FitsFile path ∧
      HasDirectory tree.root (tree.base ++ counted before) ∧
      ¬ HasDirectory tree.root (tree.base ++ counted before ++ [name]) ∧
      written = { tree with
        root :=
          Node.insert (.file content) (tree.base ++ counted before ++ [name]) tree.root } := by
  obtain ⟨here, name, hp, hslash, hlong, hfree, rfl⟩ := places_of_write h
  have hl : Leads path (Path.names path).dropLast name := hplain.leads hp.names hp.notDot
  obtain ⟨hnul, hshort⟩ := fits_of_admissible hp.admitted
  have hreached := hp.reached
  rw [start_of_leads hl] at hreached
  obtain rfl := eq_of_follow hl.no_up_before hreached
  refine ⟨_, name, hl, ⟨⟨hnul, hshort, ?_⟩, hslash, ?_⟩, hp.directory, hfree, rfl⟩
  · rw [hl.names_eq]
    intro step hs
    rcases List.mem_append.mp hs with hs | hs
    · exact short_of_follow hl.no_up_before hreached step hs
    · rwa [List.mem_singleton.mp hs]
  · rw [hl.names_eq]
    simpa using hp.notDot

theorem exists_write (content : Bytes) (hl : Leads path before name) (hf : FitsFile path)
    (hd : HasDirectory tree.root (tree.base ++ counted before))
    (hfree : ¬ HasDirectory tree.root (tree.base ++ counted before ++ [name])) :
    ∃ written, tree.write path content = .ok written := by
  have hlong : Path.isLongName name = false :=
    hf.names_short name (by rw [hl.names_eq]; simp)
  have hplace := place_of_hasDirectory hl hf.toFits hd
  rw [write, hplace]
  simp only [bind, Except.bind, hf.noSlash, hlong, Bool.false_eq_true, if_false]
  split
  · rename_i entries hn
    exact absurd ⟨entries, hn⟩ hfree
  · exact ⟨_, rfl⟩

theorem not_concat_isPrefix (way : List String) (name : String) : ¬ way ++ [name] <+: way := by
  intro h
  have hlen := h.length_le
  simp at hlen

/-- A file stands where the path needs a directory, or a directory where it needs the file. -/
def Obstructed (tree : FileTree) (path : String) : Prop :=
  (∃ way content, way <+: Path.components path ∧ way ≠ Path.components path ∧
      tree.root.lookup (tree.base ++ way) = .ok (.file content)) ∨
    HasDirectory tree.root (tree.base ++ Path.components path)

/-- The file is there, and so are the directories on the way to it. Nothing else was changed. -/
structure Saves (tree : FileTree) (path : String) (content : Bytes) (saved : FileTree) : Prop where
  base : saved.base = tree.base
  kindAt : ∀ place, saved.root.kindAt place =
    if place = tree.base ++ Path.components path then some (.file content)
    else if tree.base <+: place ∧ place <+: tree.base ++ Path.components path then some .directory
    else tree.root.kindAt place

theorem obstructed_iff {way : List String} (hbase : HasDirectory tree.root tree.base)
    (hc : Path.components path = way ++ [name]) :
    tree.Obstructed path ↔ ¬ Clear tree.root (tree.base ++ way) ∨
      HasDirectory tree.root (tree.base ++ (way ++ [name])) := by
  unfold Obstructed
  rw [hc]
  refine or_congr_left ⟨?_, fun hfile => ?_⟩
  · rintro ⟨front, content, hfront, hne, hf⟩ hclear
    have hway := (List.prefix_concat_iff.mp hfront).resolve_left hne
    exact hclear _ content ((List.prefix_append_right_inj _).mpr hway) hf
  · obtain ⟨place, content, hp, hf⟩ : ∃ place content,
        place <+: tree.base ++ way ∧ tree.root.lookup place = .ok (.file content) := by
      simpa [Clear] using hfile
    -- nothing at or above the base is a file, so the file is at a place of the way
    rcases List.prefix_or_prefix_of_prefix hp (List.prefix_append tree.base way) with hup | hdown
    · exact absurd hf (hbase.clear place content hup)
    · obtain ⟨front, rfl⟩ := hdown
      have hfront := (List.prefix_append_right_inj _).mp hp
      refine ⟨front, content, hfront.trans (List.prefix_append _ _), ?_, hf⟩
      rintro rfl
      exact not_concat_isPrefix way name hfront

/-- What a write adds to the directories that were made for it. -/
theorem Makes.saves {mid : FileTree} (h : Makes tree (counted before) mid)
    (hc : Path.components path = counted before ++ [name])
    (hfree : ¬ HasDirectory mid.root (mid.base ++ counted before ++ [name])) :
    Saves tree path content { mid with
      root := Node.insert (.file content) (mid.base ++ counted before ++ [name]) mid.root } := by
  refine ⟨h.base, fun place => ?_⟩
  rw [Node.kindAt_insert h.hasDirectory hfree (Node.leaf_file content), h.kindAt, h.base, hc,
    ← List.append_assoc]
  split_ifs with hplace hway hlong hlong
  · rfl
  · rfl
  · exact absurd ⟨hway.1, hway.2.trans (List.prefix_append _ _)⟩ hlong
  · exact absurd ⟨hlong.1, (List.prefix_concat_iff.mp hlong.2).resolve_left hplace⟩ hway
  · rfl

theorem write_error_of_components_nil (tree : FileTree) (content : Bytes) (hplain : Plain path)
    (hc : Path.components path = []) : ∃ e, tree.write path content = .error e := by
  cases hw : tree.write path content with
  | error e => exact ⟨e, rfl⟩
  | ok written =>
    obtain ⟨before, name, hl, -⟩ := exists_leads_of_write hplain hw
    rw [hl.components_eq hplain] at hc
    simp at hc

/-- A path without components is that of the base itself. -/
theorem save_of_components_nil (tree : FileTree) (content : Bytes) (hplain : Plain path)
    (hends : Path.ends path = []) (hc : Path.components path = []) :
    ∃ e, tree.save path content = (.error e, tree) := by
  obtain ⟨e, he⟩ := write_error_of_components_nil tree content hplain hc
  have hnone : tree.ensureAll path [] = (.ok (), tree) := rfl
  refine ⟨e, ?_⟩
  rw [save, hends, List.dropLast_nil, List.reverse_nil, hnone]
  simp only [he]

section LastPart

variable {front back : List (List Char)} {part : List Char}

theorem write_of_lastPart (h : LastPart path front part back)
    (hmakes : Makes tree (counted (namesOf front)) made)
    (hw : made.write path content = .ok written) :
    FitsFile path ∧ ¬ HasDirectory made.root (tree.base ++ Path.components path) ∧
      Saves tree path content written := by
  obtain ⟨before, name, hl, hfits, -, hfree, rfl⟩ := exists_leads_of_write h.plain hw
  have hc := hl.components_eq h.plain
  have heq := h.components_eq.symm.trans hc
  rw [(List.append_inj' heq rfl).1] at hmakes
  refine ⟨hfits, ?_, hmakes.saves hc hfree⟩
  rw [hc, ← hmakes.base, ← List.append_assoc]
  exact hfree

theorem save_of_not_made {e : IoError} (h : LastPart path front part back)
    (hmade : tree.ensureAll path (Path.endsFrom 0 front).reverse = (.error e, made)) :
    tree.save path content = (.error e, made) := by
  rw [save, h.dropLast_ends, hmade]

theorem save_of_not_written {e : IoError} (h : LastPart path front part back)
    (hmade : tree.ensureAll path (Path.endsFrom 0 front).reverse = (.ok (), made))
    (hw : made.write path content = .error e) : tree.save path content = (.error e, made) := by
  rw [save, h.dropLast_ends, hmade]
  simp only [hw]

theorem save_of_written (h : LastPart path front part back)
    (hmade : tree.ensureAll path (Path.endsFrom 0 front).reverse = (.ok (), made))
    (hw : made.write path content = .ok written) : tree.save path content = (.ok (), written) := by
  rw [save, h.dropLast_ends, hmade]
  simp only [hw]

theorem save_of_obstructed_of_lastPart (h : LastPart path front part back)
    (hbase : HasDirectory tree.root tree.base) (ho : tree.Obstructed path) :
    ∃ e, tree.save path content = (.error e, tree) := by
  rcases (obstructed_iff hbase h.components_eq).mp ho with hfile | hd
  · obtain ⟨e, he⟩ := ensureAll_of_not_clear h.plain h.front_isPrefix hbase hfile
    exact ⟨e, save_of_not_made h he⟩
  · have hway : HasDirectory tree.root (tree.base ++ counted (namesOf front)) :=
      Node.hasDirectory_of_isPrefix hd (by simp)
    have hsame := ensureAll_of_hasDirectory h.plain h.front_isPrefix hway
    rcases hmade : tree.ensureAll path (Path.endsFrom 0 front).reverse with ⟨e | _, made⟩
    · rw [hmade] at hsame
      obtain rfl : made = tree := hsame
      exact ⟨e, save_of_not_made h hmade⟩
    · rw [hmade] at hsame
      obtain rfl : made = tree := hsame
      cases hw : made.write path content with
      | error e => exact ⟨e, save_of_not_written h hmade hw⟩
      | ok written =>
        have hfree := (write_of_lastPart h (makes_self hway) hw).2.1
        rw [h.components_eq] at hfree
        exact absurd hd hfree

theorem save_cases_of_lastPart (h : LastPart path front part back)
    (hbase : HasDirectory tree.root tree.base) :
    (tree.save path content).1 = .ok () ∧ FitsFile path ∧
        Saves tree path content (tree.save path content).2 ∨
      (∃ e, (tree.save path content).1 = .error e) ∧
        ∃ way, way <+: Path.components path ∧ way ≠ Path.components path ∧
          Makes tree way (tree.save path content).2 := by
  obtain ⟨way, hway, hmakes, hall⟩ := makes_of_ensureAll h.plain h.front_isPrefix hbase
  have hshorter : way <+: Path.components path ∧ way ≠ Path.components path := by
    rw [h.components_eq]
    refine ⟨hway.trans (List.prefix_append _ _), ?_⟩
    rintro rfl
    exact not_concat_isPrefix _ _ hway
  rcases hmade : tree.ensureAll path (Path.endsFrom 0 front).reverse with ⟨e | _, made⟩
  · rw [hmade] at hmakes
    rw [save_of_not_made h hmade]
    exact .inr ⟨⟨e, rfl⟩, way, hshorter.1, hshorter.2, hmakes⟩
  · rw [hmade] at hmakes hall
    cases hw : made.write path content with
    | error e =>
      rw [save_of_not_written h hmade hw]
      exact .inr ⟨⟨e, rfl⟩, way, hshorter.1, hshorter.2, hmakes⟩
    | ok written =>
      rw [save_of_written h hmade hw]
      obtain rfl := hall rfl
      obtain ⟨hfits, -, hsaves⟩ := write_of_lastPart h hmakes hw
      exact .inl ⟨rfl, hfits, hsaves⟩

theorem save_of_fits_of_lastPart (h : LastPart path front part back)
    (hbase : HasDirectory tree.root tree.base) (hfits : FitsFile path)
    (ho : ¬ tree.Obstructed path) : (tree.save path content).1 = .ok () := by
  rw [obstructed_iff hbase h.components_eq, not_or, not_not] at ho
  obtain ⟨hclear, hfree⟩ := ho
  obtain ⟨hok, hmakes⟩ :=
    ensureAll_of_clear h.plain hfits.toFits h.front_isPrefix hbase hclear
  rcases hmade : tree.ensureAll path (Path.endsFrom 0 front).reverse with ⟨e | _, made⟩
  · rw [hmade] at hok
    cases hok
  · rw [hmade] at hmakes
    obtain ⟨before, name, hl⟩ := hfits.exists_leads h.plain (by simp [h.components_eq])
    have heq := h.components_eq.symm.trans (hl.components_eq h.plain)
    obtain ⟨hbefore, hname⟩ := List.append_inj' heq rfl
    have hd := hmakes.hasDirectory
    have hfree' : ¬ HasDirectory made.root (made.base ++ counted (namesOf front) ++
        [String.ofList part]) := by
      rw [hmakes.base, List.append_assoc, Node.hasDirectory_iff, hmakes.kindAt,
        if_neg (by simp [not_concat_isPrefix]), ← Node.hasDirectory_iff]
      exact hfree
    rw [hbefore] at hd hfree'
    rw [hname] at hfree'
    obtain ⟨written, hw⟩ := exists_write content hl hfits hd hfree'
    rw [save_of_written h hmade hw]

end LastPart

/-- A plain path has no components, or one of its parts is the last of them. -/
theorem lastPart_or_nil (hplain : Plain path) :
    Path.ends path = [] ∧ Path.components path = [] ∨
      ∃ front part back, LastPart path front part back := by
  rcases Path.exists_last (Text.parts '/' path.toList) with hnone | ⟨front, part, back, hp, hc, hb⟩
  · left
    rw [hplain.ends_eq, Path.endsFrom_eq_nil hnone, hplain.components_eq, Path.names_eq_namesOf,
      Path.counted_namesOf_eq_nil hnone]
    exact ⟨rfl, rfl⟩
  · exact .inr ⟨front, part, back, hplain, hp, hc, hb⟩

theorem save_of_obstructed (content : Bytes) (hplain : Plain path)
    (hbase : HasDirectory tree.root tree.base) (ho : tree.Obstructed path) :
    ∃ e, tree.save path content = (.error e, tree) := by
  rcases lastPart_or_nil hplain with ⟨hends, hc⟩ | ⟨front, part, back, h⟩
  · exact save_of_components_nil tree content hplain hends hc
  · exact save_of_obstructed_of_lastPart h hbase ho

theorem save_of_fits (hplain : Plain path) (hbase : HasDirectory tree.root tree.base)
    (hfits : FitsFile path) (ho : ¬ tree.Obstructed path) :
    (tree.save path content).1 = .ok () := by
  rcases lastPart_or_nil hplain with ⟨-, hc⟩ | ⟨front, part, back, h⟩
  · refine absurd (.inr ?_) ho
    rwa [hc, List.append_nil]
  · exact save_of_fits_of_lastPart h hbase hfits ho

/-- A save either succeeds, or makes directories on the way at most. -/
theorem save_cases (content : Bytes) (hplain : Plain path)
    (hbase : HasDirectory tree.root tree.base) :
    (tree.save path content).1 = .ok () ∧ FitsFile path ∧
        Saves tree path content (tree.save path content).2 ∨
      (∃ e, (tree.save path content).1 = .error e) ∧
        (¬ tree.Obstructed path → ∃ way, way <+: Path.components path ∧
          way ≠ Path.components path ∧ Makes tree way (tree.save path content).2) := by
  rcases lastPart_or_nil hplain with ⟨hends, hc⟩ | ⟨front, part, back, h⟩
  · obtain ⟨e, he⟩ := save_of_components_nil tree content hplain hends hc
    refine .inr ⟨⟨e, by rw [he]⟩, fun ho => absurd (.inr ?_) ho⟩
    rwa [hc, List.append_nil]
  · exact (save_cases_of_lastPart h hbase).imp_right fun hfailed => ⟨hfailed.1, fun _ => hfailed.2⟩

end FileTree

namespace Config
open FileTree (Makes Saves)
open Node (HasDirectory)
open Text.Utf8 (encode)

theorem save_snd (c : Config) (tree : FileTree) (path : String) :
    (c.save tree path).2 = (tree.save path (encode c.toToml)).2 := rfl

theorem save_eq_ok_iff {c : Config} {tree : FileTree} {path : String} :
    (c.save tree path).1 = .ok () ↔ (tree.save path (encode c.toToml)).1 = .ok () := by
  change (tree.save path (encode c.toToml)).1.mapError ConfigError.io = .ok () ↔ _
  cases (tree.save path (encode c.toToml)).1 with
  | error e => simp [Except.mapError]
  | ok u => simp [Except.mapError]

/-- Saving to a relative path of plain names. It succeeds just if nothing is in the way and the
system takes the path for that of a file. If something is in the way, the tree stays as it is, so
that every path is loaded as before. After a success the path leads to the text of the
configuration, the directories on the way are there, and at every other place stands what stood
there. After any failure nothing but directories of a beginning of the way can be new. -/
theorem save_all_or_nothing (c : Config) (tree : FileTree) (path : String) (hplain : Plain path)
    (hbase : HasDirectory tree.root tree.base) :
    let saved := c.save tree path
    (saved.1 = .ok () ↔ FitsFile path ∧ ¬ tree.Obstructed path) ∧
      (tree.Obstructed path → saved.2 = tree ∧ ∀ defaults other,
        load defaults (saved.2.stat other) = load defaults (tree.stat other)) ∧
      (saved.1 = .ok () → Saves tree path (encode c.toToml) saved.2 ∧
        saved.2.stat path = .ok (.file (encode c.toToml))) ∧
      (saved.1 ≠ .ok () → ¬ tree.Obstructed path →
        ∃ way, way <+: Path.components path ∧ way ≠ Path.components path ∧
          Makes tree way saved.2) := by
  intro saved
  have hrefused : tree.Obstructed path → saved.1 ≠ .ok () ∧ saved.2 = tree := by
    intro ho
    obtain ⟨e, he⟩ := FileTree.save_of_obstructed (encode c.toToml) hplain hbase ho
    refine ⟨fun hok => ?_, by rw [save_snd, he]⟩
    rw [save_eq_ok_iff, he] at hok
    cases hok
  have hcases := FileTree.save_cases (encode c.toToml) hplain hbase
  rw [← save_eq_ok_iff, ← save_snd] at hcases
  refine ⟨⟨fun hok => ?_, fun ⟨hfits, ho⟩ => ?_⟩, fun ho => ?_, fun hok => ?_, fun hfailed ho => ?_⟩
  · rcases hcases with ⟨-, hfits, -⟩ | ⟨⟨e, he⟩, -⟩
    · exact ⟨hfits, fun ho => (hrefused ho).1 hok⟩
    · rw [save_eq_ok_iff, he] at hok
      cases hok
  · rw [save_eq_ok_iff]
    exact FileTree.save_of_fits hplain hbase hfits ho
  · have hsame := (hrefused ho).2
    exact ⟨hsame, fun defaults other => by rw [hsame]⟩
  · rcases hcases with ⟨-, -, hsaves⟩ | ⟨⟨e, he⟩, -⟩
    · exact ⟨hsaves, FileTree.stat_save (save_eq_ok_iff.mp hok)⟩
    · rw [save_eq_ok_iff, he] at hok
      cases hok
  · rcases hcases with ⟨hok, -⟩ | ⟨-, hmakes⟩
    · exact absurd hok hfailed
    · exact hmakes ho

/-- A file that stands where a directory is needed; the directory before it was not touched. -/
theorem save_all_or_nothing_below_file :
    let tree : FileTree := ⟨.directory [("d", .directory [("f", .file [])])], []⟩
    let c : Config := ⟨"s", "info", false⟩
    Plain "d/f/n/c" ∧ HasDirectory tree.root tree.base ∧ tree.Obstructed "d/f/n/c" ∧
      (c.save tree "d/f/n/c").2 = tree := by
  intro tree c
  have hplain : Plain "d/f/n/c" := ⟨by decide, by decide⟩
  have hbase : HasDirectory tree.root tree.base := ⟨_, rfl⟩
  have ho : tree.Obstructed "d/f/n/c" := .inl ⟨["d", "f"], [], by decide, by decide, rfl⟩
  exact ⟨hplain, hbase, ho, ((save_all_or_nothing c tree "d/f/n/c" hplain hbase).2.1 ho).1⟩

theorem not_obstructed_of_empty {path : String} (hc : Path.components path ≠ []) :
    ¬ FileTree.Obstructed ⟨.directory [], []⟩ path := by
  rintro (⟨way, content, -, -, hf⟩ | ⟨entries, he⟩)
  · cases way <;> simp [Node.lookup] at hf
  · obtain ⟨name, names, hn⟩ := List.exists_cons_of_ne_nil hc
    simp [hn, Node.lookup] at he

/-- With nothing in the way, a slash behind the last name or a NUL in it makes a save fail after it
has made the directory before it. -/
theorem save_leaves_directory :
    let tree : FileTree := ⟨.directory [], []⟩
    let c : Config := ⟨"s", "info", false⟩
    (Plain "n/m/" ∧ ¬ tree.Obstructed "n/m/" ∧
        (c.save tree "n/m/").1 = .error (.io .isADirectory) ∧
        (c.save tree "n/m/").2.root.kindAt ["n"] = some .directory) ∧
      (Plain "n/\x00" ∧ ¬ tree.Obstructed "n/\x00" ∧
        (c.save tree "n/\x00").1 = .error (.io .nulInPath) ∧
        (c.save tree "n/\x00").2.root.kindAt ["n"] = some .directory) ∧
      tree.root.kindAt ["n"] = none := by
  intro tree c
  have hslash : Plain "n/m/" := ⟨by decide, by decide⟩
  have hnul : Plain "n/\x00" := ⟨by decide, by decide⟩
  refine ⟨⟨hslash, not_obstructed_of_empty (by decide), by decide, by decide⟩, ⟨hnul,
    not_obstructed_of_empty (by decide), by decide, by decide⟩, by decide⟩

end Config

end PageScript
