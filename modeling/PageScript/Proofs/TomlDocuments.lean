import PageScript.Proofs.TomlTexts
import PageScript.Toml.Document

namespace PageScript.Toml

/-- A name that needs no quotes. -/
def Bare (name : String) : Prop := name ≠ "" ∧ name.toList.all isBare = true

instance (name : String) : Decidable (Bare name) := by
  unfold Bare
  infer_instance

/-- A blank line, the header of a table, or a text or a boolean under a key. -/
inductive Line where
  | blank
  | header (name : String) (bare : Bare name)
  | text (key s : String) (bare : Bare key)
  | boolean (key : String) (b : Bool) (bare : Bare key)

namespace Line

def chars : Line → List Char
  | blank => ['\n']
  | header name _ => '[' :: (name.toList ++ [']', '\n'])
  | text key s _ =>
    key.toList ++ ' ' :: '=' :: ' ' :: (writeIn (style s.toList) s.toList ++ ['\n'])
  | boolean key b _ =>
    key.toList ++ ' ' :: '=' :: ' ' :: ((if b then "true" else "false").toList ++ ['\n'])

def statement? : Line → Option Statement
  | blank => none
  | header name _ => some (.openTable [name])
  | text key s _ => some (.assign [key] (.text s))
  | boolean key b _ => some (.assign [key] (.boolean b))

theorem eq_blank {line : Line} (h : line.statement? = none) : line = blank := by
  cases line with
  | blank => rfl
  | header | text | boolean => simp [statement?] at h

end Line

theorem Bare.exists_cons {name : String} (h : Bare name) :
    ∃ c cs, name.toList = c :: cs ∧ isBare c = true := by
  have hne : name.toList ≠ [] := by simpa using h.1
  obtain ⟨c, cs, hc⟩ := List.exists_cons_of_ne_nil hne
  exact ⟨c, cs, hc, List.all_eq_true.mp h.2 c (by simp [hc])⟩

theorem ne_of_isBare {c d : Char} (hc : isBare c = true) (hd : isBare d = false) : c ≠ d := by
  rintro rfl
  simp [hd] at hc

theorem isBlank_of_isBare {c : Char} (h : isBare c = true) : isBlank c = false := by
  have hs : c ≠ ' ' := ne_of_isBare h rfl
  have ht : c ≠ '\t' := ne_of_isBare h rfl
  simp [isBlank, hs, ht]

theorem skipBlanks_of_solid {c : Char} (h : isBlank c = false) (rest : List Char) :
    skipBlanks (c :: rest) = c :: rest := by
  simp [skipBlanks, h]

theorem keyPart?_bare {name : String} (h : Bare name) {d : Char} (hd : isBare d = false)
    (rest : List Char) : keyPart? (name.toList ++ d :: rest) = some (name.toList, d :: rest) := by
  obtain ⟨c, cs, hname, hc⟩ := h.exists_cons
  have hall := List.all_eq_true.mp h.2
  have htake : (name.toList ++ d :: rest).takeWhile isBare = name.toList := by
    rw [List.takeWhile_append_of_pos hall]
    simp [hd]
  have hdrop : (name.toList ++ d :: rest).dropWhile isBare = d :: rest := by
    rw [List.dropWhile_append_of_pos hall]
    simp [hd]
  have hdouble : c ≠ '"' := ne_of_isBare hc rfl
  have hsingle : c ≠ '\'' := ne_of_isBare hc rfl
  unfold keyPart?
  split
  · rename_i heq
    simp [hname, hdouble] at heq
  · rename_i heq
    simp [hname, hsingle] at heq
  · simp only [htake, hdrop]
    simp [hname]

theorem key?_bare {name : String} (h : Bare name) {d : Char} (hd : isBare d = false)
    {rest : List Char} {e : Char} {more : List Char} (hrest : skipBlanks (d :: rest) = e :: more)
    (he : e ≠ '.') : key? (name.toList ++ d :: rest) = some ([name], e :: more) := by
  obtain ⟨c, cs, hname, hc⟩ := h.exists_cons
  have hskip : skipBlanks (name.toList ++ d :: rest) = name.toList ++ d :: rest := by
    rw [hname]
    exact skipBlanks_of_solid (isBlank_of_isBare hc) _
  have hparts : keyParts? ((name.toList ++ d :: rest).length + 1) (name.toList ++ d :: rest) =
      some ([name], e :: more) := by
    rw [keyParts?, hskip, keyPart?_bare h hd]
    simp only [Option.bind_eq_bind, Option.bind_some, hrest]
    split
    · rename_i hdot
      exact absurd (List.cons.inj hdot).1 he
    · simp
  rw [key?, hparts]
  rfl

theorem lineEnd?_newline (rest : List Char) : lineEnd? ('\n' :: rest) = some rest := rfl

theorem statement?_header {name : String} (h : Bare name) (rest : List Char) :
    statement? ('[' :: (name.toList ++ ']' :: '\n' :: rest)) =
      some (.openTable [name], rest) := by
  obtain ⟨c, cs, hname, hc⟩ := h.exists_cons
  have hk : key? (name.toList ++ ']' :: '\n' :: rest) = some ([name], ']' :: '\n' :: rest) :=
    key?_bare h rfl rfl (by decide)
  have hbracket : c ≠ '[' := ne_of_isBare hc rfl
  unfold statement?
  split
  · rename_i heq
    simp [hname, hbracket] at heq
  · rename_i rest' hne heq
    obtain rfl := (List.cons.inj heq).2
    simp only [hk, lineEnd?_newline, Option.bind_eq_bind, Option.bind_some]
  · rename_i hne
    exact absurd rfl (hne _)

theorem statement?_assign {key : String} (h : Bare key) {item : Item} {written rest : List Char}
    (hw : skipBlanks written = written)
    (hv : value (depthLimit - 1) written = some (item, '\n' :: rest)) :
    statement? (key.toList ++ ' ' :: '=' :: ' ' :: written) =
      some (.assign [key] item, rest) := by
  obtain ⟨c, cs, hname, hc⟩ := h.exists_cons
  have hk : key? (key.toList ++ ' ' :: '=' :: ' ' :: written) =
      some ([key], '=' :: ' ' :: written) := key?_bare h rfl rfl (by decide)
  have hbracket : c ≠ '[' := ne_of_isBare hc rfl
  have hskip : skipBlanks (' ' :: written) = written := hw
  unfold statement?
  split
  · rename_i heq
    simp [hname, hbracket] at heq
  · rename_i rest' hne heq
    simp [hname, hbracket] at heq
  · simp only [hk, hskip, hv, lineEnd?_newline, Option.bind_eq_bind, Option.bind_some]

theorem writeIn_cons (style : Style) (cs : List Char) :
    ∃ quote more, writeIn style cs = quote :: more ∧ (quote = '"' ∨ quote = '\'') := by
  cases style with
  | basic => exact ⟨'"', _, rfl, .inl rfl⟩
  | literal => exact ⟨'\'', _, rfl, .inr rfl⟩
  | multilineBasic =>
    rw [writeIn, List.append_assoc, opening_append]
    exact ⟨'"', _, rfl, .inl rfl⟩
  | multilineLiteral =>
    rw [writeIn, List.append_assoc, opening_append]
    exact ⟨'\'', _, rfl, .inr rfl⟩

theorem skipBlanks_writeIn (style : Style) (cs rest : List Char) :
    skipBlanks (writeIn style cs ++ rest) = writeIn style cs ++ rest := by
  obtain ⟨quote, more, hw, rfl | rfl⟩ := writeIn_cons style cs
  · rw [hw]
    exact skipBlanks_of_solid rfl _
  · rw [hw]
    exact skipBlanks_of_solid rfl _

theorem skipBlanks_boolean (b : Bool) (rest : List Char) :
    skipBlanks ((if b then "true" else "false").toList ++ rest) =
      (if b then "true" else "false").toList ++ rest := by
  cases b <;> rfl

theorem value_of_quote (depth : ℕ) {quote : Char} (h : quote = '"' ∨ quote = '\'')
    (cs : List Char) :
    value depth (quote :: cs) =
      (text? (quote :: cs)).map fun (s, rest) => (.text (String.ofList s), rest) := by
  rcases h with rfl | rfl
  · cases depth <;> rfl
  · cases depth <;> rfl

theorem value_text (depth : ℕ) (s : String) (rest : List Char) :
    value depth (writeIn (style s.toList) s.toList ++ '\n' :: rest) =
      some (.text s, '\n' :: rest) := by
  have ht : text? (writeIn (style s.toList) s.toList ++ '\n' :: rest) =
      some (s.toList, '\n' :: rest) :=
    text?_writeIn (fits_style s.toList) (by simp) (by simp)
  obtain ⟨quote, more, hw, hq⟩ := writeIn_cons (style s.toList) s.toList
  rw [hw, List.cons_append] at ht ⊢
  rw [value_of_quote depth hq, ht]
  simp

theorem value_boolean (depth : ℕ) (b : Bool) (rest : List Char) :
    value depth ((if b then "true" else "false").toList ++ '\n' :: rest) =
      some (.boolean b, '\n' :: rest) := by
  cases b <;> cases depth <;> rfl

theorem statement?_line {line : Line} {statement : Statement}
    (h : line.statement? = some statement) (rest : List Char) :
    statement? (line.chars ++ rest) = some (statement, rest) := by
  cases line with
  | blank => simp [Line.statement?] at h
  | header name bare =>
    obtain rfl := Option.some.inj h
    have hr := statement?_header bare rest
    simpa [Line.chars] using hr
  | text key s bare =>
    obtain rfl := Option.some.inj h
    have hr := statement?_assign bare (skipBlanks_writeIn _ _ _) (value_text _ s rest)
    simpa [Line.chars] using hr
  | boolean key b bare =>
    obtain rfl := Option.some.inj h
    have hr := statement?_assign bare (skipBlanks_boolean b _) (value_boolean _ b rest)
    simpa [Line.chars] using hr

/-- A line that stands for a statement begins with a bracket or with its key. -/
theorem Line.exists_cons {line : Line} {statement : Statement}
    (h : line.statement? = some statement) :
    ∃ c cs, line.chars = c :: cs ∧ (c = '[' ∨ isBare c = true) := by
  cases line with
  | blank => simp [Line.statement?] at h
  | header name => exact ⟨'[', _, rfl, .inl rfl⟩
  | text key s bare =>
    obtain ⟨c, cs, hname, hc⟩ := bare.exists_cons
    exact ⟨c, _, by rw [Line.chars, hname]; rfl, .inr hc⟩
  | boolean key b bare =>
    obtain ⟨c, cs, hname, hc⟩ := bare.exists_cons
    exact ⟨c, _, by rw [Line.chars, hname]; rfl, .inr hc⟩

theorem skipGap_of_solid {c : Char} (h : c = '[' ∨ isBare c = true) (rest : List Char) :
    skipGap false (c :: rest) = c :: rest := by
  rcases h with rfl | hc
  · rfl
  · have hn : c ≠ '\n' := ne_of_isBare hc rfl
    have hr : c ≠ '\r' := ne_of_isBare hc rfl
    have hs : c ≠ '#' := ne_of_isBare hc rfl
    have hb := isBlank_of_isBare hc
    unfold skipGap
    split <;> simp_all

theorem statements?_lines {lines : List Line} {n : ℕ} (h : lines.length < n) :
    statements? n (lines.flatMap Line.chars) = some (lines.filterMap Line.statement?) := by
  induction lines generalizing n with
  | nil =>
    obtain ⟨m, rfl⟩ := Nat.exists_eq_add_of_lt h
    rfl
  | cons line lines ih =>
    obtain ⟨m, rfl⟩ : ∃ m, n = m + 1 := ⟨n - 1, by omega⟩
    rw [List.length_cons] at h
    cases hs : line.statement? with
    | none =>
      -- a blank line is passed on the way to the next statement
      have hi := ih (n := m + 1) (by omega)
      rw [List.filterMap_cons_none hs, ← hi, Line.eq_blank hs]
      rfl
    | some statement =>
      obtain ⟨c, cs, hc, hsolid⟩ := Line.exists_cons hs
      have hr := statement?_line hs (lines.flatMap Line.chars)
      have hi := ih (n := m) (by omega)
      rw [hc, List.cons_append] at hr
      rw [List.flatMap_cons, hc, List.cons_append, statements?, skipGap_of_solid hsolid]
      simp only [hr, hi, Option.bind_eq_bind, Option.bind_some]
      rw [List.filterMap_cons_some hs]

theorem length_le_flatMap (lines : List Line) :
    lines.length ≤ (lines.flatMap Line.chars).length := by
  induction lines with
  | nil => exact le_rfl
  | cons line lines ih =>
    have hpos : 1 ≤ line.chars.length := by
      cases line <;> simp [Line.chars] <;> omega
    rw [List.flatMap_cons, List.length_append, List.length_cons]
    omega

theorem dropMark_of_ne {c : Char} (h : c ≠ '\uFEFF') (rest : List Char) :
    dropMark (c :: rest) = c :: rest := by
  unfold dropMark
  split
  · rename_i hmark
    exact absurd (List.cons.inj hmark).1 h
  · rfl

theorem dropMark_lines (lines : List Line) :
    dropMark (lines.flatMap Line.chars) = lines.flatMap Line.chars := by
  cases lines with
  | nil => rfl
  | cons line lines =>
    rw [List.flatMap_cons]
    cases hs : line.statement? with
    | none =>
      rw [Line.eq_blank hs]
      rfl
    | some statement =>
      obtain ⟨c, cs, hc, hsolid⟩ := Line.exists_cons hs
      have hm : c ≠ '\uFEFF' := by
        rcases hsolid with rfl | hbare
        · decide
        · exact ne_of_isBare hbare (by decide)
      rw [hc]
      exact dropMark_of_ne hm _

/-- A document of such lines is read as the table that their statements build. -/
theorem read_lines {lines : List Line} {text : String}
    (h : text.toList = lines.flatMap Line.chars) :
    read text = build [] (lines.filterMap Line.statement?) [] := by
  have hn := length_le_flatMap lines
  have hs := statements?_lines (Nat.lt_succ_of_le hn)
  simp only [read, h, dropMark_lines, hs, Option.bind_eq_bind, Option.bind_some]

end PageScript.Toml
