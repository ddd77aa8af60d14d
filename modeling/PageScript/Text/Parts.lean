namespace PageScript.Text

/-- The parts between separators. There is always at least one. -/
def parts (separator : Char) : List Char → List (List Char)
  | [] => [[]]
  | c :: cs =>
    if c = separator then [] :: parts separator cs
    else
      match parts separator cs with
      | [] => [[c]]
      | part :: rest => (c :: part) :: rest

theorem parts_ne_nil (separator : Char) (cs : List Char) : parts separator cs ≠ [] := by
  cases cs with
  | nil => simp [parts]
  | cons c cs =>
    rw [parts]
    split
    · simp
    · split <;> simp

theorem parts_of_not_mem {separator : Char} {part : List Char} (h : separator ∉ part) :
    parts separator part = [part] := by
  induction part with
  | nil => rfl
  | cons c cs ih =>
    obtain ⟨hc, hcs⟩ := List.ne_and_not_mem_of_not_mem_cons h
    rw [parts, if_neg (Ne.symm hc), ih hcs]

theorem parts_append {separator : Char} {part : List Char} (h : separator ∉ part)
    (cs : List Char) : parts separator (part ++ separator :: cs) = part :: parts separator cs := by
  induction part with
  | nil => simp [parts]
  | cons c rest ih =>
    obtain ⟨hc, hrest⟩ := List.ne_and_not_mem_of_not_mem_cons h
    rw [List.cons_append, parts, if_neg (Ne.symm hc), ih hrest]

end PageScript.Text
