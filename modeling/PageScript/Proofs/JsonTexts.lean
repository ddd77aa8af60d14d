import Mathlib
import PageScript.Json
import PageScript.Text.Hex

namespace PageScript.Json

/-- What may stand around a value. -/
def Blanks (cs : List Char) : Prop := ∀ c ∈ cs, c ∈ [' ', '\t', '\n', '\r']

/-- What stands in quotes for a character. -/
inductive Spells : Char → List Char → Prop
  | plain {c : Char} (shown : 0x20 ≤ c.toNat) (special : c ≠ '"' ∧ c ≠ '\\') : Spells c [c]
  | escaped {c d : Char}
      (pair : (c, d) ∈ [('"', '"'), ('\\', '\\'), ('/', '/'), ('\x08', 'b'), ('\x0c', 'f'),
        ('\n', 'n'), ('\r', 'r'), ('\t', 't')]) :
      Spells c ['\\', d]
  | code {c d e : Char} (high : Text.hexDigit? d = some (c.toNat / 16))
      (low : Text.hexDigit? e = some (c.toNat % 16)) :
      Spells c ['\\', 'u', '0', '0', d, e]

/-- A text in quotes, character by character. -/
def InQuotes (s : String) (cs : List Char) : Prop :=
  ∃ parts, List.Forall₂ Spells s.toList parts ∧ cs = '"' :: parts.flatten ++ ['"']

/-- Parts with a comma between each two of them. -/
inductive Separated {α : Type} (Part : α → List Char → Prop) : List α → List Char → Prop
  | none {gap : List Char} (blank : Blanks gap) : Separated Part [] gap
  | one {a : α} {before cs after : List Char} (before_blank : Blanks before) (part : Part a cs)
      (after_blank : Blanks after) : Separated Part [a] (before ++ cs ++ after)
  | more {a b : α} {rest : List α} {before cs after others : List Char}
      (before_blank : Blanks before) (part : Part a cs) (after_blank : Blanks after)
      (tail : Separated Part (b :: rest) others) :
      Separated Part (a :: b :: rest) (before ++ cs ++ after ++ ',' :: others)

inductive Member (IsText : Json → List Char → Prop) : String × Json → List Char → Prop
  | mk {name : String} {v : Json} {quoted before after cs : List Char}
      (name_quoted : InQuotes name quoted) (before_blank : Blanks before)
      (after_blank : Blanks after) (value : IsText v cs) :
      Member IsText (name, v) (quoted ++ before ++ ':' :: (after ++ cs))

inductive IsText : Json → List Char → Prop
  | null : IsText null ['n', 'u', 'l', 'l']
  | true : IsText (boolean true) ['t', 'r', 'u', 'e']
  | false : IsText (boolean false) ['f', 'a', 'l', 's', 'e']
  | number (n : ℤ) : IsText (number n) (toString n).toList
  | decimal {digits : ℤ} {zeros : ℕ} {whole part : List Char} (whole_digits : whole ≠ [])
      (padded : whole ++ part = List.replicate zeros '0' ++ (toString digits.natAbs).toList) :
      IsText (decimal digits part.length)
        ((if digits < 0 then ['-'] else []) ++ whole ++ '.' :: part)
  | text {s : String} {cs : List Char} (quoted : InQuotes s cs) : IsText (text s) cs
  | list {items : List Json} {cs : List Char} (parts : Separated IsText items cs) :
      IsText (list items) ('[' :: cs ++ [']'])
  | object {members : List (String × Json)} {cs : List Char}
      (parts : Separated (Member IsText) members cs) :
      IsText (object members) ('\x7b' :: cs ++ ['\x7d'])

/-- An object in which each name has its value, in any order and among any other members. -/
def HasMembers (v : Json) (fields : List (String × Json)) : Prop :=
  ∃ members, v = object members ∧ ∀ f ∈ fields, member? members f.1 = some f.2

theorem blanks_nil : Blanks [] := by simp [Blanks]

theorem blanks_space : Blanks [' '] := by simp [Blanks]

theorem blanks_indent (width : ℕ) : Blanks ('\n' :: List.replicate width ' ') := by
  intro c hc
  rcases List.mem_cons.mp hc with rfl | hc
  · simp
  · simp [List.eq_of_mem_replicate hc]

theorem hexDigits_of_lt : ∀ n < 0x20,
    (Nat.toDigits 16 n).map Text.hexDigit? =
      if n < 0x10 then [some n] else [some (n / 16), some (n % 16)] := by
  decide

theorem exists_hexDigits {n : ℕ} (h : n < 0x20) :
    ∃ d e, Text.hexDigit? d = some (n / 16) ∧ Text.hexDigit? e = some (n % 16) ∧
      (if n < 0x10 then "\\u000" ++ Text.hexDigits n else "\\u00" ++ Text.hexDigits n).toList =
        ['\\', 'u', '0', '0', d, e] := by
  have hdigits := hexDigits_of_lt n h
  split_ifs at hdigits ⊢ with hsmall
  · obtain ⟨e, he, hvalue⟩ := List.map_eq_singleton_iff.mp hdigits
    refine ⟨'0', e, ?_, ?_, by simp [Text.hexDigits, he]⟩
    · rw [Nat.div_eq_of_lt hsmall]
      decide
    · rw [hvalue, Nat.mod_eq_of_lt hsmall]
  · obtain ⟨d, rest, hd, hhigh, hrest⟩ := List.map_eq_cons_iff.mp hdigits
    obtain ⟨e, rfl, hlow⟩ := List.map_eq_singleton_iff.mp hrest
    exact ⟨d, e, hhigh, hlow, by simp [Text.hexDigits, hd]⟩

theorem spells_escape (c : Char) : Spells c (escape c).toList := by
  unfold escape
  split
  iterate 7 exact .escaped (by decide)
  rename_i quote backslash _ _ _ _ _
  by_cases hcontrol : c.toNat < 0x20
  · obtain ⟨d, e, hhigh, hlow, htext⟩ := exists_hexDigits hcontrol
    rw [if_pos hcontrol, htext]
    exact .code hhigh hlow
  · rw [if_neg (by omega), if_neg hcontrol, String.toList_singleton]
    exact .plain (by omega) ⟨quote, backslash⟩

theorem inQuotes_quote (s : String) : InQuotes s (quote s).toList := by
  refine ⟨s.toList.map fun c => (escape c).toList, ?_, ?_⟩
  · rw [List.forall₂_map_right_iff, List.forall₂_same]
    exact fun c _ => spells_escape c
  · simp [quote, String.toList_append, String.toList_join, List.flatMap_def, Function.comp_def]

theorem isText_decimalText (digits : ℤ) (places : ℕ) :
    IsText (decimal digits places) (decimalText digits places).toList := by
  let ds := (toString digits.natAbs).toList
  let padded := List.replicate (places + 1 - ds.length) '0' ++ ds
  let whole := padded.take (padded.length - places)
  let part := padded.drop (padded.length - places)
  have hlength : places + 1 ≤ padded.length := by
    simp only [padded, List.length_append, List.length_replicate]
    omega
  have hwhole : whole ≠ [] := by
    have hpos : 0 < whole.length := by
      simp only [whole, List.length_take]
      omega
    exact List.ne_nil_of_length_pos hpos
  have hplaces : part.length = places := by
    simp only [part, List.length_drop]
    omega
  have htext : (decimalText digits places).toList =
      (if digits < 0 then ['-'] else []) ++ whole ++ '.' :: part := by
    rw [decimalText]
    split_ifs <;> simp [List.splitAt_eq, ds, padded, whole, part]
  rw [htext, ← hplaces]
  exact .decimal hwhole (List.take_append_drop _ _)

section Block

variable {α : Type} {Part : α → List Char → Prop} {indent last : List Char}

theorem separated_of_indented (hindent : Blanks indent) (hlast : Blanks last) {a : α}
    {part : String} (ha : Part a part.toList) {as : List α} {parts : List String}
    (h : List.Forall₂ (fun a part => Part a part.toList) as parts) :
    Separated Part (a :: as) (indent ++ part.toList ++
      parts.flatMap (fun part => ',' :: indent ++ part.toList) ++ last) := by
  induction h generalizing a part with
  | nil =>
    have hone : Separated Part [a] (indent ++ part.toList ++ last) := .one hindent ha hlast
    simpa using hone
  | cons hb _ ih =>
    have hmore := Separated.more hindent ha blanks_nil (ih hb)
    simpa using hmore

theorem toList_pushn (n : ℕ) : ("".pushn ' ' n).toList = List.replicate n ' ' := by
  induction n with
  | zero => rfl
  | succ n ih =>
    have hpush : "".pushn ' ' (n + 1) = ("".pushn ' ' n).push ' ' := rfl
    rw [hpush, String.toList_push, ih, ← List.replicate_succ']

theorem separated_block (left right : String) (depth : ℕ) {as : List α} {parts : List String}
    (h : List.Forall₂ (fun a part => Part a part.toList) as parts) :
    ∃ cs, (block left right depth parts).toList = left.toList ++ cs ++ right.toList ∧
      Separated Part as cs := by
  cases h with
  | nil => exact ⟨[], by simp [block], .none blanks_nil⟩
  | @cons a part as parts ha hrest =>
    have hlater : parts.mapIdx (fun i part => (if i + 1 = 0 then "" else ",") ++
        ("\n" ++ "".pushn ' ' (2 * depth)) ++ "  " ++ part) =
        parts.map (fun part => "," ++ ("\n" ++ "".pushn ' ' (2 * depth)) ++ "  " ++ part) :=
      List.ext_getElem (by simp) (by simp)
    have hindent : Blanks ('\n' :: List.replicate (2 * depth) ' ' ++ [' ', ' ']) :=
      List.forall_mem_append.mpr ⟨blanks_indent _, by simp⟩
    refine ⟨_, ?_, separated_of_indented hindent (blanks_indent (2 * depth)) ha hrest⟩
    simp only [block, List.mapIdx_cons, hlater]
    simp [String.toList_join, List.flatMap_map, toList_pushn]

end Block

mutual

theorem isText_prettyAt (depth : ℕ) : (v : Json) → IsText v (prettyAt depth v).toList
  | .null => by simpa [prettyAt] using IsText.null
  | .boolean true => by simpa [prettyAt] using IsText.true
  | .boolean false => by simpa [prettyAt] using IsText.false
  | .number n => by simpa [prettyAt] using IsText.number n
  | .decimal digits places => by simpa [prettyAt] using isText_decimalText digits places
  | .text s => by simpa [prettyAt] using IsText.text (inQuotes_quote s)
  | .list items => by
    obtain ⟨cs, hblock, hparts⟩ :=
      separated_block "[" "]" depth (isText_prettyItems (depth + 1) items)
    rw [prettyAt, hblock]
    exact .list hparts
  | .object members => by
    obtain ⟨cs, hblock, hparts⟩ :=
      separated_block "\x7b" "\x7d" depth (member_prettyMembers (depth + 1) members)
    rw [prettyAt, hblock]
    exact .object hparts

theorem isText_prettyItems (depth : ℕ) : (items : List Json) →
    List.Forall₂ (fun v part => IsText v part.toList) items (prettyItems depth items)
  | [] => .nil
  | v :: rest => .cons (isText_prettyAt depth v) (isText_prettyItems depth rest)

theorem member_prettyMembers (depth : ℕ) : (members : List (String × Json)) →
    List.Forall₂ (fun m part => Member IsText m part.toList) members
      (prettyMembers depth members)
  | [] => .nil
  | (name, v) :: rest => by
    have hvalue := isText_prettyAt depth v
    have hmember := Member.mk (inQuotes_quote name) blanks_nil blanks_space hvalue
    refine .cons ?_ (member_prettyMembers depth rest)
    simpa using hmember

end

theorem isText_pretty (v : Json) : IsText v v.pretty.toList := isText_prettyAt 0 v

end PageScript.Json
