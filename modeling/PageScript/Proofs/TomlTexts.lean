import Mathlib
import PageScript.Toml.Lexical
import PageScript.Toml.Written

namespace PageScript.Toml
open Text (hexDigit?)

theorem hexDigit?_hexDigit : ∀ n < 16, hexDigit? (hexDigit n) = some n := by decide

theorem hexValue?_byte {n : ℕ} (h : n < 256) :
    hexValue? 0 ['0', '0', hexDigit (n / 16), hexDigit (n % 16)] = some n := by
  have hz : hexDigit? '0' = some 0 := by decide
  have hh := hexDigit?_hexDigit (n / 16) (by omega)
  have hl := hexDigit?_hexDigit (n % 16) (by omega)
  have hn : n / 16 * 16 + n % 16 = n := by omega
  simp [hexValue?, hz, hh, hl, hn]

theorem scalar?_byte {c : Char} (h : c.toNat < 256) (rest : List Char) :
    scalar? 4 ('0' :: '0' :: hexDigit (c.toNat / 16) :: hexDigit (c.toNat % 16) :: rest) =
      some (c, rest) := by
  have hv := hexValue?_byte h
  have hvalid : c.toNat.isValidChar := c.valid
  simp [scalar?, hv, hvalid]

theorem newline?_of_ne {c : Char} (hn : c ≠ '\n') (hr : c ≠ '\r') (rest : List Char) :
    newline? (c :: rest) = none := by
  unfold newline?
  split <;> simp_all

theorem newline?_of_plain {c : Char} (h : isPlain c = true) (rest : List Char) :
    newline? (c :: rest) = none := by
  apply newline?_of_ne
  · rintro rfl
    exact absurd h (by decide)
  · rintro rfl
    exact absurd h (by decide)

theorem joined?_of_solid {c : Char} (hb : isBlank c = false) (hn : c ≠ '\n') (hr : c ≠ '\r')
    (rest : List Char) : joined? (c :: rest) = none := by
  simp [joined?, skipBlanks, hb, newline?_of_ne hn hr]

/-- How one character of a text between double quotes is written: as it is, or by a backslash and
characters that stand for it. -/
inductive Form (multiline : Bool) (c : Char) : List Char → Prop
  | itself (plain : isPlain c = true) (solid : c ≠ '\\') (inner : multiline = false → c ≠ '"') :
      Form multiline c [c]
  | lineEnd (across : multiline = true) (eq : c = '\n') : Form multiline c [c]
  | escaped {sign : Char} {more : List Char}
      (reads : ∀ rest, escape? (sign :: (more ++ rest)) = some (c, rest))
      (visible : isBlank sign = false) (notEnd : sign ≠ '\n') (notReturn : sign ≠ '\r') :
      Form multiline c ('\\' :: sign :: more)

theorem sign_of_shortEscape? {sign c : Char} (h : shortEscape? sign = some c) :
    sign ≠ 'u' ∧ sign ≠ 'U' ∧ isBlank sign = false ∧ sign ≠ '\n' ∧ sign ≠ '\r' := by
  unfold shortEscape? at h
  split at h
  case h_8 => simp at h
  all_goals decide

theorem form_short {multiline : Bool} {c sign : Char} (h : shortEscape? sign = some c) :
    Form multiline c ['\\', sign] := by
  obtain ⟨hu, hU, hb, hn, hr⟩ := sign_of_shortEscape? h
  refine .escaped (fun rest => ?_) hb hn hr
  simp [escape?, hu, hU, h]

theorem form_escapeChar (multiline : Bool) {c : Char} (hq : c ≠ '"') :
    Form multiline c (escapeChar multiline c) := by
  unfold escapeChar
  split
  · exact form_short rfl
  · exact form_short rfl
  · cases multiline with
    | false => exact form_short rfl
    | true => exact .lineEnd rfl rfl
  · exact form_short rfl
  · exact form_short rfl
  · exact form_short rfl
  · rename_i hsolid
    split_ifs with hc
    · refine .escaped (fun rest => ?_) (by decide) (by decide) (by decide)
      have hs := scalar?_byte (show c.toNat < 256 by omega) rest
      simpa [escape?] using hs
    · push Not at hc
      exact .itself (by simp [isPlain, hc]) hsolid fun _ => hq

theorem Form.exists_cons {multiline : Bool} {c : Char} {w : List Char} (h : Form multiline c w)
    (hq : c ≠ '"') : ∃ sign more, w = sign :: more ∧ sign ≠ '"' := by
  cases h with
  | itself => exact ⟨c, [], rfl, hq⟩
  | lineEnd => exact ⟨c, [], rfl, hq⟩
  | escaped => exact ⟨'\\', _, rfl, by decide⟩

/-- A quote is written as it is while fewer than two stand right before it. Otherwise a character
is written in a form that does not begin with a quote. -/
theorem escapeBasic_cons (multiline : Bool) (run : ℕ) (c : Char) (cs : List Char) :
    (c = '"' ∧ multiline = true ∧ run < 2 ∧
      escapeBasic multiline run (c :: cs) = '"' :: escapeBasic multiline (run + 1) cs) ∨
    ∃ sign more, sign ≠ '"' ∧ Form multiline c (sign :: more) ∧
      escapeBasic multiline run (c :: cs) = sign :: more ++ escapeBasic multiline 0 cs := by
  by_cases hq : c = '"'
  · subst hq
    by_cases hr : multiline = true ∧ run < 2
    · exact .inl ⟨rfl, hr.1, hr.2, by rw [escapeBasic, if_pos rfl, if_pos hr]⟩
    · refine .inr ⟨'\\', ['"'], by decide, form_short rfl, ?_⟩
      rw [escapeBasic, if_pos rfl, if_neg hr]
      rfl
  · have hf := form_escapeChar multiline hq
    obtain ⟨sign, more, hw, hs⟩ := hf.exists_cons hq
    refine .inr ⟨sign, more, hs, hw ▸ hf, ?_⟩
    rw [escapeBasic, if_neg hq, hw]

theorem basicText_form {c : Char} {w : List Char} (h : Form false c w) (rest : List Char) :
    basicText (w ++ rest) = (basicText rest).map fun (s, rest) => (c :: s, rest) := by
  cases h with
  | itself plain solid inner =>
    have hq := inner rfl
    rw [List.singleton_append, basicText.eq_def]
    simp only [plain, if_true]
  | lineEnd across => simp at across
  | @escaped sign more reads =>
    have he := reads rest
    rw [List.cons_append, List.cons_append, basicText]
    split
    · rename_i hnone
      simp [he] at hnone
    · rename_i c' rest' hsome
      obtain ⟨rfl, rfl⟩ : c = c' ∧ rest = rest' := by simpa [he] using hsome
      rfl

theorem basicText_escapeBasic (run : ℕ) (cs rest : List Char) :
    basicText (escapeBasic false run cs ++ '"' :: rest) = some (cs, rest) := by
  induction cs generalizing run with
  | nil => simp [escapeBasic, basicText]
  | cons c cs ih =>
    obtain ⟨-, hm, -⟩ | ⟨sign, more, -, hf, he⟩ := escapeBasic_cons false run c cs
    · simp at hm
    · rw [he, List.append_assoc, basicText_form hf, ih]
      rfl

theorem literalText_append {cs : List Char} (h : ∀ c ∈ cs, isPlain c = true ∧ c ≠ '\'')
    (rest : List Char) : literalText (cs ++ '\'' :: rest) = some (cs, rest) := by
  induction cs with
  | nil => rfl
  | cons c cs ih =>
    obtain ⟨⟨hp, hq⟩, hcs⟩ := List.forall_mem_cons.mp h
    rw [List.cons_append, literalText.eq_def]
    simp only [hp, if_true, ih hcs, Option.map_some]

/-- A text that does not begin with three quotes. -/
def Few (quote : Char) (cs : List Char) : Prop :=
  ∃ run < 3, ∃ more, cs = List.replicate run quote ++ more ∧ more.head? ≠ some quote

theorem closing?_replicate (quote : Char) {run : ℕ} (hr : run < 3) {rest : List Char}
    (h : rest.head? ≠ some quote) :
    closing? quote (List.replicate run quote ++ quote :: quote :: quote :: rest) =
      some (List.replicate run quote, rest) := by
  have hrest : ∀ n, (rest.take n).takeWhile (· = quote) = [] := by
    intro n
    cases rest with
    | nil => simp
    | cons c rest =>
      have hc : c ≠ quote := by simpa using h
      cases n <;> simp [hc]
  interval_cases run <;> simp [closing?, hrest]

/-- Where a text begins with fewer than three quotes, it closes only if these are all of it. -/
theorem closing?_of_few {quote : Char} {cs rest : List Char} (hf : Few quote cs)
    (h : rest.head? ≠ some quote) {found : List Char × List Char}
    (hc : closing? quote (cs ++ quote :: quote :: quote :: rest) = some found) :
    (∀ c ∈ cs, c = quote) ∧ found = (cs, rest) := by
  obtain ⟨run, hr, more, rfl, hmore⟩ := hf
  cases more with
  | nil =>
    rw [List.append_nil, closing?_replicate quote hr h] at hc
    rw [List.append_nil]
    exact ⟨fun c hc => List.eq_of_mem_replicate hc, (Option.some.inj hc).symm⟩
  | cons d more =>
    have hd : d ≠ quote := by simpa using hmore
    interval_cases run <;> simp [closing?, hd] at hc

/-- Over several lines the first character of a text is read as one where no quotes close it. -/
theorem multilineBasicText_form {c : Char} {w : List Char} (h : Form true c w) {rest : List Char}
    (hc : closing? '"' (w ++ rest) = none) :
    multilineBasicText (w ++ rest) =
      (multilineBasicText rest).map fun (s, rest) => (c :: s, rest) := by
  cases h with
  | itself plain solid =>
    have hn := newline?_of_plain plain rest
    rw [List.singleton_append] at hc ⊢
    rw [multilineBasicText.eq_def, hc]
    simp only
    split
    · rename_i hsome
      simp [hn] at hsome
    · rw [if_pos plain]
  | lineEnd _ eq =>
    subst eq
    rw [List.singleton_append] at hc ⊢
    rw [multilineBasicText.eq_def, hc]
    rfl
  | @escaped sign more reads visible notEnd notReturn =>
    have he := reads rest
    have hj := joined?_of_solid visible notEnd notReturn (more ++ rest)
    rw [List.cons_append, List.cons_append] at hc ⊢
    rw [multilineBasicText.eq_def, hc]
    simp only
    split
    · rename_i hsome
      simp [hj] at hsome
    · split
      · rename_i hnone
        simp [he] at hnone
      · rename_i c' rest' hsome
        obtain ⟨rfl, rfl⟩ : c = c' ∧ rest = rest' := by simpa [he] using hsome
        rfl

/-- Fewer than three quotes are written in a row. -/
theorem run_escapeBasic (run : ℕ) (cs : List Char) :
    ∃ ahead ≤ 2 - run, ∃ more,
      escapeBasic true run cs = List.replicate ahead '"' ++ more ∧ more.head? ≠ some '"' := by
  induction cs generalizing run with
  | nil => exact ⟨0, by omega, [], rfl, by simp⟩
  | cons c cs ih =>
    obtain ⟨-, -, hr, he⟩ | ⟨sign, more, hs, -, he⟩ := escapeBasic_cons true run c cs
    · obtain ⟨ahead, ha, more, hi, hm⟩ := ih (run + 1)
      refine ⟨ahead + 1, by omega, more, ?_, hm⟩
      rw [he, hi]
      rfl
    · exact ⟨0, by omega, _, he, by simpa using hs⟩

theorem few_escapeBasic (run : ℕ) (cs : List Char) : Few '"' (escapeBasic true run cs) := by
  obtain ⟨ahead, ha, more, he, hm⟩ := run_escapeBasic run cs
  exact ⟨ahead, by omega, more, he, hm⟩

/-- Only quotes are written as nothing but quotes. -/
theorem escapeBasic_of_quotes {run : ℕ} {cs : List Char}
    (h : ∀ c ∈ escapeBasic true run cs, c = '"') : escapeBasic true run cs = cs := by
  induction cs generalizing run with
  | nil => rfl
  | cons c cs ih =>
    obtain ⟨rfl, -, -, he⟩ | ⟨sign, more, hs, -, he⟩ := escapeBasic_cons true run c cs
    · rw [he] at h ⊢
      rw [ih fun d hd => h d (List.mem_cons_of_mem _ hd)]
    · rw [he] at h
      exact absurd (h sign List.mem_cons_self) hs

theorem multilineBasicText_escapeBasic (run : ℕ) (cs : List Char) {rest : List Char}
    (h : rest.head? ≠ some '"') :
    multilineBasicText (escapeBasic true run cs ++ '"' :: '"' :: '"' :: rest) =
      some (cs, rest) := by
  induction cs generalizing run with
  | nil =>
    have hc := closing?_replicate '"' (show 0 < 3 by decide) h
    rw [multilineBasicText.eq_def]
    exact hc ▸ rfl
  | cons c cs ih =>
    -- the closing quotes are taken together with quotes that end the text, never before them
    cases hc : closing? '"' (escapeBasic true run (c :: cs) ++ '"' :: '"' :: '"' :: rest) with
    | some found =>
      obtain ⟨hall, rfl⟩ := closing?_of_few (few_escapeBasic run (c :: cs)) h hc
      rw [multilineBasicText.eq_def, hc, escapeBasic_of_quotes hall]
    | none =>
      obtain ⟨rfl, -, -, he⟩ | ⟨sign, more, -, hf, he⟩ := escapeBasic_cons true run c cs
      · have hf : Form true '"' ['"'] := .itself (by decide) (by decide) (by simp)
        rw [he, ← List.singleton_append, List.append_assoc] at hc ⊢
        rw [multilineBasicText_form hf hc, ih]
        rfl
      · rw [he, List.append_assoc] at hc ⊢
        rw [multilineBasicText_form hf hc, ih]
        rfl

/-- A run of quotes at the start goes on one that was read before. -/
theorem few_of_longestRun {quote : Char} {run : ℕ} {cs : List Char}
    (h : longestRun quote run cs < 3) :
    ∃ ahead, run + ahead < 3 ∧ ∃ more,
      cs = List.replicate ahead quote ++ more ∧ more.head? ≠ some quote := by
  induction cs generalizing run with
  | nil => exact ⟨0, h, [], rfl, by simp⟩
  | cons c cs ih =>
    rw [longestRun] at h
    split_ifs at h with hc
    · obtain ⟨ahead, ha, more, he, hm⟩ := ih h
      refine ⟨ahead + 1, by omega, more, ?_, hm⟩
      rw [he, hc]
      rfl
    · exact ⟨0, lt_of_le_of_lt (le_max_left _ _) h, _, rfl, by simpa using hc⟩

theorem multilineLiteralText_cons {c : Char} (hp : isPlain c = true ∨ c = '\n')
    {rest : List Char} (hc : closing? '\'' (c :: rest) = none) :
    multilineLiteralText (c :: rest) =
      (multilineLiteralText rest).map fun (s, rest) => (c :: s, rest) := by
  rw [multilineLiteralText.eq_def, hc]
  rcases hp with hp | rfl
  · have hn := newline?_of_plain hp rest
    simp only
    split
    · rename_i hsome
      simp [hn] at hsome
    · rw [if_pos hp]
  · rfl

theorem multilineLiteralText_append {run : ℕ} {cs : List Char}
    (hp : ∀ c ∈ cs, isPlain c = true ∨ c = '\n') (hr : longestRun '\'' run cs < 3)
    {rest : List Char} (h : rest.head? ≠ some '\'') :
    multilineLiteralText (cs ++ '\'' :: '\'' :: '\'' :: rest) = some (cs, rest) := by
  induction cs generalizing run with
  | nil =>
    have hc := closing?_replicate '\'' (show 0 < 3 by decide) h
    rw [multilineLiteralText.eq_def]
    exact hc ▸ rfl
  | cons c cs ih =>
    obtain ⟨hc, hcs⟩ := List.forall_mem_cons.mp hp
    cases hcl : closing? '\'' (c :: cs ++ '\'' :: '\'' :: '\'' :: rest) with
    | some found =>
      obtain ⟨ahead, ha, more, he, hm⟩ := few_of_longestRun hr
      obtain ⟨-, rfl⟩ := closing?_of_few ⟨ahead, by omega, more, he, hm⟩ h hcl
      rw [multilineLiteralText.eq_def, hcl]
    | none =>
      have hi : multilineLiteralText (cs ++ '\'' :: '\'' :: '\'' :: rest) = some (cs, rest) := by
        rw [longestRun] at hr
        split_ifs at hr
        · exact ih hcs hr
        · exact ih hcs (lt_of_le_of_lt (le_max_right _ _) hr)
      rw [List.cons_append] at hcl ⊢
      rw [multilineLiteralText_cons hc hcl, hi]
      rfl

/-- Whether a style holds a text. Between double quotes everything has its place. -/
def Fits (cs : List Char) : Style → Prop
  | .basic | .multilineBasic => True
  | .literal => ∀ c ∈ cs, isPlain c = true ∧ c ≠ '\''
  | .multilineLiteral => (∀ c ∈ cs, isPlain c = true ∨ c = '\n') ∧ longestRun '\'' 0 cs < 3

theorem plain_of_not_needsEscape {c : Char} (h : needsEscape c = false) :
    isPlain c = true ∨ c = '\n' := by
  by_cases ht : c = '\t'
  · exact .inl (by rw [ht]; decide)
  · by_cases hn : c = '\n'
    · exact .inr hn
    · have hr : 32 ≤ c.toNat ∧ c.toNat ≠ 127 := by simpa [needsEscape, ht, hn] using h
      exact .inl (by simp [isPlain, hr])

theorem fits_style (cs : List Char) : Fits cs (style cs) := by
  unfold style
  dsimp only
  split_ifs with h₁ h₂ h₃ h₄ h₅
  · trivial
  · simp only [Bool.and_eq_true, Bool.not_eq_true', List.any_eq_false, List.contains_eq_mem,
      decide_eq_false_iff_not] at h₂
    obtain ⟨⟨hesc, hline⟩, hquote⟩ := h₂
    intro c hc
    have hplain := plain_of_not_needsEscape (Bool.eq_false_iff.mpr (hesc c hc))
    refine ⟨hplain.resolve_right ?_, ?_⟩
    · rintro rfl
      exact hline hc
    · rintro rfl
      exact hquote hc
  · trivial
  · simp only [Bool.and_eq_true, Bool.not_eq_true', List.any_eq_false, decide_eq_true_eq] at h₄
    obtain ⟨hesc, hrun⟩ := h₄
    exact ⟨fun c hc => plain_of_not_needsEscape (Bool.eq_false_iff.mpr (hesc c hc)), hrun⟩
  · trivial
  · trivial

theorem text?_of_basic {cs : List Char} (h : ∀ rest, cs ≠ '"' :: '"' :: rest) :
    text? ('"' :: cs) = basicText cs := by
  unfold text?
  split <;> simp_all

theorem text?_of_literal {cs : List Char} (h : ∀ rest, cs ≠ '\'' :: '\'' :: rest) :
    text? ('\'' :: cs) = literalText cs := by
  unfold text?
  split <;> simp_all

/-- The line end behind the opening quotes is there only for a text with a line end of its own, and
no other text begins with something that could be taken for it. -/
theorem afterOpening_of_written (cs : List Char) {written : List Char}
    (h : '\n' ∉ cs → newline? written = none) :
    afterOpening ((if cs.contains '\n' then ['\n'] else []) ++ written) = written := by
  by_cases hn : '\n' ∈ cs
  · simp [hn, afterOpening, newline?]
  · simp [hn, afterOpening, h hn]

theorem opening_append (quotes cs written : List Char) :
    opening quotes cs ++ written =
      quotes ++ ((if cs.contains '\n' then ['\n'] else []) ++ written) := by
  unfold opening
  split_ifs <;> simp

theorem newline?_escapeBasic {cs : List Char} (h : '\n' ∉ cs) (rest : List Char) :
    newline? (escapeBasic true 0 cs ++ '"' :: rest) = none := by
  cases cs with
  | nil => rfl
  | cons c cs =>
    obtain ⟨-, -, -, he⟩ | ⟨sign, more, -, hf, he⟩ := escapeBasic_cons true 0 c cs
    · rw [he]
      rfl
    · rw [he]
      cases hf with
      | itself plain => exact newline?_of_plain plain _
      | lineEnd _ eq => exact absurd (eq ▸ List.mem_cons_self) h
      | escaped => rfl

theorem newline?_literal {cs : List Char} (hp : ∀ c ∈ cs, isPlain c = true ∨ c = '\n')
    (h : '\n' ∉ cs) (rest : List Char) : newline? (cs ++ '\'' :: rest) = none := by
  cases cs with
  | nil => rfl
  | cons c cs =>
    rcases hp c List.mem_cons_self with hc | rfl
    · exact newline?_of_plain hc _
    · exact absurd List.mem_cons_self h

/-- A text in a style that holds it is read whole, if no quote follows it. -/
theorem text?_writeIn {style : Style} {cs : List Char} (hf : Fits cs style) {rest : List Char}
    (hd : rest.head? ≠ some '"') (hs : rest.head? ≠ some '\'') :
    text? (writeIn style cs ++ rest) = some (cs, rest) := by
  cases style with
  | basic =>
    have ht : ∀ r, escapeBasic false 0 cs ++ '"' :: rest ≠ '"' :: '"' :: r := by
      intro r he
      cases cs with
      | nil => simp [(List.cons.inj he).2] at hd
      | cons c cs =>
        obtain ⟨-, hm, -⟩ | ⟨sign, more, hsign, -, hw⟩ := escapeBasic_cons false 0 c cs
        · simp at hm
        · rw [hw] at he
          exact hsign (List.cons.inj he).1
    have hw : writeIn .basic cs ++ rest = '"' :: (escapeBasic false 0 cs ++ '"' :: rest) := by
      simp [writeIn]
    rw [hw, text?_of_basic ht, basicText_escapeBasic]
  | literal =>
    have ht : ∀ r, cs ++ '\'' :: rest ≠ '\'' :: '\'' :: r := by
      intro r he
      cases cs with
      | nil => simp [(List.cons.inj he).2] at hs
      | cons c cs => exact (hf c List.mem_cons_self).2 (List.cons.inj he).1
    have hw : writeIn .literal cs ++ rest = '\'' :: (cs ++ '\'' :: rest) := by
      simp [writeIn]
    rw [hw, text?_of_literal ht, literalText_append hf]
  | multilineBasic =>
    have ho := afterOpening_of_written cs fun hn => newline?_escapeBasic hn ('"' :: '"' :: rest)
    have hw : writeIn .multilineBasic cs ++ rest =
        opening ['"', '"', '"'] cs ++ (escapeBasic true 0 cs ++ '"' :: '"' :: '"' :: rest) := by
      simp [writeIn]
    rw [hw, opening_append]
    have ht := multilineBasicText_escapeBasic 0 cs hd
    rw [← ho] at ht
    exact ht
  | multilineLiteral =>
    obtain ⟨hp, hr⟩ := hf
    have ho := afterOpening_of_written cs fun hn => newline?_literal hp hn ('\'' :: '\'' :: rest)
    have hw : writeIn .multilineLiteral cs ++ rest =
        opening ['\'', '\'', '\''] cs ++ (cs ++ '\'' :: '\'' :: '\'' :: rest) := by
      simp [writeIn]
    rw [hw, opening_append]
    have ht := multilineLiteralText_append hp hr hs
    rw [← ho] at ht
    exact ht

end PageScript.Toml
