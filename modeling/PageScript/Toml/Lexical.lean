import PageScript.Text.Hex

/-!
# TOML characters and texts

Readers take the characters that are left and give what they read with the characters after it, or
nothing if the text is not well formed.
-/
namespace PageScript.Toml

abbrev Reader (α : Type) := List Char → Option (α × List Char)

def isBlank (c : Char) : Bool := c = ' ' || c = '\t'

/-- Allowed within a line: the tab and everything that is not a control. -/
def isPlain (c : Char) : Bool := c = '\t' || (0x20 ≤ c.toNat && c.toNat ≠ 0x7F)

def skipBlanks (cs : List Char) : List Char := cs.dropWhile isBlank

def newline? : List Char → Option (List Char)
  | '\n' :: r => some r
  | '\r' :: '\n' :: r => some r
  | _ => none

def skipComment : List Char → List Char
  | '#' :: r => r.dropWhile isPlain
  | cs => cs

/-- Blanks and a comment up to the end of the line. -/
def lineEnd? (cs : List Char) : Option (List Char) :=
  match skipComment (skipBlanks cs) with
  | [] => some []
  | r => newline? r

/-- Blanks, line ends and, once a `#` was seen, the rest of its line. -/
def skipGap : Bool → List Char → List Char
  | _, [] => []
  | _, '\n' :: r => skipGap false r
  | _, '\r' :: '\n' :: r => skipGap false r
  | true, c :: r => if isPlain c then skipGap true r else c :: r
  | false, c :: r =>
    if c = '#' then skipGap true r
    else if isBlank c then skipGap false r
    else c :: r

def skipLines : List Char → List Char
  | [] => []
  | '\n' :: r => skipLines r
  | '\r' :: '\n' :: r => skipLines r
  | c :: r => if isBlank c then skipLines r else c :: r

theorem length_skipLines_le (cs : List Char) : (skipLines cs).length ≤ cs.length := by
  fun_induction skipLines cs with
  | case1 => simp
  | case2 r ih => exact Nat.le_succ_of_le ih
  | case3 r ih => exact Nat.le_succ_of_le (Nat.le_succ_of_le ih)
  | case4 c r _ _ _ ih => exact Nat.le_succ_of_le ih
  | case5 => simp

def hexValue? : Nat → List Char → Option Nat
  | n, [] => some n
  | n, c :: cs => do hexValue? (n * 16 + (← Text.hexDigit? c)) cs

/-- A character by exactly so many hexadecimal digits. -/
def scalar? (count : Nat) (cs : List Char) : Option (Char × List Char) :=
  if count ≤ cs.length then
    match hexValue? 0 (cs.take count) with
    | none => none
    | some n => if n.isValidChar then some (Char.ofNat n, cs.drop count) else none
  else none

def shortEscape? : Char → Option Char
  | 'b' => some '\x08'
  | 't' => some '\t'
  | 'n' => some '\n'
  | 'f' => some '\x0c'
  | 'r' => some '\r'
  | '"' => some '"'
  | '\\' => some '\\'
  | _ => none

def escape? : List Char → Option (Char × List Char)
  | [] => none
  | c :: r =>
    if c = 'u' then scalar? 4 r
    else if c = 'U' then scalar? 8 r
    else (shortEscape? c).map fun e => (e, r)

theorem scalar?_length_le {count : Nat} {cs rest : List Char} {c : Char}
    (h : scalar? count cs = some (c, rest)) : rest.length ≤ cs.length := by
  unfold scalar? at h
  split at h
  · split at h
    · simp at h
    · split at h
      · obtain ⟨_, rfl⟩ := by simpa using h
        simp
      · simp at h
  · simp at h

theorem escape?_length_lt {cs rest : List Char} {c : Char} (h : escape? cs = some (c, rest)) :
    rest.length < cs.length := by
  unfold escape? at h
  split at h
  · simp at h
  · split at h
    · exact Nat.lt_succ_of_le (scalar?_length_le h)
    · split at h
      · exact Nat.lt_succ_of_le (scalar?_length_le h)
      · obtain ⟨_, _, heq⟩ := Option.map_eq_some_iff.1 h
        obtain ⟨_, rfl⟩ := by simpa using heq
        simp

/-- The rest of a text between double quotes. -/
def basicText (cs : List Char) : Option (List Char × List Char) :=
  match cs with
  | [] => none
  | '"' :: r => some ([], r)
  | '\\' :: r =>
    match _h : escape? r with
    | none => none
    | some (c, rest) => (basicText rest).map fun (s, rest) => (c :: s, rest)
  | c :: r => if isPlain c then (basicText r).map fun (s, rest) => (c :: s, rest) else none
termination_by cs.length
decreasing_by
  · have := escape?_length_lt _h
    simp only [List.length_cons]
    omega
  · simp

def literalText : List Char → Option (List Char × List Char)
  | [] => none
  | '\'' :: r => some ([], r)
  | c :: r => if isPlain c then (literalText r).map fun (s, rest) => (c :: s, rest) else none

/-- Three quotes end a text over several lines. Up to two more before them belong to it. -/
def closing? (quote : Char) (cs : List Char) : Option (List Char × List Char) :=
  if cs.take 3 = [quote, quote, quote] then
    let extra := ((cs.drop 3).take 2).takeWhile (· = quote)
    some (extra, cs.drop (3 + extra.length))
  else none

/-- A backslash at the end of a line takes the blanks and line ends after it away. -/
def joined? (cs : List Char) : Option (List Char) := (newline? (skipBlanks cs)).map skipLines

theorem newline?_length_lt {cs rest : List Char} (h : newline? cs = some rest) :
    rest.length < cs.length := by
  unfold newline? at h
  split at h
  · obtain rfl := by simpa using h
    simp
  · obtain rfl := by simpa using h
    simp only [List.length_cons]
    omega
  · simp at h

theorem length_skipBlanks_le (cs : List Char) : (skipBlanks cs).length ≤ cs.length :=
  (List.dropWhile_sublist _).length_le

theorem joined?_length_lt {cs rest : List Char} (h : joined? cs = some rest) :
    rest.length < cs.length := by
  obtain ⟨r, hr, rfl⟩ := Option.map_eq_some_iff.1 h
  have := newline?_length_lt hr
  have := length_skipBlanks_le cs
  have := length_skipLines_le r
  omega

/-- The rest of a text between three double quotes. -/
def multilineBasicText (cs : List Char) : Option (List Char × List Char) :=
  match closing? '"' cs with
  | some found => some found
  | none =>
    match cs with
    | [] => none
    | '\\' :: r =>
      match _hj : joined? r with
      | some rest => multilineBasicText rest
      | none =>
        match _he : escape? r with
        | none => none
        | some (c, rest) => (multilineBasicText rest).map fun (s, rest) => (c :: s, rest)
    | c :: r =>
      match _hn : newline? (c :: r) with
      | some rest => (multilineBasicText rest).map fun (s, rest) => ('\n' :: s, rest)
      | none =>
        if isPlain c then (multilineBasicText r).map fun (s, rest) => (c :: s, rest) else none
termination_by cs.length
decreasing_by
  · have := joined?_length_lt _hj
    simp only [List.length_cons]
    omega
  · have := escape?_length_lt _he
    simp only [List.length_cons]
    omega
  · exact newline?_length_lt _hn
  · simp

def multilineLiteralText (cs : List Char) : Option (List Char × List Char) :=
  match closing? '\'' cs with
  | some found => some found
  | none =>
    match cs with
    | [] => none
    | c :: r =>
      match _hn : newline? (c :: r) with
      | some rest => (multilineLiteralText rest).map fun (s, rest) => ('\n' :: s, rest)
      | none =>
        if isPlain c then (multilineLiteralText r).map fun (s, rest) => (c :: s, rest) else none
termination_by cs.length
decreasing_by
  · exact newline?_length_lt _hn
  · simp

/-- A line end right after the opening quotes does not count. -/
def afterOpening (cs : List Char) : List Char := (newline? cs).getD cs

def text? (cs : List Char) : Option (List Char × List Char) :=
  match cs with
  | '"' :: '"' :: '"' :: r => multilineBasicText (afterOpening r)
  | '\'' :: '\'' :: '\'' :: r => multilineLiteralText (afterOpening r)
  | '"' :: r => basicText r
  | '\'' :: r => literalText r
  | _ => none

def isBare (c : Char) : Bool := c.isAlphanum || c = '-' || c = '_'

/-- One part of a key: quoted on one line, or bare. -/
def keyPart? (cs : List Char) : Option (List Char × List Char) :=
  match cs with
  | '"' :: r => basicText r
  | '\'' :: r => literalText r
  | _ =>
    let bare := cs.takeWhile isBare
    if bare.isEmpty then none else some (bare, cs.dropWhile isBare)

/-- The parts of a key between dots, with blanks around each. -/
def keyParts? : Nat → List Char → Option (List String × List Char)
  | 0, _ => none
  | n + 1, cs => do
    let (part, rest) ← keyPart? (skipBlanks cs)
    match skipBlanks rest with
    | '.' :: rest => do
      let (parts, rest) ← keyParts? n rest
      some (String.ofList part :: parts, rest)
    | rest => some ([String.ofList part], rest)

/-- The number of parts of a key and of lists and tables within each other stays below this. -/
def depthLimit : Nat := 80

def key? (cs : List Char) : Option (List String × List Char) := do
  let (parts, rest) ← keyParts? (cs.length + 1) cs
  if parts.length < depthLimit then some (parts, rest) else none

end PageScript.Toml
