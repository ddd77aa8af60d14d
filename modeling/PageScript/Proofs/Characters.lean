import PageScript.Proofs.LayoutLexing
import PageScript.Proofs.RoundTrip
import PageScript.Proofs.TokenLists

/-!
# Lexing characters

The words of a text, read character by character: a backslash takes the character behind it as it
is, blanks and newlines separate. Reading the bytes of the text instead gives the same words, since
no byte of a longer character is one of the signs, and behind a backslash only the first byte of a
character could be taken for one.
-/
namespace PageScript.Characters
open Text (Bytes)
open Text.Utf8 (decode decode? encode decode_encode decode?_encode pieces pieces_encode_append
  replacement toNat_ofNat)
open Lexer (backslash space tab newline feedAll feedAll_nil feedAll_cons feedAll_append)
open Layout (Special Spells Joined joined_feedAll line_feedAll tokensFrom tokensFrom_append
  tokensFrom_cons)
open Grammar (role)

/-- A word of characters with the line of its first one, or the end of a command. -/
inductive Lexeme where
  | word (text : String) (line : ℕ)
  | boundary (line : ℕ)
  deriving DecidableEq, Repr

namespace Lexeme

def token : Lexeme → Token
  | word text line => .word (encode text) line
  | boundary line => .boundary line

def chars : Lexeme → List Char
  | word text _ => text.toList
  | boundary _ => []

end Lexeme

/-- The open word, if any character of it was read. Its last character comes first. -/
def openWord (word : List Char) (wordLine : ℕ) : List Lexeme :=
  if word.isEmpty then [] else [.word (String.ofList word.reverse) wordLine]

/-- Reads characters at a line, behind an open word and the line on which that began. -/
def lex (line : ℕ) (word : List Char) (wordLine : ℕ) : List Char → List Lexeme
  | [] => openWord word wordLine ++ [.boundary line]
  | ['\\'] => openWord word wordLine ++ [.boundary line]
  | '\\' :: c :: cs =>
    lex (if c = '\n' then line + 1 else line) (c :: word)
      (if word.isEmpty then line else wordLine) cs
  | c :: cs =>
    if c = ' ' ∨ c = '\t' then openWord word wordLine ++ lex line [] wordLine cs
    else if c = '\n' then
      openWord word wordLine ++ .boundary line :: lex (line + 1) [] wordLine cs
    else lex line (c :: word) (if word.isEmpty then line else wordLine) cs

def lexemes (s : String) : List Lexeme := lex 1 [] 1 s.toList

theorem chars_openWord (word : List Char) (wordLine : ℕ) :
    (openWord word wordLine).flatMap Lexeme.chars = word.reverse := by
  cases word with
  | nil => rfl
  | cons c word => simp [openWord, Lexeme.chars]

/-- The words hold characters of the text, each at most once and in their order. -/
theorem chars_lex_sublist (line : ℕ) (word : List Char) (wordLine : ℕ) (cs : List Char) :
    ((lex line word wordLine cs).flatMap Lexeme.chars).Sublist (word.reverse ++ cs) := by
  fun_induction lex line word wordLine cs with
  | case1 line word wordLine =>
    rw [List.flatMap_append, chars_openWord]
    simp [Lexeme.chars]
  | case2 line word wordLine =>
    rw [List.flatMap_append, chars_openWord]
    simp [Lexeme.chars]
  | case3 line word wordLine c cs ih =>
    refine ih.trans ?_
    simp
  | case4 line word wordLine c cs _ _ _ ih =>
    rw [List.flatMap_append, chars_openWord]
    exact (ih.cons c).append_left word.reverse
  | case5 line word wordLine cs _ _ _ ih =>
    rw [List.flatMap_append, chars_openWord]
    exact (ih.cons '\n').append_left word.reverse
  | case6 line word wordLine c cs _ _ _ _ ih =>
    rwa [List.reverse_cons, List.append_assoc] at ih

theorem encodeChar_of_short {c : Char} (h : c.val.toNat < 0x80) :
    String.utf8EncodeChar c = [UInt8.ofNat c.val.toNat] := by
  have hle : c.val.toNat ≤ 0x7F := by omega
  unfold String.utf8EncodeChar
  dsimp only
  rw [if_pos hle]

theorem encodeChar_of_long {c : Char} (h : 0x80 ≤ c.val.toNat) :
    ∀ b ∈ String.utf8EncodeChar c, 0x80 ≤ b.toNat := by
  have hv : c.val.toNat < 0xD800 ∨ 0xDFFF < c.val.toNat ∧ c.val.toNat < 0x110000 := c.valid
  unfold String.utf8EncodeChar
  generalize c.val.toNat = v at h hv ⊢
  dsimp only
  split_ifs with h₁ h₂ h₃
  · omega
  · simp
    omega
  · simp
    omega
  · simp
    omega

theorem eq_of_mem_encodeChar {c d : Char} (hd : d.val.toNat < 0x80)
    (h : UInt8.ofNat d.val.toNat ∈ String.utf8EncodeChar c) : c = d := by
  have hn := toNat_ofNat (show d.val.toNat < 256 by omega)
  by_cases hc : c.val.toNat < 0x80
  · have hm := toNat_ofNat (show c.val.toNat < 256 by omega)
    rw [encodeChar_of_short hc, List.mem_singleton] at h
    rw [h, hm] at hn
    exact Char.ext (UInt32.toNat_inj.mp hn)
  · have hb := encodeChar_of_long (Nat.le_of_not_lt hc) _ h
    omega

theorem newline_mem_encodeChar {c : Char} (h : newline ∈ String.utf8EncodeChar c) : c = '\n' :=
  eq_of_mem_encodeChar (d := '\n') (by decide) h

theorem count_newline (c : Char) :
    (String.utf8EncodeChar c).count newline = if c = '\n' then 1 else 0 := by
  split_ifs with hc
  · subst hc
    decide
  · exact List.count_eq_zero.mpr (mt newline_mem_encodeChar hc)

def Sign (c : Char) : Prop := c = '\\' ∨ c = ' ' ∨ c = '\t' ∨ c = '\n'

theorem sign_of_mem_encodeChar {c : Char} {b : UInt8} (hb : b ∈ String.utf8EncodeChar c)
    (hs : Special b) : Sign c := by
  rcases hs with rfl | rfl | rfl | rfl
  · exact .inl (eq_of_mem_encodeChar (d := '\\') (by decide) hb)
  · exact .inr (.inl (eq_of_mem_encodeChar (d := ' ') (by decide) hb))
  · exact .inr (.inr (.inl (eq_of_mem_encodeChar (d := '\t') (by decide) hb)))
  · exact .inr (.inr (.inr (newline_mem_encodeChar hb)))

theorem spells_self {bs : Bytes} (h : ∀ b ∈ bs, ¬ Special b) : Spells bs bs := by
  induction bs with
  | nil => exact .nil
  | cons b bs ih =>
    obtain ⟨hb, hbs⟩ := List.forall_mem_cons.mp h
    exact .plain hb (ih hbs)

theorem spells_encodeChar {c : Char} (h : ¬ Sign c) :
    Spells (String.utf8EncodeChar c) (String.utf8EncodeChar c) :=
  spells_self fun _ hb hs => h (sign_of_mem_encodeChar hb hs)

/-- One backslash is enough for all bytes of a character. -/
theorem spells_escaped (c : Char) :
    Spells (backslash :: String.utf8EncodeChar c) (String.utf8EncodeChar c) := by
  by_cases hc : Sign c
  · rcases hc with rfl | rfl | rfl | rfl
    all_goals exact .escaped .nil
  · obtain ⟨b, bs, hb⟩ := List.exists_cons_of_ne_nil (String.utf8EncodeChar_ne_nil (c := c))
    have hbs : ∀ x ∈ bs, ¬ Special x := by
      intro x hx hs
      exact hc (sign_of_mem_encodeChar (hb ▸ List.mem_cons_of_mem b hx) hs)
    rw [hb]
    exact .escaped (spells_self hbs)

/-- A lexer between two characters has read the bytes of the open word. -/
structure Agrees (lx : Lexer) (line : ℕ) (word : List Char) (wordLine : ℕ) : Prop where
  escaped_eq : lx.escaped = false
  line_eq : lx.line = line
  word_eq : lx.word.reverse = word.reverse.flatMap String.utf8EncodeChar
  wordLine_eq : word ≠ [] → lx.wordLine = wordLine

theorem agrees_initial : Agrees .initial 1 [] 1 := ⟨rfl, rfl, rfl, fun _ => rfl⟩

theorem encode_ofList (cs : List Char) :
    encode (String.ofList cs) = cs.flatMap String.utf8EncodeChar := by
  rw [encode, String.toList_ofList]

section Agrees

variable {lx : Lexer} {line wordLine : ℕ} {word : List Char}

theorem Agrees.word_eq_nil (h : Agrees lx line word wordLine) : lx.word = [] ↔ word = [] := by
  rw [← List.reverse_eq_nil_iff, h.word_eq]
  cases word <;> simp

theorem Agrees.openWord (h : Agrees lx line word wordLine) :
    lx.openWord = (openWord word wordLine).map Lexeme.token := by
  by_cases hw : word = []
  · have hb := h.word_eq_nil.mpr hw
    simp [Lexer.openWord, Characters.openWord, hw, hb]
  · have hb := mt h.word_eq_nil.mp hw
    have hl := h.wordLine_eq hw
    simp [Lexer.openWord, Characters.openWord, Lexeme.token, hw, hb, hl, h.word_eq, encode_ofList]

theorem Agrees.close (h : Agrees lx line word wordLine) :
    lx.close =
      (Characters.openWord word wordLine ++ [Lexeme.boundary line]).map Lexeme.token := by
  rw [Lexer.close, h.openWord, h.line_eq, List.map_append]
  rfl

theorem Agrees.drop (h : Agrees lx line word wordLine) : Agrees lx.drop line [] wordLine :=
  ⟨h.escaped_eq, h.line_eq, rfl, fun hn => absurd rfl hn⟩

theorem Agrees.advance (h : Agrees lx line word wordLine) :
    Agrees lx.advance (line + 1) word wordLine :=
  ⟨h.escaped_eq, congrArg (· + 1) h.line_eq, h.word_eq, h.wordLine_eq⟩

/-- The bytes of a character of a word, escaped or not, add the character. -/
theorem Agrees.spelled (h : Agrees lx line word wordLine) {c : Char} {text : Bytes}
    (hs : Spells text (String.utf8EncodeChar c)) :
    Agrees (feedAll text lx).1 (line + text.count newline) (c :: word)
        (if word.isEmpty then line else wordLine) ∧ (feedAll text lx).2 = [] := by
  have hj := joined_feedAll hs h.escaped_eq
  have hne : (feedAll text lx).1.word ≠ [] := by
    rw [hj.word]
    simp
  refine ⟨⟨hj.escaped, ?_, ?_, fun _ => ?_⟩, hj.tokens⟩
  · rw [line_feedAll, h.line_eq]
  · rw [hj.word]
    simp [h.word_eq]
  · rw [hj.wordLine hne]
    by_cases hw : word = []
    · simp [hw, h.word_eq_nil.mpr hw, h.line_eq]
    · simp [hw, mt h.word_eq_nil.mp hw, h.wordLine_eq hw]

end Agrees

/-- A lexer between two characters takes the bytes of the rest as its characters are taken. -/
theorem tokensFrom_encoded (line : ℕ) (word : List Char) (wordLine : ℕ) (cs : List Char)
    {lx : Lexer} (h : Agrees lx line word wordLine) :
    tokensFrom (cs.flatMap String.utf8EncodeChar) lx =
      (lex line word wordLine cs).map Lexeme.token := by
  fun_induction lex line word wordLine cs generalizing lx with
  | case1 line word wordLine => exact h.close
  | case2 line word wordLine =>
    have hm : role lx.escaped backslash = .marker := by rw [h.escaped_eq]; rfl
    have hf : lx.feed backslash = ({ lx with escaped := true }, []) := Grammar.feed_of_marker hm
    have hc : tokensFrom [backslash] lx = lx.close := by
      rw [tokensFrom_cons, hf]
      rfl
    exact hc.trans h.close
  | case3 line word wordLine c cs ih =>
    -- the backslash and all bytes of the character at once lead between two characters again
    obtain ⟨hs, ht⟩ := h.spelled (spells_escaped c)
    have hn : (backslash :: String.utf8EncodeChar c).count newline = if c = '\n' then 1 else 0 :=
      count_newline c
    have hl : line + (if c = '\n' then 1 else 0) = if c = '\n' then line + 1 else line := by
      split_ifs <;> rfl
    rw [hn, hl] at hs
    have hb : ('\\' :: c :: cs).flatMap String.utf8EncodeChar =
        (backslash :: String.utf8EncodeChar c) ++ cs.flatMap String.utf8EncodeChar := rfl
    rw [hb, tokensFrom_append, ht, ih hs]
    rfl
  | case4 line word wordLine c cs _ _ hb ih =>
    have hr : role lx.escaped (UInt8.ofNat c.val.toNat) = .blank := by
      rw [h.escaped_eq]
      rcases hb with rfl | rfl <;> rfl
    have hc : c.val.toNat < 0x80 := by
      rcases hb with rfl | rfl <;> decide
    rw [List.flatMap_cons, encodeChar_of_short hc, List.singleton_append, tokensFrom_cons,
      Grammar.feed_of_blank hr, ih h.drop, h.openWord, List.map_append]
  | case5 line word wordLine cs _ _ _ ih =>
    have hr : role lx.escaped newline = .lineEnd := by rw [h.escaped_eq]; rfl
    have hb : ('\n' :: cs).flatMap String.utf8EncodeChar =
        newline :: cs.flatMap String.utf8EncodeChar := rfl
    rw [hb, tokensFrom_cons, Grammar.feed_of_lineEnd hr, ih h.drop.advance, h.openWord, h.line_eq]
    simp [Lexeme.token]
  | case6 line word wordLine c cs hlast hpair hb hn ih =>
    have hsign : ¬ Sign c := by
      rintro (rfl | hc)
      · cases cs with
        | nil => exact hlast rfl rfl
        | cons d cs => exact hpair d cs rfl rfl
      · tauto
    obtain ⟨hs, ht⟩ := h.spelled (spells_encodeChar hsign)
    rw [count_newline, if_neg hn, Nat.add_zero] at hs
    rw [List.flatMap_cons, tokensFrom_append, ht, ih hs]
    rfl

theorem tokens_encode (s : String) : Grammar.tokens (encode s) = (lexemes s).map Lexeme.token := by
  rw [Grammar.tokens_eq_feedAll]
  exact tokensFrom_encoded 1 [] 1 s.toList agrees_initial

example : Grammar.tokens (encode "é\\ x\\\n\ny") =
    [.word (encode "é x\n") 1, .boundary 2, .word (encode "y") 3, .boundary 3] := by decide

theorem chars_lexemes_sublist (s : String) :
    ((lexemes s).flatMap Lexeme.chars).Sublist s.toList :=
  chars_lex_sublist 1 [] 1 s.toList

theorem decode_carried (x : Lexeme) : (decode x.token.carried).toList = x.chars := by
  cases x with
  | word text line => exact congrArg String.toList (decode_encode text)
  | boundary line => simp [Lexeme.token, Token.carried, Lexeme.chars, decode, pieces]

/-- The names and parameters of the commands hold characters of the text, each at most once and in
their order. -/
theorem chars_commandsOf_sublist (s : String) :
    (((commandsOf ((lexemes s).map Lexeme.token)).flatMap Command.texts).flatMap
      String.toList).Sublist s.toList := by
  obtain ⟨groups, rest, hcut⟩ := exists_cut ((lexemes s).map Lexeme.token)
  have hgroups := List.Sublist.flatMap_right (g := fun g => g.1 ++ [Token.boundary g.2]) groups
    fun g _ => List.sublist_append_left g.1 _
  have htokens := hgroups.trans (List.sublist_append_left _ rest)
  rw [← hcut.joined] at htokens
  have hwords := (htokens.map (decode ·.carried)).flatMap String.toList
  have hchars : (((lexemes s).map Lexeme.token).map (decode ·.carried)).flatMap String.toList =
      (lexemes s).flatMap Lexeme.chars := by
    rw [List.map_map, List.flatMap_map]
    exact List.flatMap_congr fun x _ => decode_carried x
  rw [hchars] at hwords
  rw [hcut.commandsOf_eq, texts_of_groups hcut.groups_words]
  exact hwords.trans (chars_lexemes_sublist s)

/-- The bytes of a text are lexed as its characters are, however a source delivers them. Every word
is well-formed and decodes to characters of the text; behind a backslash all bytes of a character
join the word, and nothing is escaped after them. The commands hold characters of the text, so no
more replacement characters than it. -/
theorem tokenizer_reads_characters (source : Source) (s : String) (clean : source.failure = none)
    (delivers : source.bytes = encode s) :
    let tokens := (lexemes s).map Lexeme.token
    let commands := commandsOf tokens
    let texts := (commands.flatMap Command.texts).flatMap String.toList
    Calls.Yields Tokenizer.next (.ofSource source) (tokens.map .ok) ∧
      (∀ bytes line, Token.word bytes line ∈ tokens →
        ∃ text, bytes = encode text ∧ decode? bytes = some text) ∧
      (∀ (lx : Lexer) (c : Char), lx.escaped = false →
        Joined lx (String.utf8EncodeChar c)
          (feedAll (backslash :: String.utf8EncodeChar c) lx)) ∧
      ((lexemes s).flatMap Lexeme.chars).Sublist s.toList ∧
      Calls.Yields Parser.next (Parser.ofSource source) (commands.map .ok) ∧
      texts.Sublist s.toList ∧ texts.count replacement ≤ s.toList.count replacement := by
  intro tokens commands texts
  have htokens : source.tokens = tokens := by
    rw [Source.tokens, clean]
    exact (congrArg Grammar.tokens delivers).trans (tokens_encode s)
  have hcommands : source.commands = commands := congrArg commandsOf htokens
  have htexts := chars_commandsOf_sublist s
  refine ⟨?_, ?_, ?_, chars_lexemes_sublist s, ?_, htexts, htexts.count_le replacement⟩
  · have hy := Tokenizer.yields_items (.ofSource source)
    rw [Tokenizer.items_ofSource_eq, Source.fault_eq_none.mpr clean, htokens] at hy
    simpa using hy
  · intro bytes line hmem
    obtain ⟨x, -, hx⟩ := List.mem_map.mp hmem
    cases x with
    | word text _ =>
      obtain ⟨rfl, -⟩ := Token.word.inj hx
      exact ⟨text, rfl, decode?_encode text⟩
    | boundary _ => exact absurd hx (by simp [Lexeme.token])
  · intro lx c he
    exact joined_feedAll (spells_escaped c) he
  · rw [← hcommands]
    exact Layout.yields_of_clean clean

/-- A backslash before a character of two bytes, which come in different chunks. -/
theorem tokenizer_reads_characters_chunked :
    let s := "a\\é \uFFFD\n"
    let source := Source.ofEvents [.data [0x61, backslash, 0xC3], .failed (.plain .interrupted),
      .data [0xA9, space, 0xEF, 0xBF], .data [0xBD, newline]]
    source.failure = none ∧ source.bytes = encode s ∧
      Calls.Yields Tokenizer.next (.ofSource source)
        ([.word (encode "aé") 1, .word (encode "\uFFFD") 1, .boundary 1, .boundary 2].map .ok) := by
  intro s source
  have hclean : source.failure = none := by decide
  have hbytes : source.bytes = encode s := by decide
  have hlex : (lexemes s).map Lexeme.token =
      [.word (encode "aé") 1, .word (encode "\uFFFD") 1, .boundary 1, .boundary 2] := by decide
  obtain ⟨hyields, -⟩ := tokenizer_reads_characters source s hclean hbytes
  rw [hlex] at hyields
  exact ⟨hclean, hbytes, hyields⟩

end PageScript.Characters
