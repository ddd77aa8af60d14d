import PageScript.Tokenizer

/-!
# Commands

The words before a boundary form a command, named by the first of them. A boundary without words
before it gives nothing, and neither do words without a boundary after them.
-/
namespace PageScript

structure Command where
  name : String
  params : List String
  line : Nat
  deriving DecidableEq, Repr

/-- A stream that runs out: each item makes it smaller. -/
class TokenStream (τ : Type) where
  next : τ → Option (Except LineError Token) × τ
  size : τ → Nat
  size_lt : ∀ {s rest : τ} {item : Except LineError Token},
    next s = (some item, rest) → size rest < size s

namespace TokenStream

def uncons : List (Except LineError Token) →
    Option (Except LineError Token) × List (Except LineError Token)
  | [] => (none, [])
  | item :: rest => (some item, rest)

instance : TokenStream (List (Except LineError Token)) where
  next := uncons
  size := List.length
  size_lt {s} _ _ h := by
    cases s with
    | nil => simp [uncons] at h
    | cons => simp_all [uncons]

instance : TokenStream Tokenizer where
  next := Tokenizer.next
  size := Tokenizer.size
  size_lt := Tokenizer.next_size_lt

end TokenStream

/-- A command being assembled, last parameter first. -/
structure Draft where
  name : String
  params : List String
  line : Nat
  deriving DecidableEq, Repr

namespace Draft

def command (d : Draft) : Command := ⟨d.name, d.params.reverse, d.line⟩

/-- Adds a word: the first one names the command and places it. -/
def add (bytes : Text.Bytes) (line : Nat) : Option Draft → Draft
  | none => ⟨Text.Utf8.decode bytes, [], line⟩
  | some d => { d with params := Text.Utf8.decode bytes :: d.params }

end Draft

structure Parser (τ : Type) where
  tokens : τ
  draft : Option Draft
  done : Bool
  deriving DecidableEq, Repr

namespace Parser

/-- One item of a parser, with the tokens pulled for it. -/
structure Turn (τ : Type) where
  pulled : List Token
  item : Option (Except LineError Command)
  parser : Parser τ

variable {τ : Type}

def ofTokens (tokens : τ) : Parser τ := ⟨tokens, none, false⟩

def ofSource (source : Source) : Parser Tokenizer := ofTokens (.ofSource source)

/-- Pulls tokens until a command, an error or the end. -/
def assemble [TokenStream τ] (tokens : τ) (draft : Option Draft) (pulled : List Token) : Turn τ :=
  match _h : TokenStream.next tokens with
  | (none, rest) => ⟨pulled.reverse, none, ⟨rest, draft, true⟩⟩
  | (some (.error e), rest) => ⟨pulled.reverse, some (.error e), ⟨rest, draft, true⟩⟩
  | (some (.ok (.word bytes line)), rest) =>
    assemble rest (some (Draft.add bytes line draft)) (.word bytes line :: pulled)
  | (some (.ok (.boundary line)), rest) =>
    match draft with
    | none => assemble rest none (.boundary line :: pulled)
    | some d =>
      ⟨(Token.boundary line :: pulled).reverse, some (.ok d.command), ⟨rest, none, false⟩⟩
termination_by TokenStream.size tokens
decreasing_by all_goals exact TokenStream.size_lt _h

def turn [TokenStream τ] (p : Parser τ) : Turn τ :=
  if p.done then ⟨[], none, p⟩ else assemble p.tokens p.draft []

/-- The next command or the error that ends the sequence; `none` after the end, for ever. -/
def next [TokenStream τ] (p : Parser τ) : Option (Except LineError Command) × Parser τ :=
  (p.turn.item, p.turn.parser)

def size [TokenStream τ] (p : Parser τ) : Nat := TokenStream.size p.tokens

theorem assemble_size_lt [TokenStream τ] {tokens : τ} {draft : Option Draft}
    {pulled : List Token} {item : Except LineError Command}
    (h : (assemble tokens draft pulled).item = some item) :
    (assemble tokens draft pulled).parser.size < TokenStream.size tokens := by
  fun_induction assemble tokens draft pulled with
  | case1 => simp at h
  | case2 tokens draft pulled rest e hn => exact TokenStream.size_lt hn
  | case3 tokens draft pulled bytes line rest hn ih =>
    exact Nat.lt_trans (ih h) (TokenStream.size_lt hn)
  | case4 tokens pulled line rest hn ih => exact Nat.lt_trans (ih h) (TokenStream.size_lt hn)
  | case5 tokens pulled line rest hn d => exact TokenStream.size_lt hn

theorem turn_size_lt [TokenStream τ] {p : Parser τ} {item : Except LineError Command}
    (h : p.turn.item = some item) : p.turn.parser.size < p.size := by
  unfold turn at h ⊢
  split at h
  · simp at h
  · rename_i hd
    have := assemble_size_lt h
    simpa [hd, size] using this

structure Drained where
  pulled : List Token
  commands : List Command
  ending : Option LineError
  deriving DecidableEq, Repr

/-- All commands, and the error that ended the sequence if one did. -/
def drain [TokenStream τ] (p : Parser τ) : Drained :=
  match _h : p.turn.item with
  | none => ⟨p.turn.pulled, [], none⟩
  | some (.error e) => ⟨p.turn.pulled, [], some e⟩
  | some (.ok c) =>
    let rest := p.turn.parser.drain
    ⟨p.turn.pulled ++ rest.pulled, c :: rest.commands, rest.ending⟩
termination_by p.size
decreasing_by exact turn_size_lt _h

end Parser

end PageScript
