import PageScript.Proofs.ReadingLines
import PageScript.Proofs.Running

/-!
# Equal delivery

Two sources that deliver the same bytes and end in the same way cannot be told apart, however the
bytes are cut into chunks, wherever reads are interrupted and whatever events lie behind the end.
The stages keep a relation between their states that says so, from the source up to the run.
-/
namespace PageScript
open Text (Bytes)

variable {σ : Type}

namespace ReadEvent

/-- Whether the input goes on: there is data, or the read is to be repeated. -/
def passes : ReadEvent → Bool
  | data bs => !bs.isEmpty
  | failed e => e.kind = .interrupted

def bytes : ReadEvent → Bytes
  | data bs => bs
  | failed _ => []

def failure? : ReadEvent → Option IoError
  | data _ => none
  | failed e => some e

/-- The data before the first event that ends the input. -/
def delivered (events : List ReadEvent) : Bytes := (events.takeWhile passes).flatMap bytes

/-- The failure in which the input ends, if it does not end cleanly. -/
def terminalFailure (events : List ReadEvent) : Option IoError :=
  (events.dropWhile passes).head?.bind failure?

/-- What lies behind an event that ends the input changes neither the data nor the end. -/
theorem delivered_behind {last : ReadEvent} (h : last.passes = false)
    (before later : List ReadEvent) :
    delivered (before ++ last :: later) = delivered (before ++ [last]) ∧
      terminalFailure (before ++ last :: later) = terminalFailure (before ++ [last]) := by
  unfold delivered terminalFailure
  induction before with
  | nil => simp [h]
  | cons e before ih =>
    by_cases he : e.passes = true
    · simp [he, ih]
    · simp [he]

end ReadEvent

open ReadEvent (delivered terminalFailure)

namespace Source

theorem eventBytes_eq_delivered (events : List ReadEvent) :
    eventBytes events = delivered events := by
  unfold delivered
  fun_induction eventBytes events with
  | case1 => rfl
  | case2 => rfl
  | case3 b bs events ih => simp [ReadEvent.passes, ReadEvent.bytes, ih]
  | case4 e events hi ih => simp [ReadEvent.passes, ReadEvent.bytes, hi, ih]
  | case5 e events hi => simp [ReadEvent.passes, hi]

theorem eventFailure_eq_terminalFailure (events : List ReadEvent) :
    eventFailure events = terminalFailure events := by
  unfold terminalFailure
  fun_induction eventFailure events with
  | case1 => rfl
  | case2 => rfl
  | case3 b bs events ih => simp [ReadEvent.passes, ih]
  | case4 e events hi ih => simp [ReadEvent.passes, hi, ih]
  | case5 e events hi => simp [ReadEvent.passes, hi, ReadEvent.failure?]

theorem bytes_ofEvents (events : List ReadEvent) : (ofEvents events).bytes = delivered events :=
  eventBytes_eq_delivered events

theorem failure_ofEvents (events : List ReadEvent) :
    (ofEvents events).failure = terminalFailure events :=
  eventFailure_eq_terminalFailure events

/-- The same bytes are to come, and the same end. -/
structure Alike (x y : Source) : Prop where
  bytes : x.bytes = y.bytes
  failure : x.failure = y.failure

theorem alike_ofEvents {xs ys : List ReadEvent} (hbytes : delivered xs = delivered ys)
    (hend : terminalFailure xs = terminalFailure ys) : Alike (ofEvents xs) (ofEvents ys) := by
  refine ⟨?_, ?_⟩
  · rw [bytes_ofEvents, bytes_ofEvents, hbytes]
  · rw [failure_ofEvents, failure_ofEvents, hend]

theorem Alike.pull_byte {x y rest : Source} {b : UInt8} (h : Alike x y)
    (hp : x.pull = .byte b rest) : ∃ rest', y.pull = .byte b rest' ∧ Alike rest rest' := by
  obtain ⟨hxb, hxf⟩ := Source.pull_byte hp
  cases hy : y.pull with
  | byte c rest' =>
    obtain ⟨hyb, hyf⟩ := Source.pull_byte hy
    have hbytes : b :: rest.bytes = c :: rest'.bytes := by rw [← hxb, ← hyb, h.bytes]
    obtain ⟨rfl, hrest⟩ := List.cons.inj hbytes
    exact ⟨rest', rfl, hrest, by rw [← hxf, ← hyf, h.failure]⟩
  | failed e =>
    obtain ⟨hyb, -⟩ := pull_failed hy
    rw [h.bytes, hyb] at hxb
    cases hxb
  | ended =>
    obtain ⟨hyb, -⟩ := pull_ended hy
    rw [h.bytes, hyb] at hxb
    cases hxb

theorem Alike.pull_failed {x y : Source} {e : IoError} (h : Alike x y)
    (hp : x.pull = .failed e) : y.pull = .failed e := by
  obtain ⟨hxb, hxf⟩ := Source.pull_failed hp
  cases hy : y.pull with
  | byte c rest' =>
    obtain ⟨hyb, -⟩ := Source.pull_byte hy
    rw [← h.bytes, hxb] at hyb
    cases hyb
  | failed e' =>
    obtain ⟨-, hyf⟩ := Source.pull_failed hy
    rw [← h.failure, hxf] at hyf
    rw [Option.some.inj hyf]
  | ended =>
    obtain ⟨-, hyf⟩ := pull_ended hy
    rw [← h.failure, hxf] at hyf
    cases hyf

theorem Alike.pull_ended {x y : Source} (h : Alike x y) (hp : x.pull = .ended) :
    y.pull = .ended := by
  obtain ⟨hxb, hxf⟩ := Source.pull_ended hp
  cases hy : y.pull with
  | byte c rest' =>
    obtain ⟨hyb, -⟩ := Source.pull_byte hy
    rw [← h.bytes, hxb] at hyb
    cases hyb
  | failed e =>
    obtain ⟨-, hyf⟩ := Source.pull_failed hy
    rw [← h.failure, hxf] at hyf
    cases hyf
  | ended => rfl

end Source

namespace Tokenizer

/-- The same state, over sources of which the same is to come as long as they are read. -/
structure Alike (t u : Tokenizer) : Prop where
  lexer : t.lexer = u.lexer
  pending : t.pending = u.pending
  finished : t.finished = u.finished
  source : t.finished = false → Source.Alike t.source u.source

theorem Alike.turn {t u : Tokenizer} (h : Alike t u) :
    t.turn.answer = u.turn.answer ∧ Alike t.turn.tokenizer u.turn.tokenizer := by
  have hturn := t.turnOf
  generalize t.turn = turn at hturn ⊢
  cases hturn with
  | handed hp =>
    rw [(TurnOf.handed (h.pending.symm.trans hp)).turn_eq]
    exact ⟨rfl, h.lexer, rfl, h.finished, h.source⟩
  | spent hp hf =>
    rw [(TurnOf.spent (h.pending.symm.trans hp) (h.finished.symm.trans hf)).turn_eq]
    exact ⟨rfl, h⟩
  | byte hp hf hpull =>
    obtain ⟨rest', hpull', hrest⟩ := (h.source hf).pull_byte hpull
    rw [(TurnOf.byte (h.pending.symm.trans hp) (h.finished.symm.trans hf) hpull').turn_eq,
      ← h.lexer]
    exact ⟨rfl, rfl, rfl, h.finished, fun _ => hrest⟩
  | failed hp hf hpull =>
    have hpull' := (h.source hf).pull_failed hpull
    rw [(TurnOf.failed (h.pending.symm.trans hp) (h.finished.symm.trans hf) hpull').turn_eq,
      line, line, ← h.lexer]
    exact ⟨rfl, rfl, h.pending, rfl, fun hopen => by simp at hopen⟩
  | ended hp hf hpull =>
    have hpull' := (h.source hf).pull_ended hpull
    rw [(TurnOf.ended (h.pending.symm.trans hp) (h.finished.symm.trans hf) hpull').turn_eq,
      ← h.lexer]
    exact ⟨rfl, rfl, rfl, rfl, fun hopen => by simp at hopen⟩

theorem Alike.next {t u : Tokenizer} (h : Alike t u) :
    t.next.1 = u.next.1 ∧ Alike t.next.2 u.next.2 := by
  fun_induction Tokenizer.next t generalizing u with
  | case1 t answer ha =>
    obtain ⟨hanswer, hrest⟩ := h.turn
    rw [u.next_eq_turn, ← hanswer, ha]
    exact ⟨rfl, hrest⟩
  | case2 t ha ih =>
    obtain ⟨hanswer, hrest⟩ := h.turn
    rw [u.next_eq_turn, ← hanswer, ha]
    exact ih hrest

theorem Alike.after {t u : Tokenizer} (h : Alike t u) (n : ℕ) :
    Alike (Calls.after Tokenizer.next n t) (Calls.after Tokenizer.next n u) := by
  induction n generalizing t u with
  | zero => exact h
  | succ n ih => exact ih h.next.2

theorem alike_ofSource {x y : Source} (h : Source.Alike x y) : Alike (ofSource x) (ofSource y) :=
  ⟨rfl, rfl, rfl, fun _ => h⟩

end Tokenizer

namespace Parser

/-- The next token decides. -/
theorem assemble_of_next {τ : Type} [TokenStream τ] (tokens : τ) (draft : Option Draft)
    (pulled : List Token) :
    assemble tokens draft pulled =
      match TokenStream.next tokens with
      | (none, rest) => ⟨pulled.reverse, none, ⟨rest, draft, true⟩⟩
      | (some (.error e), rest) => ⟨pulled.reverse, some (.error e), ⟨rest, draft, true⟩⟩
      | (some (.ok (.word bytes line)), rest) =>
        assemble rest (some (Draft.add bytes line draft)) (.word bytes line :: pulled)
      | (some (.ok (.boundary line)), rest) =>
        match draft with
        | none => assemble rest none (.boundary line :: pulled)
        | some d =>
          ⟨(Token.boundary line :: pulled).reverse, some (.ok d.command), ⟨rest, none, false⟩⟩ := by
  rw [assemble.eq_def]
  cases draft with
  | none => split <;> simp_all only
  | some draft => split <;> simp_all only

structure Alike (p q : Parser Tokenizer) : Prop where
  tokens : Tokenizer.Alike p.tokens q.tokens
  draft : p.draft = q.draft
  done : p.done = q.done

structure Turn.Alike (p q : Turn Tokenizer) : Prop where
  pulled : p.pulled = q.pulled
  item : p.item = q.item
  parser : Parser.Alike p.parser q.parser

theorem exists_next {t u rest : Tokenizer} {item : Option (Except LineError Token)}
    (h : Tokenizer.Alike t u) (hn : TokenStream.next t = (item, rest)) :
    ∃ rest', TokenStream.next u = (item, rest') ∧ Tokenizer.Alike rest rest' := by
  obtain ⟨hitem, hrest⟩ := h.next
  have ht : t.next = (item, rest) := hn
  rw [ht] at hitem hrest
  exact ⟨u.next.2, Prod.ext hitem.symm rfl, hrest⟩

theorem alike_assemble {t u : Tokenizer} (h : Tokenizer.Alike t u) (draft : Option Draft)
    (pulled : List Token) : Turn.Alike (assemble t draft pulled) (assemble u draft pulled) := by
  fun_induction assemble t draft pulled generalizing u with
  | case1 t draft pulled rest hn =>
    obtain ⟨rest', hu, hrest⟩ := exists_next h hn
    rw [assemble_of_next u, hu]
    exact ⟨rfl, rfl, hrest, rfl, rfl⟩
  | case2 t draft pulled e rest hn =>
    obtain ⟨rest', hu, hrest⟩ := exists_next h hn
    rw [assemble_of_next u, hu]
    exact ⟨rfl, rfl, hrest, rfl, rfl⟩
  | case3 t draft pulled bytes line rest hn ih =>
    obtain ⟨rest', hu, hrest⟩ := exists_next h hn
    rw [assemble_of_next u, hu]
    exact ih hrest
  | case4 t pulled line rest hn ih =>
    obtain ⟨rest', hu, hrest⟩ := exists_next h hn
    rw [assemble_of_next u, hu]
    exact ih hrest
  | case5 t pulled line rest hn d =>
    obtain ⟨rest', hu, hrest⟩ := exists_next h hn
    rw [assemble_of_next u, hu]
    exact ⟨rfl, rfl, hrest, rfl, rfl⟩

theorem Alike.turn {p q : Parser Tokenizer} (h : Alike p q) : Turn.Alike p.turn q.turn := by
  unfold Parser.turn
  rw [← h.done, ← h.draft]
  split
  · exact ⟨rfl, rfl, h⟩
  · exact alike_assemble h.tokens p.draft []

theorem alike_ofSource {x y : Source} (h : Source.Alike x y) : Alike (ofSource x) (ofSource y) :=
  ⟨Tokenizer.alike_ofSource h, rfl, rfl⟩

end Parser

namespace Runner

structure Alike (r q : Runner σ) : Prop where
  registry : r.registry = q.registry
  commands : Parser.Alike r.commands q.commands
  state : r.state = q.state
  dispatched : r.dispatched = q.dispatched

structure Step.Alike (a b : Step σ) : Prop where
  outcome : a.outcome = b.outcome
  runner : Runner.Alike a.runner b.runner
  shared : a.shared = b.shared
  events : a.events = b.events

variable {r q : Runner σ}

theorem Alike.fail (h : Alike r q) (s : σ) (events : List Event) (e : LineError) :
    Step.Alike (r.fail s events e) (q.fail s events e) :=
  ⟨rfl, ⟨h.registry, h.commands, rfl, h.dispatched⟩, rfl, rfl⟩

theorem Alike.dispatch (h : Alike r q) (s : σ) (events : List Event) (c : Command) :
    Step.Alike (r.dispatch s events c) (q.dispatch s events c) := by
  unfold Runner.dispatch
  rw [← h.registry]
  split
  · exact h.fail s events _
  · dsimp only
    split
    · exact h.fail _ _ _
    · exact ⟨rfl, ⟨rfl, h.commands, h.state, by rw [h.dispatched]⟩, rfl, rfl⟩

theorem Alike.step (h : Alike r q) (s : σ) : Step.Alike (r.step s) (q.step s) := by
  have hturn := h.commands.turn
  have hstarted : Alike { r with commands := r.commands.turn.parser, state := .running }
      ⟨r.registry, q.commands.turn.parser, .running, r.dispatched⟩ := ⟨rfl, hturn.parser, rfl, rfl⟩
  unfold Runner.step
  dsimp only
  rw [← h.state]
  split
  · exact ⟨rfl, h, rfl, rfl⟩
  · rw [← hturn.item, ← hturn.pulled, ← h.registry, ← h.dispatched]
    split
    · exact ⟨rfl, ⟨rfl, hturn.parser, rfl, rfl⟩, rfl, rfl⟩
    · exact hstarted.fail s _ _
    · exact hstarted.dispatch s _ _

theorem Alike.run (h : Alike r q) (s : σ) : r.run s = q.run s := by
  fun_induction Runner.run r s generalizing q with
  | case1 r s e he =>
    have hs := h.step s
    rw [run_of_error (hs.outcome.symm.trans he), hs.shared, hs.events]
  | case2 r s he =>
    have hs := h.step s
    rw [run_of_none (hs.outcome.symm.trans he), hs.shared, hs.events]
  | case3 r s line he rest =>
    rename_i ih
    have hs := h.step s
    have hrest := ih hs.runner
    rw [run_of_line (hs.outcome.symm.trans he), ← hs.shared, ← hs.events, ← hrest]

theorem alike_ofSource (registry : Registry σ) {x y : Source} (h : Source.Alike x y) :
    Alike (ofSource registry x) (ofSource registry y) :=
  ⟨rfl, Parser.alike_ofSource h, rfl, rfl⟩

end Runner

namespace Source

variable {x y : Source}

/-- A source is not seen past the bytes that it delivers and the end that it comes to. -/
theorem Alike.run (h : Alike x y) (registry : Registry σ) (s : σ) :
    registry.run x s = registry.run y s :=
  (Runner.alike_ofSource registry h).run s

theorem Alike.line (h : Alike x y) (n : ℕ) :
    (Calls.after Tokenizer.next n (.ofSource x)).line =
      (Calls.after Tokenizer.next n (.ofSource y)).line := by
  rw [Tokenizer.line, Tokenizer.line, ((Tokenizer.alike_ofSource h).after n).lexer]

theorem Alike.placed (h : Alike x y) :
    (Tokenizer.ofSource x).placed = (Tokenizer.ofSource y).placed := by
  rw [Tokenizer.placed_ofSource, Tokenizer.placed_ofSource, h.bytes, h.failure]

theorem Alike.items (h : Alike x y) : (Parser.ofSource x).items = (Parser.ofSource y).items := by
  simp only [Parser.items_ofSource, commands, tokens, fault, h.bytes, h.failure]

end Source

namespace Source

/-- Only data and interruptions were taken from the events of the first source. -/
def Precedes (x y : Source) : Prop :=
  ∃ used, x.events = used ++ y.events ∧ ∀ e ∈ used, e.passes = true

theorem precedes_refl (x : Source) : Precedes x x := ⟨[], rfl, by simp⟩

theorem Precedes.trans {x y z : Source} (hxy : Precedes x y) (hyz : Precedes y z) :
    Precedes x z := by
  obtain ⟨first, hx, hfirst⟩ := hxy
  obtain ⟨second, hy, hsecond⟩ := hyz
  refine ⟨first ++ second, by rw [hx, hy, List.append_assoc], ?_⟩
  exact List.forall_mem_append.mpr ⟨hfirst, hsecond⟩

theorem precedes_of_refill {events : List ReadEvent} {b : UInt8} {rest : Source}
    (h : refill events = .byte b rest) : Precedes ⟨[], events⟩ rest := by
  fun_induction refill events with
  | case1 => simp at h
  | case2 => simp at h
  | case3 c bs es =>
    obtain ⟨rfl, rfl⟩ := by simpa using h
    exact ⟨[.data (c :: bs)], rfl, by simp [ReadEvent.passes]⟩
  | case4 e es hi ih =>
    obtain ⟨used, hused, hpass⟩ := ih h
    refine ⟨.failed e :: used, by simpa using hused, ?_⟩
    exact List.forall_mem_cons.mpr ⟨by simp [ReadEvent.passes, hi], hpass⟩
  | case5 => simp at h

theorem precedes_of_pull {s rest : Source} {b : UInt8} (h : s.pull = .byte b rest) :
    Precedes s rest := by
  rcases s with ⟨chunk, events⟩
  cases chunk with
  | nil => exact precedes_of_refill h
  | cons c bs =>
    obtain ⟨rfl, rfl⟩ := by simpa [pull] using h
    exact ⟨[], rfl, by simp⟩

end Source

theorem Tokenizer.precedes_turn (t : Tokenizer) :
    t.source.Precedes t.turn.tokenizer.source := by
  have hturn := t.turnOf
  generalize t.turn = turn at hturn ⊢
  cases hturn with
  | byte hp hf hpull => exact Source.precedes_of_pull hpull
  | handed | spent | failed | ended => exact Source.precedes_refl _

theorem Tokenizer.precedes_next (t : Tokenizer) : t.source.Precedes t.next.2.source := by
  fun_induction Tokenizer.next t with
  | case1 t answer ha => exact t.precedes_turn
  | case2 t ha ih => exact t.precedes_turn.trans ih

/-- However often a tokenizer is called, the event that ends the input and all behind it stay. -/
theorem Tokenizer.precedes_after (t : Tokenizer) (n : ℕ) :
    t.source.Precedes (Calls.after Tokenizer.next n t).source := by
  induction n generalizing t with
  | zero => exact Source.precedes_refl _
  | succ n ih => exact t.precedes_next.trans (ih t.next.2)

/-- Sources whose events deliver the same bytes and end in the same way cannot be told apart. All
calls of a tokenizer give the same items and then nothing for ever, and stand at the same lines:
each item at the line behind the byte that completed it. A parser gives the same commands, and a run
has the same result, effect, events and calls of handlers. The event that ends the input and those
behind it are never taken, and without the latter the source is the same. -/
theorem equal_deliveries_indistinguishable {xs ys : List ReadEvent}
    (hbytes : delivered xs = delivered ys) (hend : terminalFailure xs = terminalFailure ys) :
    let x := Source.ofEvents xs
    let y := Source.ofEvents ys
    let placed := Grammar.placed (delivered xs) (terminalFailure xs)
    Calls.Yields Tokenizer.nextPlaced (.ofSource x) placed ∧
      Calls.Yields Tokenizer.nextPlaced (.ofSource y) placed ∧
      (∀ n, (Calls.after Tokenizer.next n (.ofSource x)).line =
        (Calls.after Tokenizer.next n (.ofSource y)).line) ∧
      (∃ items, Calls.Yields Parser.next (Parser.ofSource x) items ∧
        Calls.Yields Parser.next (Parser.ofSource y) items) ∧
      (∀ {σ : Type} (registry : Registry σ) (s : σ),
        registry.run x s = registry.run y s ∧
          registry.noted.run x (s, []) = registry.noted.run y (s, [])) ∧
      (∀ n, ∃ used, xs = used ++ (Calls.after Tokenizer.next n (.ofSource x)).source.events ∧
        ∀ e ∈ used, e.passes = true) ∧
      ∀ before last later, xs = before ++ last :: later → last.passes = false →
        Source.Alike x (.ofEvents (before ++ [last])) := by
  intro x y placed
  have halike : Source.Alike x y := Source.alike_ofEvents hbytes hend
  have hplaced : (Tokenizer.ofSource x).placed = placed := by
    rw [Tokenizer.placed_ofSource, Source.bytes_ofEvents, Source.failure_ofEvents]
  have htx := Tokenizer.yields_placed (.ofSource x)
  have hty := Tokenizer.yields_placed (.ofSource y)
  rw [← halike.placed, hplaced] at hty
  rw [hplaced] at htx
  have hpx := Parser.yields_items (Parser.ofSource x)
  have hpy := Parser.yields_items (Parser.ofSource y)
  rw [← halike.items] at hpy
  refine ⟨htx, hty, halike.line, ⟨_, hpx, hpy⟩, fun registry s => ?_,
    (Tokenizer.ofSource x).precedes_after, ?_⟩
  · exact ⟨halike.run registry s, halike.run registry.noted (s, [])⟩
  · intro before last later hxs hlast
    obtain ⟨hd, ht⟩ := ReadEvent.delivered_behind hlast before later
    rw [← hxs] at hd ht
    exact Source.alike_ofEvents hd ht

/-- Two deliveries of one script: the first in one chunk, the second cut between a backslash and its
byte and inside a word, with interruptions, and with more data behind the failure. -/
theorem equal_deliveries_indistinguishable_chunked :
    let broken : ReadEvent := .failed (.plain .connectionReset)
    let again : ReadEvent := .failed (.plain .interrupted)
    let xs : List ReadEvent := [.data [0x61, Lexer.backslash, Lexer.newline, 0x62, 0x63,
      Lexer.newline, 0x64], broken]
    let ys : List ReadEvent := [again, .data [0x61, Lexer.backslash], again, again,
      .data [Lexer.newline, 0x62], .data [0x63, Lexer.newline, 0x64], again, broken,
      .data [0x65, Lexer.newline], .data []]
    let placed : List Placed := [(.ok (.word [0x61, Lexer.newline, 0x62, 0x63] 1), 3),
      (.ok (.boundary 2), 3), (.error ⟨3, .io (.plain .connectionReset)⟩, 3)]
    delivered xs = delivered ys ∧ terminalFailure xs = terminalFailure ys ∧
      Calls.Yields Tokenizer.nextPlaced (.ofSource (.ofEvents xs)) placed ∧
      Calls.Yields Tokenizer.nextPlaced (.ofSource (.ofEvents ys)) placed ∧
      ∀ {σ : Type} (registry : Registry σ) (s : σ),
        registry.run (.ofEvents xs) s = registry.run (.ofEvents ys) s := by
  intro broken again xs ys placed
  have hbytes : delivered xs = delivered ys := by decide
  have hend : terminalFailure xs = terminalFailure ys := by decide
  obtain ⟨hx, hy, -, -, hrun, -, -⟩ := equal_deliveries_indistinguishable hbytes hend
  have hplaced : Grammar.placed (delivered xs) (terminalFailure xs) = placed := by decide
  rw [hplaced] at hx hy
  exact ⟨hbytes, hend, hx, hy, fun registry s => (hrun registry s).1⟩

end PageScript
