import PageScript.Proofs.Running

/-!
# Causality

The commands that a beginning of the input completes are dispatched in the same way whatever follows
it, and a failure among them ends the run. When the source fails behind the beginning, exactly these
commands were dispatched: the word and the command that were open there are lost.
-/
namespace PageScript
open Text (Bytes)
open Lexer (newline)

/-- The commands whose newline lies in a byte string. -/
def completed (d : Bytes) : List Command := commandsOf (Grammar.closed d)

namespace Source

theorem exists_tokens {d : Bytes} {z : Source} (h : d <+: z.bytes) :
    ∃ more, z.tokens = Grammar.closed d ++ more := by
  obtain ⟨rest, hz⟩ := h
  have hc : ∃ more, (Lexer.feedAll z.bytes .initial).2 = Grammar.closed d ++ more := by
    rw [← hz, Lexer.feedAll_append, Grammar.feedAll_eq_closed]
    exact ⟨_, rfl⟩
  obtain ⟨more, hm⟩ := hc
  cases hf : z.failure with
  | none =>
    refine ⟨more ++ (Lexer.feedAll z.bytes .initial).1.close, ?_⟩
    simp [tokens, hf, Grammar.tokens_eq_feedAll, hm]
  | some e => exact ⟨more, by simp [tokens, hf, ← hm, Grammar.feedAll_eq_closed]⟩

theorem exists_commands {d : Bytes} {z : Source} (h : d <+: z.bytes) :
    ∃ later, z.commands = completed d ++ later := by
  obtain ⟨more, hm⟩ := exists_tokens h
  rw [commands, hm]
  exact commandsOf_append _ _

theorem yields_of_failure {d : Bytes} {z : Source} {e : IoError} (hb : z.bytes = d)
    (hf : z.failure = some e) :
    z.commands = completed d ∧ z.fault = some ⟨1 + d.count newline, .io e⟩ ∧
      Calls.Yields Tokenizer.next (.ofSource z)
        ((Grammar.closed d).map .ok ++ [.error ⟨1 + d.count newline, .io e⟩]) ∧
      Calls.Yields Parser.next (.ofSource z)
        ((completed d).map .ok ++ [.error ⟨1 + d.count newline, .io e⟩]) := by
  have ht : z.tokens = Grammar.closed d := by simp [tokens, hf, hb]
  have hc : z.commands = completed d := by rw [commands, ht, completed]
  have he : z.fault = some ⟨1 + d.count newline, .io e⟩ := by
    simp [fault, hf, hb, Grammar.lineAt]
  have hty := Tokenizer.yields_items (.ofSource z)
  have hpy := Parser.yields_items (.ofSource z)
  rw [Tokenizer.items_ofSource_eq, ht, he] at hty
  rw [Parser.items_ofSource, hc, he] at hpy
  exact ⟨hc, he, hty, hpy⟩

end Source

namespace Registry

variable {σ : Type}

/-- A run over a source called the handlers of these commands, in this order, and no other. -/
structure Dispatches (r : Registry σ) (z : Source) (s : σ) (called : List Command) : Prop where
  calls : (r.noted.run z (s, [])).shared.2 = r.callsOf called s
  dispatched : (r.run z s).dispatched = called.map Command.summary
  shared : (r.run z s).shared = r.replay called s

theorem dispatches_sweep (r : Registry σ) (z : Source) (s : σ) :
    r.Dispatches z s (r.sweep (endResult z.fault) z.commands s).called := by
  obtain ⟨-, hs, hd⟩ := r.run_eq_sweep z s
  obtain ⟨-, hn⟩ := r.run_noted z s
  obtain ⟨later, -, hsh, -⟩ := r.sweep_stops (endResult z.fault) z.commands s
  refine ⟨?_, hd, hs.trans hsh⟩
  rw [hn]

variable {r : Registry σ} {d : Bytes} {z : Source} {s : σ} {called later : List Command}

/-- A failure among the commands that a beginning completes is that of the run. -/
theorem run_of_stops_error {e : LineError} (hf : completed d = called ++ later)
    (h : r.Stops (.ok ()) s called later (.error e)) (hz : d <+: z.bytes) :
    (r.run z s).result = .error e ∧ r.Dispatches z s called := by
  obtain ⟨more, hm⟩ := Source.exists_commands hz
  have hw := h.sweep_append (endResult z.fault) more
  rw [← hf, ← hm] at hw
  have hd := r.dispatches_sweep z s
  rw [hw] at hd
  refine ⟨?_, hd⟩
  rw [(r.run_eq_sweep z s).1, hw]

/-- When all of them are accepted, the run calls them first, and only them if the source fails
there. -/
theorem run_of_accepts (ha : r.Accepts (completed d) s) (hz : d <+: z.bytes) :
    ∃ more, r.Dispatches z s (completed d ++ more) ∧
      ∀ e, z.bytes = d → z.failure = some e →
        more = [] ∧ (r.run z s).result = .error ⟨1 + d.count newline, .io e⟩ := by
  obtain ⟨later, hl⟩ := Source.exists_commands hz
  have hw := r.sweep_of_accepts (endResult z.fault) ha later
  rw [← hl] at hw
  have hd := r.dispatches_sweep z s
  rw [hw] at hd
  refine ⟨_, hd, ?_⟩
  intro e hb hfail
  obtain ⟨hc, he, -, -⟩ := Source.yields_of_failure hb hfail
  obtain rfl : later = [] := by simpa [hc] using hl
  refine ⟨rfl, ?_⟩
  rw [(r.run_eq_sweep z s).1, hw, he]
  rfl

theorem Dispatches.begins {more : List Command} (h : r.Dispatches z s (called ++ more)) :
    r.callsOf called s <+: (r.noted.run z (s, [])).shared.2 ∧
      called.map Command.summary <+: (r.run z s).dispatched := by
  rw [h.calls, h.dispatched, callsOf_append, List.map_append]
  exact ⟨List.prefix_append _ _, List.prefix_append _ _⟩

/-- What a run does with the commands that `d` completes is settled by `d`: every source that
begins with `d` calls the same handlers on the same parameters and states first, and ends in the
same error if one of these commands fails. A source that fails behind `d` gives nothing that was
open there, and its run has called exactly the handlers of these commands when they succeed. -/
theorem run_causal (registry : Registry σ) (d : Bytes) (s : σ) :
    ∃ called later result, completed d = called ++ later ∧
      registry.Stops (.ok ()) s called later result ∧
      ∀ z : Source, d <+: z.bytes →
        registry.callsOf called s <+: (registry.noted.run z (s, [])).shared.2 ∧
        called.map Command.summary <+: (registry.run z s).dispatched ∧
        (∀ e, result = .error e →
          (registry.run z s).result = .error e ∧ registry.Dispatches z s called) ∧
        ∀ e, z.bytes = d → z.failure = some e →
          Calls.Yields Tokenizer.next (.ofSource z)
            ((Grammar.closed d).map .ok ++ [.error ⟨1 + d.count newline, .io e⟩]) ∧
          Calls.Yields Parser.next (.ofSource z)
            ((completed d).map .ok ++ [.error ⟨1 + d.count newline, .io e⟩]) ∧
          (result = .ok () →
            (registry.run z s).result = .error ⟨1 + d.count newline, .io e⟩ ∧
              registry.Dispatches z s (completed d)) := by
  have hsplit : ∃ called later result, completed d = called ++ later ∧
      registry.Stops (.ok ()) s called later result := by
    obtain ⟨later, hf, -, hstop⟩ := registry.sweep_stops (.ok ()) (completed d) s
    exact ⟨_, later, _, hf, hstop⟩
  obtain ⟨called, later, result, hf, hstop⟩ := hsplit
  refine ⟨called, later, result, hf, hstop, ?_⟩
  intro z hz
  cases result with
  | error e =>
    obtain ⟨hr, hd⟩ := run_of_stops_error hf hstop hz
    have hnil : registry.Dispatches z s (called ++ []) := by rwa [List.append_nil]
    obtain ⟨hcalls, hdisp⟩ := hnil.begins
    refine ⟨hcalls, hdisp, ?_, ?_⟩
    · intro e' he'
      cases he'
      exact ⟨hr, hd⟩
    · intro e' hb he
      obtain ⟨-, -, ht, hp⟩ := Source.yields_of_failure hb he
      exact ⟨ht, hp, by simp⟩
  | ok =>
    obtain ⟨rfl, ha⟩ := hstop.accepts
    rw [List.append_nil] at hf
    subst hf
    obtain ⟨more, hd, hio⟩ := run_of_accepts ha hz
    obtain ⟨hcalls, hdisp⟩ := hd.begins
    refine ⟨hcalls, hdisp, by simp, ?_⟩
    intro e hb he
    obtain ⟨-, -, ht, hp⟩ := Source.yields_of_failure hb he
    obtain ⟨rfl, hr⟩ := hio e hb he
    rw [List.append_nil] at hd
    exact ⟨ht, hp, fun _ => ⟨hr, hd⟩⟩

end Registry

end PageScript
