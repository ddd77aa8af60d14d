import PageScript.Directive
import PageScript.Proofs.ByteOrder
import PageScript.Proofs.Running

/-!
# Histories of registrations

What a registry holds after any operations on a new one: under each name the handler that was
registered last, and its names in the order of their bytes. A history of operations is read as
single registrations in order, and each of them keeps `Records`. That a run calls no handler that
was replaced is said by handlers that mark their calls with the place of their registration.
-/
namespace PageScript

variable {σ : Type}

/-- The place of the last registration under a name, and the handler given there. -/
structure LastAt (entries : List (String × Handler σ)) (name : String) (place : ℕ)
    (handler : Handler σ) : Prop where
  here : entries[place]? = some (name, handler)
  last : ∀ later other, place < later → entries[later]? ≠ some (name, other)

namespace LastAt

variable {entries : List (String × Handler σ)} {name other : String} {place : ℕ}
  {handler : Handler σ}

theorem unique {place' : ℕ} {handler' : Handler σ} (h : LastAt entries name place handler)
    (h' : LastAt entries name place' handler') : handler = handler' := by
  rcases lt_trichotomy place place' with hlt | rfl | hlt
  · exact absurd h'.here (h.last _ _ hlt)
  · have hsame := h.here.symm.trans h'.here
    simp only [Option.some.injEq, Prod.mk.injEq, true_and] at hsame
    exact hsame
  · exact absurd h.here (h'.last _ _ hlt)

theorem concat_self (entries : List (String × Handler σ)) (name : String) (handler : Handler σ) :
    LastAt (entries ++ [(name, handler)]) name entries.length handler where
  here := by simp
  last later other hlt := by
    have hlen : (entries ++ [(name, handler)]).length ≤ later := by simpa using hlt
    rw [List.getElem?_eq_none hlen]
    exact (Option.some_ne_none _).symm

theorem concat_of_ne (hne : name ≠ other) (handler' : Handler σ) :
    LastAt (entries ++ [(other, handler')]) name place handler ↔
      LastAt entries name place handler := by
  -- under this name both lists have the same entries at the same places
  have hsame : ∀ (i : ℕ) (g : Handler σ), (entries ++ [(other, handler')])[i]? = some (name, g) ↔
      entries[i]? = some (name, g) := by
    intro i g
    rcases lt_trichotomy i entries.length with hi | rfl | hi
    · rw [List.getElem?_append_left hi]
    · simp [hne.symm]
    · have hlen : (entries ++ [(other, handler')]).length ≤ i := by simpa using hi
      rw [List.getElem?_eq_none hlen, List.getElem?_eq_none hi.le]
  constructor
  · intro h
    exact ⟨(hsame _ _).1 h.here, fun later g hlt hg => h.last later g hlt ((hsame _ _).2 hg)⟩
  · intro h
    exact ⟨(hsame _ _).2 h.here, fun later g hlt hg => h.last later g hlt ((hsame _ _).1 hg)⟩

end LastAt

namespace Registry

theorem mem_names_insert {name other : String} {handler : Handler σ}
    {entries : List (String × Handler σ)} :
    other ∈ (insert name handler entries).map Prod.fst ↔
      other = name ∨ other ∈ entries.map Prod.fst := by
  induction entries with
  | nil => simp [insert]
  | cons e rest ih =>
    obtain ⟨n, g⟩ := e
    rw [insert]
    split
    · rename_i heq
      simp [heq]
    · split
      · rw [List.map_cons, List.mem_cons]
      · rw [List.map_cons, List.mem_cons, ih, List.map_cons, List.mem_cons, or_left_comm]

/-- The insertion stops at the first name that is not smaller. -/
theorem pairwise_insert (name : String) (handler : Handler σ) {entries : List (String × Handler σ)}
    (h : (entries.map Prod.fst).Pairwise (· < ·)) :
    ((insert name handler entries).map Prod.fst).Pairwise (· < ·) := by
  induction entries with
  | nil => exact List.pairwise_singleton _ _
  | cons e rest ih =>
    obtain ⟨n, g⟩ := e
    obtain ⟨hfirst, hrest⟩ := List.pairwise_cons.1 h
    rw [insert]
    split
    · rename_i heq
      subst heq
      exact List.pairwise_cons.2 ⟨hfirst, hrest⟩
    · rename_i hne
      split
      · rename_i hlt
        refine List.pairwise_cons.2 ⟨fun m hm => ?_, h⟩
        rcases List.mem_cons.1 hm with rfl | hm
        · exact hlt
        · exact hlt.trans (hfirst m hm)
      · rename_i hnot
        refine List.pairwise_cons.2 ⟨fun m hm => ?_, ih hrest⟩
        rcases mem_names_insert.1 hm with rfl | hm
        · exact lt_of_le_of_ne (not_lt.1 hnot) (Ne.symm hne)
        · exact hfirst m hm

theorem contains_iff_mem_names (r : Registry σ) (name : String) :
    r.contains name = true ↔ name ∈ r.names := by
  rw [contains, Option.isSome_iff_ne_none, Ne, lookup, List.lookup_eq_none_iff]
  simp [names]

theorem mem_names_register (r : Registry σ) (name other : String) (handler : Handler σ) :
    other ∈ (r.register name handler).names ↔ other = name ∨ other ∈ r.names :=
  mem_names_insert

/-- The registry holds what these registrations made of an empty one. -/
structure Records (r : Registry σ) (entries : List (String × Handler σ)) : Prop where
  found : ∀ name handler, r.lookup name = some handler ↔ ∃ place, LastAt entries name place handler
  missing : ∀ name, r.lookup name = none ↔ name ∉ entries.map Prod.fst
  sorted : r.names.Pairwise (· < ·)

theorem records_empty : (empty : Registry σ).Records [] where
  found name handler := by
    refine ⟨fun h => by simp [empty, lookup] at h, ?_⟩
    rintro ⟨place, h⟩
    simpa using h.here
  missing name := by simp [empty, lookup]
  sorted := List.Pairwise.nil

theorem Records.register {r : Registry σ} {entries : List (String × Handler σ)}
    (h : r.Records entries) (name : String) (handler : Handler σ) :
    (r.register name handler).Records (entries ++ [(name, handler)]) where
  found other g := by
    have hself := LastAt.concat_self entries name handler
    rw [lookup_register]
    split
    · rename_i heq
      subst heq
      constructor
      · intro hg
        cases hg
        exact ⟨_, hself⟩
      · rintro ⟨place, hg⟩
        rw [hself.unique hg]
    · rename_i hne
      simp only [LastAt.concat_of_ne hne, h.found]
  missing other := by
    rw [lookup_register]
    split
    · rename_i heq
      simp [heq]
    · rename_i hne
      rw [h.missing]
      simp [hne]
  sorted := pairwise_insert name handler h.sorted

def registerAll (r : Registry σ) (entries : List (String × Handler σ)) : Registry σ :=
  entries.foldl (fun r e => r.register e.1 e.2) r

theorem registerAll_cons (r : Registry σ) (e : String × Handler σ)
    (entries : List (String × Handler σ)) :
    r.registerAll (e :: entries) = (r.register e.1 e.2).registerAll entries := rfl

theorem registerAll_append (r : Registry σ) (xs ys : List (String × Handler σ)) :
    r.registerAll (xs ++ ys) = (r.registerAll xs).registerAll ys :=
  List.foldl_append

theorem Records.registerAll {r : Registry σ} {entries : List (String × Handler σ)}
    (h : r.Records entries) (more : List (String × Handler σ)) :
    (r.registerAll more).Records (entries ++ more) := by
  induction more generalizing r entries with
  | nil => rwa [List.append_nil]
  | cons e more ih =>
    have hnext := ih (h.register e.1 e.2)
    rwa [List.append_assoc, List.singleton_append] at hnext

theorem mem_names_registerAll {r : Registry σ} {name : String} (h : name ∈ r.names)
    (entries : List (String × Handler σ)) : name ∈ (r.registerAll entries).names := by
  induction entries generalizing r with
  | nil => exact h
  | cons e entries ih => exact ih ((mem_names_register r e.1 name e.2).2 (.inr h))

theorem lookup_registerAll_of_notMem (r : Registry σ) {name : String}
    {entries : List (String × Handler σ)} (h : name ∉ entries.map Prod.fst) :
    (r.registerAll entries).lookup name = r.lookup name := by
  induction entries generalizing r with
  | nil => rfl
  | cons e entries ih =>
    rw [List.map_cons, List.mem_cons, not_or] at h
    rw [registerAll_cons, ih _ h.2, lookup_register, if_neg h.1]

end Registry

/-- An operation on a registry. -/
inductive Registration (σ : Type) where
  | register (name : String) (handler : Handler σ)
  | directives (focus : Focus σ Settings)

namespace Registration

def apply : Registration σ → Registry σ → Registry σ
  | register name handler, r => r.register name handler
  | directives focus, r => r.registerDirectives focus

/-- The single registrations that the operation makes, in order. -/
def entries : Registration σ → List (String × Handler σ)
  | register name handler => [(name, handler)]
  | directives focus => Directive.all.map fun d => (d.command, d.handler focus)

theorem apply_eq_registerAll (op : Registration σ) (r : Registry σ) :
    op.apply r = r.registerAll op.entries := by
  cases op with
  | register name handler => rfl
  | directives focus =>
    rw [apply, entries, Registry.registerAll, List.foldl_map]
    rfl

theorem mem_names_apply (op : Registration σ) {r : Registry σ} {name : String}
    (h : name ∈ r.names) : name ∈ (op.apply r).names := by
  rw [apply_eq_registerAll]
  exact Registry.mem_names_registerAll h _

theorem lookup_apply_of_notMem (op : Registration σ) (r : Registry σ) {name : String}
    (h : name ∉ op.entries.map Prod.fst) : (op.apply r).lookup name = r.lookup name := by
  rw [apply_eq_registerAll]
  exact r.lookup_registerAll_of_notMem h

end Registration

inductive Origin where
  | empty
  | builtins
  deriving DecidableEq, Repr

namespace Origin

def registry : Origin → Registry σ
  | empty => .empty
  | builtins => .builtins

def entries : Origin → List (String × Handler σ)
  | empty => []
  | builtins => [(Registry.nopCommand, .nop)]

theorem registry_eq_registerAll (o : Origin) :
    (o.registry : Registry σ) = Registry.empty.registerAll o.entries := by
  cases o <;> rfl

end Origin

structure History (σ : Type) where
  origin : Origin
  operations : List (Registration σ)

namespace History

def registry (h : History σ) : Registry σ :=
  h.operations.foldl (fun r op => op.apply r) h.origin.registry

/-- All registrations under a name, from first to last. -/
def registered (h : History σ) : List (String × Handler σ) :=
  h.origin.entries ++ h.operations.flatMap Registration.entries

theorem registry_eq_registerAll (h : History σ) :
    h.registry = Registry.empty.registerAll h.registered := by
  rw [registry, registered, Registry.registerAll_append, ← Origin.registry_eq_registerAll]
  generalize (h.origin.registry : Registry σ) = r
  induction h.operations generalizing r with
  | nil => rfl
  | cons op ops ih =>
    rw [List.foldl_cons, ih, List.flatMap_cons, Registry.registerAll_append,
      Registration.apply_eq_registerAll]

theorem records (h : History σ) : h.registry.Records h.registered := by
  rw [registry_eq_registerAll]
  exact Registry.records_empty.registerAll h.registered

end History

/-- A call with the place of the registration that gave its handler. -/
structure Mark where
  place : ℕ
  params : List String
  deriving DecidableEq, Repr

/-- The call is that of a command, and it went to the last registration under its name. -/
structure Mark.Answers (entries : List (String × Handler σ)) (c : Command) (m : Mark) : Prop where
  last : ∃ handler, LastAt entries c.name m.place handler
  params : m.params = c.params

namespace Handler

/-- The handler that marks each of its calls. -/
def marked (place : ℕ) (handler : Handler σ) : Handler (σ × List Mark) :=
  fun params => ExceptT.mk fun s =>
    let r := handler.call params s.1
    (r.1, (r.2, s.2 ++ [⟨place, params⟩]))

theorem call_marked (place : ℕ) (handler : Handler σ) (params : List String) (s : σ)
    (log : List Mark) :
    (handler.marked place).call params (s, log) =
      ((handler.call params s).1, ((handler.call params s).2, log ++ [⟨place, params⟩])) := rfl

end Handler

/-- The same registrations of handlers that mark their calls. -/
def marked (entries : List (String × Handler σ)) : List (String × Handler (σ × List Mark)) :=
  entries.mapIdx fun place e => (e.1, e.2.marked place)

theorem map_fst_marked (entries : List (String × Handler σ)) :
    (marked entries).map Prod.fst = entries.map Prod.fst := by
  apply List.ext_getElem?
  intro i
  simp [marked, Function.comp_def]

theorem LastAt.marked {entries : List (String × Handler σ)} {name : String} {place : ℕ}
    {handler : Handler σ} (h : LastAt entries name place handler) :
    LastAt (marked entries) name place (handler.marked place) where
  here := by simp [PageScript.marked, h.here]
  last later other hlt hother := by
    rw [PageScript.marked, List.getElem?_mapIdx, Option.map_eq_some_iff] at hother
    obtain ⟨⟨n, g⟩, hg, he⟩ := hother
    obtain ⟨rfl, -⟩ := Prod.mk.inj he
    exact h.last later g hlt hg

namespace Registry

variable {r : Registry σ} {m : Registry (σ × List Mark)} {entries : List (String × Handler σ)}

/-- Marking the calls changes nothing else, and the marks are those of the last registrations. -/
theorem sweep_marked (hr : r.Records entries) (hm : m.Records (marked entries))
    (ending : Except LineError Unit) (cs : List Command) (s : σ) (old : List Mark) :
    ∃ log, m.sweep ending cs (s, old) = ⟨(r.sweep ending cs s).called,
        (r.sweep ending cs s).result, ((r.sweep ending cs s).shared, old ++ log)⟩ ∧
      List.Forall₂ (Mark.Answers entries) (r.sweep ending cs s).called log := by
  induction cs generalizing s old with
  | nil => exact ⟨[], by simp [sweep], .nil⟩
  | cons c cs ih =>
    cases hl : r.lookup c.name with
    | none =>
      have hlm : m.lookup c.name = none := by
        rw [hm.missing, map_fst_marked, ← hr.missing]
        exact hl
      rw [sweep_unknown ending cs s hl, sweep_unknown ending cs (s, old) hlm]
      exact ⟨[], by simp, .nil⟩
    | some handler =>
      obtain ⟨place, hlast⟩ := (hr.found _ _).1 hl
      have hlm : m.lookup c.name = some (handler.marked place) :=
        (hm.found _ _).2 ⟨place, hlast.marked⟩
      have hanswer : Mark.Answers entries c ⟨place, c.params⟩ := ⟨⟨handler, hlast⟩, rfl⟩
      have hcm := handler.call_marked place c.params s old
      rcases hc : handler.call c.params s with ⟨result, t⟩
      rw [hc] at hcm
      cases result with
      | error e =>
        rw [sweep_refused ending cs hl hc, sweep_refused ending cs hlm hcm]
        exact ⟨[⟨place, c.params⟩], rfl, .cons hanswer .nil⟩
      | ok =>
        obtain ⟨log, hlog, hmarks⟩ := ih t (old ++ [⟨place, c.params⟩])
        rw [sweep_accepted ending cs hl hc, sweep_accepted ending cs hlm hcm, hlog]
        refine ⟨⟨place, c.params⟩ :: log, ?_, .cons hanswer hmarks⟩
        rw [List.append_assoc, List.singleton_append]

/-- A run and the same run with marked calls: both call the handlers of the same commands, and the
marks tell the last registrations. -/
theorem run_marked (hr : r.Records entries) (hm : m.Records (marked entries)) (source : Source)
    (s : σ) :
    ∃ called later, source.commands = called ++ later ∧
      r.Stops (endResult source.fault) s called later (r.run source s).result ∧
      (m.run source (s, [])).result = (r.run source s).result ∧
      (m.run source (s, [])).shared.1 = (r.run source s).shared ∧
      List.Forall₂ (Mark.Answers entries) called (m.run source (s, [])).shared.2 := by
  obtain ⟨hresult, hshared, -⟩ := r.run_eq_sweep source s
  obtain ⟨hmresult, hmshared, -⟩ := m.run_eq_sweep source (s, [])
  obtain ⟨later, hcommands, -, hstops⟩ :=
    r.sweep_stops (endResult source.fault) source.commands s
  obtain ⟨log, hlog, hmarks⟩ := sweep_marked hr hm (endResult source.fault) source.commands s []
  rw [hlog] at hmresult hmshared
  refine ⟨_, later, hcommands, ?_, ?_, ?_, ?_⟩
  · rw [hresult]
    exact hstops
  · rw [hmresult, hresult]
  · rw [hmshared, hshared]
  · rw [hmshared]
    exact hmarks

end Registry

/-- After any history a registry answers by the last registration of each name, shows its names once
and in the order of their bytes, and loses nothing to further operations. A run calls the handlers
of the commands of its source in order, up to the first failure. If the same registrations are made
with handlers that mark their calls, it does the same, and each call is marked with the place of
the last registration under the name of its command. -/
theorem History.last_registration_wins (h : History σ) :
    let r := h.registry
    r = Registry.empty.registerAll h.registered ∧
    (∀ name handler, r.lookup name = some handler ↔
      ∃ place, LastAt h.registered name place handler) ∧
    (∀ name, r.lookup name = none ↔ name ∉ h.registered.map Prod.fst) ∧
    (∀ name, (r.contains name = true ↔ (r.lookup name).isSome = true) ∧
      (r.contains name = true ↔ name ∈ r.names)) ∧
    r.names.Pairwise (fun a b => Text.Utf8.encode a < Text.Utf8.encode b) ∧ r.names.Nodup ∧
    r.size = r.names.length ∧ (r.isEmpty = true ↔ r.names = []) ∧
    (∀ op : Registration σ, (∀ name ∈ r.names, name ∈ (op.apply r).names) ∧
      ∀ name, name ∉ op.entries.map Prod.fst → (op.apply r).lookup name = r.lookup name) ∧
    ∀ source s, ∃ called later, source.commands = called ++ later ∧
      r.Stops (endResult source.fault) s called later (r.run source s).result ∧
      let marks := (Registry.empty.registerAll (marked h.registered)).run source (s, [])
      marks.result = (r.run source s).result ∧ marks.shared.1 = (r.run source s).shared ∧
        List.Forall₂ (Mark.Answers h.registered) called marks.shared.2 := by
  intro r
  have hr : r.Records h.registered := h.records
  have hm : (Registry.empty.registerAll (marked h.registered)).Records (marked h.registered) :=
    Registry.records_empty.registerAll _
  have hsize : r.size = r.names.length := by simp [Registry.size, Registry.names]
  have hempty : r.isEmpty = true ↔ r.names = [] := by simp [Registry.isEmpty, Registry.names]
  refine ⟨h.registry_eq_registerAll, hr.found, hr.missing,
    fun name => ⟨Iff.rfl, r.contains_iff_mem_names name⟩,
    hr.sorted.imp Text.Utf8.encode_lt_encode, hr.sorted.imp ne_of_lt, hsize, hempty, ?_, ?_⟩
  · intro op
    exact ⟨fun name hname => op.mem_names_apply hname,
      fun name hname => op.lookup_apply_of_notMem r hname⟩
  · intro source s
    exact Registry.run_marked hr hm source s

example : (History.mk .builtins
    [.register "é" .nop, .register "link" .nop, .directives .whole, .register "nop" .nop,
      .register "Z" .nop]).registry.names =
    ["Z", "background-maxdim", "background-savepath", "image-subreddit", "link", "nop",
      "weather-coords", "é"] := by
  decide

end PageScript
