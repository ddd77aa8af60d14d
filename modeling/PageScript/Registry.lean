import PageScript.LineError

/-!
# Registries

A registry maps command names to handlers, in the order of their names. A handler acts on a state
that all handlers share, and what it did before it fails stays done.
-/
namespace PageScript

abbrev Handler (σ : Type) := List String → ExceptT HandlerError (StateM σ) Unit

structure Registry (σ : Type) where
  entries : List (String × Handler σ)

namespace Handler

variable {σ : Type}

def call (handler : Handler σ) (params : List String) (s : σ) : Except HandlerError Unit × σ :=
  (handler params).run.run s

/-- Accepts anything and does nothing. -/
def nop : Handler σ := fun _ => pure ()

theorem call_nop (params : List String) (s : σ) : (nop : Handler σ).call params s = (.ok (), s) :=
  rfl

end Handler

namespace Registry

variable {σ : Type}

def insert (name : String) (handler : Handler σ) :
    List (String × Handler σ) → List (String × Handler σ)
  | [] => [(name, handler)]
  | (n, h) :: rest =>
    if name = n then (name, handler) :: rest
    else if name < n then (name, handler) :: (n, h) :: rest
    else (n, h) :: insert name handler rest

def empty : Registry σ := ⟨[]⟩

/-- The last registration of a name wins. -/
def register (r : Registry σ) (name : String) (handler : Handler σ) : Registry σ :=
  ⟨insert name handler r.entries⟩

def nopCommand : String := "nop"

def builtins : Registry σ := empty.register nopCommand .nop

def lookup (r : Registry σ) (name : String) : Option (Handler σ) :=
  r.entries.lookup name

def contains (r : Registry σ) (name : String) : Bool := (r.lookup name).isSome

def size (r : Registry σ) : Nat := r.entries.length

def isEmpty (r : Registry σ) : Bool := r.entries.isEmpty

def names (r : Registry σ) : List String := r.entries.map Prod.fst

def describe (r : Registry σ) : String :=
  "Registry \x7b commands: " ++ Text.Quoted.quoteList r.names ++ " \x7d"

theorem lookup_insert_self (name : String) (handler : Handler σ)
    (entries : List (String × Handler σ)) :
    (insert name handler entries).lookup name = some handler := by
  induction entries with
  | nil => simp [insert]
  | cons e rest ih =>
    obtain ⟨n, h⟩ := e
    rw [insert]
    split
    · simp
    · split
      · simp
      · rename_i hne _
        simp [List.lookup_cons, beq_eq_false_iff_ne.2 hne, ih]

theorem lookup_insert_of_ne {name other : String} (hne : other ≠ name) (handler : Handler σ)
    (entries : List (String × Handler σ)) :
    (insert name handler entries).lookup other = entries.lookup other := by
  induction entries with
  | nil => simp [insert, List.lookup_cons, beq_eq_false_iff_ne.2 hne]
  | cons e rest ih =>
    obtain ⟨n, h⟩ := e
    rw [insert]
    split
    · rename_i heq
      simp [List.lookup_cons, ← heq, beq_eq_false_iff_ne.2 hne]
    · split
      · simp [List.lookup_cons, beq_eq_false_iff_ne.2 hne]
      · simp [List.lookup_cons, ih]

theorem lookup_register (r : Registry σ) (name other : String) (handler : Handler σ) :
    (r.register name handler).lookup other =
      if other = name then some handler else r.lookup other := by
  split
  · rename_i heq
    simp [register, lookup, heq, lookup_insert_self]
  · rename_i hne
    simp [register, lookup, lookup_insert_of_ne hne]

end Registry

end PageScript
