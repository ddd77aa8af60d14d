/-!
# TOML items

A document is a table. Tables remember how they came about, because that decides what may still be
added to them: a header opens a table once, a longer header implies the tables on its way, and
dotted keys make tables that only further dotted keys extend. Inline tables are closed.
-/
namespace PageScript.Toml

inductive Origin where
  | header
  | implied
  | dotted
  | inline
  deriving DecidableEq, Repr

/-- Numbers with a fraction and moments are kept as they were written. A series is what repeated
double-bracket headers make; its latest table is still open. -/
inductive Item where
  | text (s : String)
  | integer (n : Int)
  | float (written : String)
  | boolean (b : Bool)
  | moment (written : String)
  | list (items : List Item)
  | table (origin : Origin) (entries : List (String × Item))
  | series (earlier : List Item) (latest : List (String × Item))

abbrev Entries := List (String × Item)

namespace Entries

def put (key : String) (item : Item) : Entries → Entries
  | [] => [(key, item)]
  | (k, v) :: rest => if k = key then (key, item) :: rest else (k, v) :: put key item rest

/-- Changes the table at the end of a path; tables missing on the way are made with the origin
`fresh`. Dotted keys do not enter a table that a header opened. -/
def descend (fresh : Origin) (change : Origin → Entries → Option Entries) :
    List String → Origin → Entries → Option Entries
  | [], origin, entries => change origin entries
  | key :: path, _, entries =>
    match entries.lookup key with
    | none => do
      let child ← descend fresh change path fresh []
      some (put key (.table fresh child) entries)
    | some (.table origin child) =>
      if origin = .inline ∨ fresh = .dotted ∧ origin = .header then none
      else do
        let child ← descend fresh change path origin child
        some (put key (.table origin child) entries)
    | some (.series earlier latest) => do
      let latest ← descend fresh change path .header latest
      some (put key (.series earlier latest) entries)
    | some _ => none

/-- Adds an item under a new key. A key of one part goes into the table at hand, and a longer one
into a table that dotted keys made. -/
def assign (origin : Origin) (path : List String) (key : String) (item : Item)
    (entries : Entries) : Option Entries :=
  descend .dotted (fun place found =>
    if decide (place = .dotted) = path.isEmpty then none
    else if (found.lookup key).isSome then none
    else some (put key item found)) path origin entries

/-- Opens a table by its header, unless something other than a longer header made it. -/
def openTable (key : String) (entries : Entries) : Option Entries :=
  match entries.lookup key with
  | none => some (put key (.table .header []) entries)
  | some (.table .implied child) => some (put key (.table .header child) entries)
  | some _ => none

/-- Starts the next table of a series. -/
def openElement (key : String) (entries : Entries) : Option Entries :=
  match entries.lookup key with
  | none => some (put key (.series [] []) entries)
  | some (.series earlier latest) =>
    some (put key (.series (earlier ++ [.table .header latest]) []) entries)
  | some _ => none

end Entries

end PageScript.Toml
