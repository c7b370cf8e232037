import BlockingStream.Toml.Value

/-!
This module contains the growing of TOML tables: which additions a table takes, and where an addition
goes. Entries keep the order in which they were added.
-/

namespace BlockingStream.Toml

abbrev Entries := List (String × Value)

namespace Entries

def replace (key : String) (v : Value) (entries : Entries) : Entries :=
  entries.map fun entry => if entry.1 = key then (key, v) else entry

def erase (key : String) (entries : Entries) : Entries := entries.filter (·.1 ≠ key)

/--
How the tables on the way to an addition are found.
-/
inductive Way where
  /-- Along a header. Missing tables are implied, and all tables can be passed. -/
  | byHeader
  /-- Along a dotted key. Tables with a header of their own are closed to it. -/
  | byKey
  | byInlineKey
  deriving DecidableEq, Repr

def Way.creates : Way → Origin
  | byHeader => .implied
  | byKey | byInlineKey => .dotted

def Way.passes : Way → Origin → Bool
  | byHeader, origin => origin != .inline
  | byKey, origin => origin = .implied || origin = .dotted
  | byInlineKey, origin => origin = .dotted

/--
Goes to the table at a path and changes its entries there, given its origin. A growing array stands for its
last table.
-/
def alter (way : Way) (f : Origin → Entries → Option Entries) :
    (path : List String) → (origin : Origin) → Entries → Option Entries
  | [], origin, entries => f origin entries
  | key :: path, _, entries =>
    match entries.lookup key with
    | none => do
      let inner ← alter way f path way.creates []
      some (entries ++ [(key, .table way.creates inner)])
    | some (.table origin inner) => do
      if way.passes origin then
        some (entries.replace key (.table origin (← alter way f path origin inner)))
      else none
    | some (.array true items) =>
      match items.getLast? with
      | some (.table origin inner) => do
        let last ← alter way f path origin inner
        some (entries.replace key (.array true (items.dropLast ++ [.table origin last])))
      | _ => none
    | some _ => none

def add (dottedKey : Bool) (key : String) (v : Value) (origin : Origin) (entries : Entries) :
    Option Entries :=
  -- a key of several parts ends in a table that such keys have made, and a key of one part does not
  if (origin == .dotted) != dottedKey || (entries.lookup key).isSome then none
  else some (entries ++ [(key, v)])

def addPair (way : Way) (key : List String) (v : Value) (origin : Origin) (entries : Entries) :
    Option Entries :=
  match key.getLast? with
  | some last =>
    let path := key.dropLast
    -- what the path meets first is the table itself
    if path.isEmpty then add false last v origin entries
    else alter way (add true last v) path origin entries
  | none => none

def openTable (key : String) (entries : Entries) : Option Entries :=
  -- a table that was implied before comes last now
  match entries.lookup key with
  | none => some (entries ++ [(key, .table .header [])])
  | some (.table .implied inner) => some (entries.erase key ++ [(key, .table .header inner)])
  | some _ => none

def openItem (key : String) (entries : Entries) : Option Entries :=
  match entries.lookup key with
  | none => some (entries ++ [(key, .array true [.table .header []])])
  | some (.array true items) =>
    some (entries.replace key (.array true (items ++ [.table .header []])))
  | some _ => none

end Entries

end BlockingStream.Toml
