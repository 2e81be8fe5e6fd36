import RecordQuery.Entries

/-!
Configuration values. A document is a table of keys, filled line by line: a header
opens a table, a header in double brackets appends one to a series of tables, and
every other line puts a value under a key of the table opened last.

How a table came to be decides what may be added to it later. No key is ever given
a second value and no table a second header.
-/

namespace RecordQuery

namespace Toml

/-- How a table came to be. -/
inductive Origin where
  /-- It has a header of its own. -/
  | header
  /-- A header below it mentions it. -/
  | implied
  /-- A key with dots mentions it. -/
  | dotted
  /-- It is written in braces. -/
  | inline
  deriving DecidableEq, Repr

end Toml

/-- A configuration value. -/
inductive Toml where
  | string (value : String)
  | integer (value : Int)
  | decimal (value : Float)
  | boolean (value : Bool)
  | array (items : List Toml)
  | table (origin : Toml.Origin) (entries : List (String × Toml))
  /-- Tables that were appended one by one. -/
  | tables (items : List (List (String × Toml)))

namespace Toml

abbrev Table := List (String × Toml)

/-- The entries with a value under a key with dots. Only tables that keys with dots
have made are entered. -/
def assign : List String → Toml → Table → Option Table
  | [], _, _ => none
  | [key], value, entries =>
    match Entries.get? key entries with
    | some _ => none
    | none => some (Entries.put key value entries)
  | key :: next :: rest, value, entries =>
    match Entries.get? key entries with
    | none => do
      let inner ← assign (next :: rest) value []
      return Entries.put key (.table .dotted inner) entries
    | some (.table .dotted inner) => do
      let inner ← assign (next :: rest) value inner
      return Entries.put key (.table .dotted inner) entries
    | some _ => none

def changeLast (edit : Table → Option Table) : List Table → Option (List Table)
  | [] => none
  | [last] => do return [← edit last]
  | first :: rest => do return first :: (← changeLast edit rest)

/-- The entries with the table at a path of keys changed. Missing tables are made; of
a series the last table is meant. -/
def change (edit : Table → Option Table) : List String → Table → Option Table
  | [], entries => edit entries
  | key :: rest, entries =>
    match Entries.get? key entries with
    | none => do
      let inner ← change edit rest []
      return Entries.put key (.table .implied inner) entries
    | some (.table .inline _) => none
    | some (.table origin inner) => do
      let inner ← change edit rest inner
      return Entries.put key (.table origin inner) entries
    | some (.tables items) => do
      let items ← changeLast (change edit rest) items
      return Entries.put key (.tables items) entries
    | some _ => none

/-- The entries with a table that has a header now. It may have been implied before. -/
def openTable (key : String) (entries : Table) : Option Table :=
  match Entries.get? key entries with
  | none => some (Entries.put key (.table .header []) entries)
  | some (.table .implied inner) => some (Entries.put key (.table .header inner) entries)
  | some _ => none

/-- The entries with one more table in a series. -/
def appendTable (key : String) (entries : Table) : Option Table :=
  match Entries.get? key entries with
  | none => some (Entries.put key (.tables [[]]) entries)
  | some (.tables items) => some (Entries.put key (.tables (items ++ [[]])) entries)
  | some _ => none

/-- What a line of a document says. -/
inductive Statement where
  | header (path : List String)
  | series (path : List String)
  | entry (path : List String) (value : Toml)

/-- A document as far as it was read, and the path of the table opened last. -/
structure Document where
  entries : Table
  opened : List String

namespace Document

def empty : Document :=
  ⟨[], []⟩

/-- The document after one more statement, unless it contradicts those before. -/
def add (document : Document) : Statement → Option Document
  | .header path => do
    let key ← path.getLast?
    return ⟨← change (openTable key) path.dropLast document.entries, path⟩
  | .series path => do
    let key ← path.getLast?
    return ⟨← change (appendTable key) path.dropLast document.entries, path⟩
  | .entry path value => do
    return ⟨← change (assign path value) document.opened document.entries, document.opened⟩

end Document

end Toml

end RecordQuery
