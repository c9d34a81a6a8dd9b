import Formulary.Toml.Basic

/-!
# Outlines of TOML documents

While a document is read, tables are still open: headers and dotted keys add to
them, each in its own way.  A table can be declared by one header only.  A table
that a header or a dotted key implies can be added to by dotted keys, and one that
only a header implies can be declared later.  Values and inline tables are closed.

Main definitions:

- `Outline.insert`: adds the value of a dotted key.
- `Outline.declare` and `Outline.append`: follow a header.
- `Outline.toml`: the finished document.
-/

namespace Formulary
namespace Toml

/-- How a table came to be. -/
inductive Origin where
  /-- A header names a table inside it. -/
  | implied
  /-- A dotted key leads through it. -/
  | dotted
  /-- A header names it. -/
  | declared
  deriving DecidableEq

/-- A part of a document that is being read. -/
inductive Outline where
  | closed (value : Toml)
  | table (origin : Origin) (entries : List (String × Outline))
  /-- A list of tables that headers add to. -/
  | tables (elements : List (List (String × Outline)))

namespace Outline

/-- The entries of a table that is being read. -/
abbrev Entries := List (String × Outline)

/-- Applies a change to the last table of a list. -/
def inLast (change : Entries → Option Entries) :
    List Entries → Option (List Entries)
  | [] => none
  | [last] => (change last).map fun entries => [entries]
  | first :: rest => (inLast change rest).map fun rest => first :: rest

/-- Adds the value of a dotted key. -/
def insert (value : Toml) : List String → Entries → Option Entries
  | [], _ => none
  | [key], entries =>
      match findEntry key entries with
      | none => some (entries ++ [(key, closed value)])
      | some _ => none
  | key :: path, entries =>
      match findEntry key entries with
      | none => do
          let inner ← insert value path []
          some (entries ++ [(key, table .dotted inner)])
      | some (table .declared _) => none
      | some (table origin inner) => do
          let inner ← insert value path inner
          some (putEntry key (table origin inner) entries)
      | some _ => none

/-- Applies a change to the table at a path of headers. -/
def change (step : Entries → Option Entries) : List String → Entries → Option Entries
  | [], entries => step entries
  | key :: path, entries =>
      match findEntry key entries with
      | none => do
          let inner ← change step path []
          some (entries ++ [(key, table .implied inner)])
      | some (table origin inner) => do
          let inner ← change step path inner
          some (putEntry key (table origin inner) entries)
      | some (tables elements) => do
          let elements ← inLast (change step path) elements
          some (putEntry key (tables elements) entries)
      | some (closed _) => none

/-- Declares a table by its last key. -/
def declareKey (key : String) (entries : Entries) : Option Entries :=
  match findEntry key entries with
  | none => some (entries ++ [(key, table .declared [])])
  | some (table .implied inner) => some (putEntry key (table .declared inner) entries)
  | some _ => none

/-- Adds a table to a list of tables by its last key. -/
def appendKey (key : String) (entries : Entries) : Option Entries :=
  match findEntry key entries with
  | none => some (entries ++ [(key, tables [[]])])
  | some (tables elements) => some (putEntry key (tables (elements ++ [[]])) entries)
  | some _ => none

/-- Follows the header of a table. -/
def declare (path : List String) (entries : Entries) : Option Entries :=
  match path.getLast? with
  | some key => change (declareKey key) path.dropLast entries
  | none => none

/-- Follows the header of an element of a list of tables. -/
def append (path : List String) (entries : Entries) : Option Entries :=
  match path.getLast? with
  | some key => change (appendKey key) path.dropLast entries
  | none => none

mutual

/-- The finished part. -/
def toml : Outline → Toml
  | closed value => value
  | table _ entries => .table (tomlEntries entries)
  | tables elements => .list (tomlTables elements)

/-- The finished entries of a table. -/
def tomlEntries : List (String × Outline) → List (String × Toml)
  | [] => []
  | (key, part) :: entries => (key, toml part) :: tomlEntries entries

/-- The finished tables of a list. -/
def tomlTables : List (List (String × Outline)) → List Toml
  | [] => []
  | entries :: rest => .table (tomlEntries entries) :: tomlTables rest

end

end Outline
end Toml
end Formulary
