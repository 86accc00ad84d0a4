/-
  Defining tables in TOML.

  The tables of a document are defined piece by piece: by headers, which name a
  table or add one to an array of tables, and by entries, whose keys may be
  dotted. A table says how it came about, because that decides what may still
  be added to it: a header may not define a table twice, and dotted keys may
  not add to a table that a header defined.
-/

import NaturalDeduction.Toml.Basic

namespace NaturalDeduction.Toml

/-- How a table came about: on the way to a table that a header names, on the way to an entry with
a dotted key, or by being defined itself. -/
inductive Origin where
  | implied
  | dotted
  | defined
  deriving DecidableEq, Repr

/-- What a key stands for while its document is read. -/
inductive Entry where
  | value (value : Toml)
  | table (origin : Origin) (entries : List (String × Entry))
  | tables (elements : List (List (String × Entry)))
  deriving Repr, Inhabited

/-- The entries of a table while its document is read. -/
abbrev Entries := List (String × Entry)

/-! ## Finished tables -/

mutual

/-- The value of an entry. -/
def Entry.finish : Entry → Toml
  | .value value => value
  | .table _ entries => .table (finishEntries entries)
  | .tables elements => .array (finishTables elements)

/-- The values of entries. -/
def finishEntries : List (String × Entry) → List (String × Toml)
  | [] => []
  | (key, entry) :: entries => (key, entry.finish) :: finishEntries entries

/-- The values of the tables of an array. -/
def finishTables : List (List (String × Entry)) → List Toml
  | [] => []
  | entries :: elements => .table (finishEntries entries) :: finishTables elements

end

/-! ## Changing entries -/

namespace Entries

/-- Changes what a key stands for; `change` is given nothing when the key is new. -/
def update? (key : String) (change : Option Entry → Option Entry) : Entries → Option Entries
  | [] => do return [(key, ← change none)]
  | (other, entry) :: entries =>
    if other = key then do return (other, ← change (some entry)) :: entries
    else do return (other, entry) :: (← update? key change entries)

/-- Changes the last element of a list. -/
def updateLast? {α : Type} (change : α → Option α) : List α → Option (List α)
  | [] => none
  | [a] => do return [← change a]
  | a :: as => do return a :: (← updateLast? change as)

/-- Changes the table at the end of a path; `change` is also told how that table came about. Tables
that are missing on the way come about as `missing`, and with `isDotted` the ones on the way must
not have been defined by themselves. An array of tables stands for its last one. -/
def along? (missing : Origin) (isDotted : Bool) (change : Origin → Entries → Option Entries) :
    List String → Origin → Entries → Option Entries
  | [], origin, entries => change origin entries
  | key :: path, _, entries => entries.update? key fun
    | none => do return .table missing (← along? missing isDotted change path missing [])
    | some (.value _) => none
    | some (.table origin entries) =>
      -- Dotted keys may go through tables of their own kind only, headers through all.
      if isDotted && origin = .defined then none
      else do return .table origin (← along? missing isDotted change path origin entries)
    | some (.tables elements) => do
      return .tables (← updateLast? (along? missing isDotted change path .defined) elements)

/-- Gives a key its value. The path to the key, which is empty for a plain key, must lead to a
table that came about by dotted keys. -/
def insert? (path : List String) (key : String) (value : Toml) (entries : Entries) :
    Option Entries :=
  entries.along? .dotted true (fun origin table =>
    if path.isEmpty || origin = .dotted then
      table.update? key fun
        | none => some (.value value)
        | some _ => none
    else none) path .defined

/-- Defines the table that a header names, which may have been implied before. -/
def define? (path : List String) (key : String) (entries : Entries) : Option Entries :=
  entries.along? .implied false (fun _ table => table.update? key fun
    | none => some (.table .defined [])
    | some (.table .implied entries) => some (.table .defined entries)
    | some _ => none) path .defined

/-- Adds a table to the array of tables that a header names. -/
def append? (path : List String) (key : String) (entries : Entries) : Option Entries :=
  entries.along? .implied false (fun _ table => table.update? key fun
    | none => some (.tables [[]])
    | some (.tables elements) => some (.tables (elements ++ [[]]))
    | some _ => none) path .defined

/-- Gives a key its value in the table that a header names, or in the whole document. -/
def insertUnder? (header path : List String) (key : String) (value : Toml) (entries : Entries) :
    Option Entries :=
  entries.along? .implied false (fun _ table => table.insert? path key value) header .defined

end Entries

end NaturalDeduction.Toml
