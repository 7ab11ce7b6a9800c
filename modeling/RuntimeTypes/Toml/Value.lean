/-
TOML values, and tables that grow as a document is read.

A table remembers where it comes from, since that decides who may still add to it.
An inline table is closed.  A table with a header of its own takes pairs under that
header only.  A table that a longer header implies may get its own header later, and
one that a dotted key implies only further dotted keys.

`insert`, `openTable` and `openRow` are what a document does to its table of
entries: add a pair, begin a table, begin a row of an array of tables.  Each is
refused where it would define something twice.
-/

namespace RuntimeTypes

namespace Toml

/-- Where a table comes from. -/
inductive Origin
  /-- It is written between braces. -/
  | inline
  /-- It has a header. -/
  | header
  /-- The header of a table inside it implies it. -/
  | implied
  /-- A dotted key implies it. -/
  | dotted
  deriving DecidableEq, Repr

/-- A value. -/
inductive Value
  /-- A text. -/
  | string (text : String)
  /-- A whole number. -/
  | integer (n : Int)
  /-- A floating-point number, as it is written. -/
  | float (text : String)
  /-- A truth value. -/
  | boolean (b : Bool)
  /-- A date, a time, or both, as it is written. -/
  | time (text : String)
  /-- A list between brackets. -/
  | array (items : List Value)
  /-- A table. -/
  | table (origin : Origin) (entries : List (String × Value))
  /-- An array of tables, a header for each row. -/
  | rows (tables : List (List (String × Value)))

/-- What a table holds. -/
abbrev Entries := List (String × Value)

namespace Entries

/-- The value of a key. -/
def get? (entries : Entries) (key : String) : Option Value :=
  (entries.find? fun e => e.1 = key).map (·.2)

/-- The entries without a key. -/
def erase (entries : Entries) (key : String) : Entries :=
  entries.filter fun e => e.1 ≠ key

/-- The entries with another value for a key that has one. -/
def replace (entries : Entries) (key : String) (value : Value) : Entries :=
  entries.map fun e => if e.1 = key then (key, value) else e

/-- Change the table that a path leads to.  Tables missing on the way are made.  A path of dotted
keys does not lead into tables that have a header. -/
def edit (dotted : Bool) (change : Origin → Entries → Option Entries) :
    (path : List String) → Origin → Entries → Option Entries
  | [], origin, entries => change origin entries
  | key :: path, _, entries =>
    match entries.get? key with
    | none => do
      let origin := if dotted then Origin.dotted else Origin.implied
      let inner ← edit dotted change path origin []
      some (entries ++ [(key, .table origin inner)])
    | some (.table origin inner) =>
      if origin = .inline ∨ (dotted ∧ origin = .header) then
        none
      else do
        let inner ← edit dotted change path origin inner
        some (entries.replace key (.table origin inner))
    | some (.rows tables) =>
      match tables.getLast? with
      | none => none
      | some row => do
        let row ← edit dotted change path .header row
        some (entries.replace key (.rows (tables.dropLast ++ [row])))
    | some _ => none

/-- Add a pair to a table, unless it has the key.  A pair with a dotted key goes into a table that
dotted keys made, and a pair with a plain key does not. -/
def addPair (plain : Bool) (key : String) (value : Value) (origin : Origin) (entries : Entries) :
    Option Entries :=
  if (origin = .dotted) = plain then
    none
  else
    match entries.get? key with
    | some _ => none
    | none => some (entries ++ [(key, value)])

/-- Add a pair to a table: all but the last part of the key is a path, which starts there. -/
def insert (path : List String) (value : Value) (origin : Origin) (entries : Entries) :
    Option Entries :=
  match path.getLast? with
  | none => none
  | some key =>
    edit true (addPair path.dropLast.isEmpty key value) path.dropLast origin entries

/-- Give the table of a key a header.  The table stands where the latest header puts it, so one that
was implied before moves behind the others. -/
def addHeader (key : String) (_ : Origin) (entries : Entries) : Option Entries :=
  match entries.get? key with
  | none => some (entries ++ [(key, .table .header [])])
  | some (.table .implied inner) => some (entries.erase key ++ [(key, .table .header inner)])
  | some _ => none

/-- Begin the table at a path. -/
def openTable (path : List String) (entries : Entries) : Option Entries :=
  match path.getLast? with
  | none => none
  | some key => edit false (addHeader key) path.dropLast .header entries

/-- Give the array of tables of a key another row. -/
def addRow (key : String) (_ : Origin) (entries : Entries) : Option Entries :=
  match entries.get? key with
  | none => some (entries ++ [(key, .rows [[]])])
  | some (.rows tables) => some (entries.replace key (.rows (tables ++ [[]])))
  | some _ => none

/-- Begin a row of the array of tables at a path. -/
def openRow (path : List String) (entries : Entries) : Option Entries :=
  match path.getLast? with
  | none => none
  | some key => edit false (addRow key) path.dropLast .header entries

/-- The entries of an inline table. -/
def ofPairs (pairs : List (List String × Value)) : Option Entries :=
  pairs.foldlM (fun entries pair => entries.insert pair.1 pair.2 .inline) []

end Entries

end Toml

end RuntimeTypes
