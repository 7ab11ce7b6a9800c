/-
Tables that stand for dates and times.

Beside its plain spelling, a date or time has one as a table: the first key is
`timeKey`, and a string under it holds the plain spelling.  What else is in such a
table does not count.  Without a date or time under the key the table stands for
nothing, and the document with it is none.  The key has no meaning where another
one comes before it.

Which key is a table's first is settled only at the end of the document, so
`Value.finish?` looks at the values of a whole document after they have been read.
Arrays of tables then become ordinary arrays, as a row of theirs need not be a table
any more.
-/
import RuntimeTypes.Toml.Value
import RuntimeTypes.Toml.Time

namespace RuntimeTypes

namespace Toml

/-- The key that makes a table stand for a date or time. -/
def timeKey : String := "$__toml_private_datetime"

/-- The date or time that a table stands for, by what is under its key. -/
def timeUnder? : Value → Option Value
  | .string text => if isDateTime text.toList then some (.time text) else none
  | _ => none

/-- What a table stands for; `finished?` is what its entries stand for. -/
def tableMeaning? (origin : Origin) (entries : Entries) (finished? : Option Entries) :
    Option Value :=
  match entries with
  | [] => finished?.map (.table origin)
  | (key, v) :: _ => if key = timeKey then timeUnder? v else finished?.map (.table origin)

mutual

/-- What a value of a document stands for. -/
def Value.finish? : Value → Option Value
  | .array items => (finishItems? items).map .array
  | .table origin entries => tableMeaning? origin entries (finishEntries? entries)
  | .rows tables => (finishRows? tables).map .array
  | v => some v

/-- What the items of an array stand for. -/
def finishItems? : List Value → Option (List Value)
  | [] => some []
  | v :: rest => do
    let v ← v.finish?
    let rest ← finishItems? rest
    some (v :: rest)

/-- What the entries of a table stand for. -/
def finishEntries? : List (String × Value) → Option (List (String × Value))
  | [] => some []
  | (key, v) :: rest => do
    let v ← v.finish?
    let rest ← finishEntries? rest
    some ((key, v) :: rest)

/-- What the rows of an array of tables stand for. -/
def finishRows? : List (List (String × Value)) → Option (List Value)
  | [] => some []
  | row :: rest => do
    let v ← tableMeaning? .header row (finishEntries? row)
    let rest ← finishRows? rest
    some (v :: rest)

end

end Toml

end RuntimeTypes
