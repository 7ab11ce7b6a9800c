/-
TOML documents.

A document is a list of statements, one a line: a pair, the header of a table, or
the header of a row of an array of tables.  `statements?` reads them, and `parse?`
applies one after the other to an empty table, the pairs to the table whose header
came last.  In the end every table is looked at once more, as it may stand for a
date or time; even the whole document may.

Values stand inside each other in arrays and inline tables, and `readValue` counts
how deep: what is nested too deep is not read.
-/
import RuntimeTypes.Toml.Scalar
import RuntimeTypes.Toml.TimeTable

namespace RuntimeTypes

namespace Toml

/-- Read an array behind its opening bracket, values with `value`; `fuel` bounds their number. -/
def readItemsIn (value : Reader Value) : (fuel : Nat) → Reader (List Value)
  | 0, _ => none
  | fuel + 1, cs => do
    match ← skipLines? cs with
    | ']' :: rest => some ([], rest)
    | cs => do
      let (v, cs) ← value cs
      match ← skipLines? cs with
      | ',' :: rest => do
        let (vs, rest) ← readItemsIn value fuel rest
        some (v :: vs, rest)
      | ']' :: rest => some ([v], rest)
      | _ => none

/-- Read a key, an equals sign and a value, without the blanks around them. -/
def readPair (value : Reader Value) : Reader (List String × Value) := fun cs => do
  let (path, cs) ← readKey cs
  let cs ← expect '=' cs
  let (v, cs) ← value (skipBlank cs)
  some ((path, v), skipBlank cs)

/-- Read an inline table from its first pair, values with `value`; `fuel` bounds their number. -/
def readPairsIn (value : Reader Value) : (fuel : Nat) → Reader (List (List String × Value))
  | 0, _ => none
  | fuel + 1, cs => do
    let (pair, cs) ← readPair value cs
    match cs with
    | ',' :: rest => do
      let (pairs, rest) ← readPairsIn value fuel rest
      some (pair :: pairs, rest)
    | '}' :: rest => some ([pair], rest)
    | _ => none

/-- Read an inline table behind its opening brace, values with `value`. -/
def readInlineTable (value : Reader Value) : Reader Value := fun cs =>
  match skipBlank cs with
  | '}' :: rest => some (.table .inline [], rest)
  | cs => do
    let (pairs, rest) ← readPairsIn value (cs.length + 1) cs
    let entries ← Entries.ofPairs pairs
    some (.table .inline entries, rest)

/-- Read a value; inside it, values may be nested `depth` deep. -/
def readValue : (depth : Nat) → Reader Value
  | 0, cs => readLeaf cs
  | depth + 1, cs =>
    match cs with
    | '[' :: rest => do
      let (items, rest) ← readItemsIn (readValue depth) (rest.length + 1) rest
      some (.array items, rest)
    | '{' :: rest => readInlineTable (readValue depth) rest
    | cs => readLeaf cs
where
  /-- Read a value that holds no others. -/
  readLeaf : Reader Value := fun cs =>
    match cs with
    | '"' :: _ => (readString cs).map fun r => (.string (String.ofList r.1), r.2)
    | '\'' :: _ => (readString cs).map fun r => (.string (String.ofList r.1), r.2)
    | cs => readScalar cs

/-- One line of a document. -/
inductive Statement
  /-- A key and its value. -/
  | pair (path : List String) (value : Value)
  /-- The header of a table. -/
  | table (path : List String)
  /-- The header of a row of an array of tables. -/
  | row (path : List String)

/-- Read a statement. -/
def readStatement : Reader Statement
  | '[' :: '[' :: rest => do
    let (path, cs) ← readKey rest
    let cs ← expect ']' cs
    let cs ← expect ']' cs
    some (.row path, cs)
  | '[' :: rest => do
    let (path, cs) ← readKey rest
    let cs ← expect ']' cs
    some (.table path, cs)
  | cs => do
    let ((path, v), cs) ← readPair (readValue (nestingLimit - 1)) cs
    some (.pair path v, cs)

/-- Read statements to the end of the text; `fuel` bounds the number of lines. -/
def statementsIn : (fuel : Nat) → List Char → Option (List Statement)
  | 0, _ => none
  | fuel + 1, cs =>
    match skipBlank cs with
    | [] => some []
    | c :: rest =>
      if c = '#' ∨ c = '\n' ∨ c = '\r' then
        (restOfLine? (c :: rest)).bind (statementsIn fuel)
      else do
        let (statement, rest) ← readStatement (c :: rest)
        let rest ← restOfLine? rest
        let statements ← statementsIn fuel rest
        some (statement :: statements)

/-- The statements of a document; a byte order mark in front of them does not count. -/
def statements? : List Char → Option (List Statement)
  | '\ufeff' :: rest => statementsIn (rest.length + 1) rest
  | cs => statementsIn (cs.length + 1) cs

/-- A document while it is read. -/
structure Draft where
  /-- All entries so far. -/
  entries : Entries := []
  /-- The path of the latest header. -/
  current : List String := []

namespace Draft

/-- The document after one more statement. -/
def add (d : Draft) : Statement → Option Draft
  | .pair path value =>
    (d.entries.edit false (fun origin entries => entries.insert path value origin) d.current
      .header).map
      fun entries => { d with entries := entries }
  | .table path => (d.entries.openTable path).map fun entries => ⟨entries, path⟩
  | .row path => (d.entries.openRow path).map fun entries => ⟨entries, path⟩

end Draft

/-- What a document stands for: a table, unless it is the table of a date or time. -/
def parse? (text : String) : Option Value := do
  let statements ← statements? text.toList
  let draft ← statements.foldlM Draft.add {}
  (Value.table .header draft.entries).finish?

end Toml

end RuntimeTypes
