/-
Options as TOML.

Options are written as one `key = value` line per setting that has a value.  They
are read from the table `oracle` of a document, or from the whole document if it has
no such table; settings that are not mentioned keep their standard value, and
mentions of anything else are passed over.  The section may also be an array, which
gives the settings in their order.

TOML holds numbers below `integerLimit` only, so options with a larger one have no
text.
-/
import RuntimeTypes.Options
import RuntimeTypes.Toml.Document

namespace RuntimeTypes

namespace Options

open Toml

/-! ### Writing -/

/-- One line of a document. -/
def lineText (key value : String) : String := key ++ " = " ++ value ++ "\n"

/-- The line of a number, if TOML holds it. -/
def numberLine? (key : String) : Option Nat → Option String
  | none => some ""
  | some n => if n < integerLimit then some (lineText key (Nat.repr n)) else none

/-- The line of a truth value. -/
def flagLine (key : String) (b : Bool) : String := lineText key (if b then "true" else "false")

/-- The options as a TOML document. -/
def toToml? (o : Options) : Option String := do
  let handles ← numberLine? "max_handles" o.handleLimit
  let timeout ← numberLine? "scope_timeout_ms" (o.waitMillis.map UInt64.toNat)
  some (handles ++ timeout ++ flagLine "dedup_unloaded" o.sharePlaceholders
    ++ flagLine "verify_hierarchy" o.verifyRecords)

/-! ### Reading -/

/-- A setting that may be missing: its value, or else the standard one. -/
def setting {α : Type} (standard : α) (read : Value → Option α) : Option Value → Option α
  | none => some standard
  | some v => read v

/-- A number that is not negative. -/
def natural? : Value → Option (Option Nat)
  | .integer n => if 0 ≤ n then some (some n.toNat) else none
  | _ => none

/-- A number of milliseconds. -/
def millis? (v : Value) : Option (Option UInt64) :=
  (natural? v).map fun n => n.map UInt64.ofNat

/-- A truth value. -/
def flag? : Value → Option Bool
  | .boolean b => some b
  | _ => none

/-- The options with the four settings. -/
def ofSettings? (handles timeout dedup verify : Option Value) : Option Options := do
  let handleLimit ← setting none natural? handles
  let waitMillis ← setting none millis? timeout
  let sharePlaceholders ← setting true flag? dedup
  let verifyRecords ← setting true flag? verify
  some
    { handleLimit := handleLimit
      waitMillis := waitMillis
      sharePlaceholders := sharePlaceholders
      verifyRecords := verifyRecords }

/-- The options in the entries of a table. -/
def ofEntries? (entries : Entries) : Option Options :=
  ofSettings? (entries.get? "max_handles") (entries.get? "scope_timeout_ms")
    (entries.get? "dedup_unloaded") (entries.get? "verify_hierarchy")

/-- The options in a list of settings, of which there are four at most. -/
def ofItems? (items : List Value) : Option Options :=
  if 4 < items.length then none else ofSettings? items[0]? items[1]? items[2]? items[3]?

/-- The options in a section of a document. -/
def ofSection? : Value → Option Options
  | .table _ entries => ofEntries? entries
  | .array items => ofItems? items
  | _ => none

/-- The options in a document. -/
def ofDocument? : Value → Option Options
  | .table _ entries =>
    match Entries.get? entries "oracle" with
    | some v => ofSection? v
    | none => ofEntries? entries
  | _ => none

/-- The options that a text holds. -/
def ofToml (text : String) : Except OptionsError Options :=
  match (parse? text).bind ofDocument? with
  | none => .error .malformed
  | some o => do
    o.check
    .ok o

end Options

/-- What there is where a file of options should be. -/
inductive OptionsFile
  /-- Nothing. -/
  | missing
  /-- A directory. -/
  | directory
  /-- A file with these bytes. -/
  | holding (bytes : List UInt8)
  deriving DecidableEq, Repr

/-- The options that a file holds. -/
def OptionsFile.read : OptionsFile → Except OptionsError Options
  | missing => .error (.unreadable .missing)
  | directory => .error (.unreadable .isDirectory)
  | holding bytes =>
    match String.fromUTF8? (ByteArray.mk bytes.toArray) with
    | none => .error (.unreadable .notText)
    | some text => Options.ofToml text

end RuntimeTypes
