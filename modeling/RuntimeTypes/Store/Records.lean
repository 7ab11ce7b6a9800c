/-
A store of free-form records.

A `RecordStore` holds whatever it is told about each class, in whole or in part,
consistent or not, and gives it back as it is.  What it has not been told it cannot
read.  Names are found through a list of its own, of which the first entry that
matches counts.
-/
import RuntimeTypes.Store
import RuntimeTypes.Index

namespace RuntimeTypes

/-- What a record store has been told about one class. -/
structure ClassRecord where
  name? : Option String := none
  loadStatus? : Option LoadStatus := none
  shape? : Option ClassShape := none
  layout? : Option Layout := none
  supertypes? : Option AncestryRecord := none
  flags? : Option ClassAccess := none
  prototypeHeader? : Option UInt64 := none
  loader? : Option Loader := none
  deriving Repr

/-- A full record of a loaded class that is said to stand below `chain`, with as many slots as there
can be. -/
def ClassRecord.below (name : String) (shape : ClassShape) (chain : List Identity) : ClassRecord where
  name? := some name
  loadStatus? := some .loaded
  shape? := some shape
  layout? := some .neutral
  supertypes? := some (.place ⟨Display.maxCapacity, by decide, Nat.le_refl _⟩ (shape ≠ .interface)
    chain [])
  flags? := some ⟨0, 0⟩
  prototypeHeader? := some 1
  loader? := some Loader.bootstrap

/-- A record of a class that is not loaded. -/
def ClassRecord.unloaded (name : String) : ClassRecord where
  name? := some name
  loadStatus? := some .unloaded

/-- What a loader means by a name; a broken entry has no class. -/
structure LookupEntry where
  loader : Loader
  name : String
  class? : Option Identity
  deriving Repr

/-- A store of free-form records. -/
structure RecordStore where
  /-- The records. -/
  classes : Index Identity ClassRecord := {}
  /-- What loaders mean by names. -/
  lookups : List LookupEntry := []
  deriving Repr

namespace RecordStore

/-- Read the part of a record that is called `what`. -/
def field {α : Type} (what : String) (f : ClassRecord → Option α) (id : Identity) :
    Read RecordStore α := fun store =>
  match store.classes.get? id with
  | none => .error (.unknownIdentity id) store
  | some record =>
    match f record with
    | none => .error (.storeFailure ("no " ++ what ++ " for " ++ id.text)) store
    | some a => .ok a store

/-- The class that a name means to a loader. -/
def find (loader : Loader) (name : String) : Read RecordStore (Option Identity) := fun store =>
  match store.lookups.find? fun entry => entry.loader = loader ∧ entry.name = name with
  | none => .ok none store
  | some entry =>
    match entry.class? with
    | some id => .ok (some id) store
    | none => .error (.storeFailure ("lookup of " ++ name)) store

instance : MetadataSource RecordStore where
  name := field "name" (·.name?)
  loadStatus := field "loaded" (·.loadStatus?)
  shape := field "kind" (·.shape?)
  layout := field "layout" (·.layout?)
  ancestry := field "hierarchy" (·.supertypes?)
  flags := field "flags" (·.flags?)
  prototypeHeader := field "header" (·.prototypeHeader?)
  loader := field "loader" (·.loader?)
  find? := find

/-- The store with a new record of a class. -/
def setClass (store : RecordStore) (id : Identity) (record : ClassRecord) : RecordStore :=
  { store with classes := store.classes.insert id record }

/-- A store of some records. -/
def ofList (records : List (Identity × ClassRecord)) : RecordStore :=
  records.foldl (fun store entry => store.setClass entry.1 entry.2) {}

/-- The store without a class, and whether it held the class. -/
def dropClass (store : RecordStore) (id : Identity) : Bool × RecordStore :=
  ((store.classes.get? id).isSome, { store with classes := store.classes.erase id })

end RecordStore

end RuntimeTypes
