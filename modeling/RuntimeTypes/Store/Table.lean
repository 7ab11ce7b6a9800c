/-
A class table as a metadata store.

Reads come straight from the entries and change nothing.  A class that has been
removed, or never was, is unknown; a declared class has everything but an ancestry.
Removing a class needs a pause of the heap's gate; the other operations do not, as
they only add to what a reader may see.
-/
import RuntimeTypes.Store
import RuntimeTypes.ClassTable.History

namespace RuntimeTypes

namespace ClassTable

/-- The header word of an object that is neither locked nor hashed. -/
def unlockedHeader : UInt64 := 1

/-- A read of an entry. -/
def readObject {α : Type} (id : Identity) (f : ClassObject → Except HeapFailure α) :
    Read ClassTable α := fun t =>
  match t.objectAt id with
  | none => .error (.unknownIdentity id) t
  | some entry =>
    match f entry with
    | .ok a => .ok a t
    | .error e => .error e t

/-- The ancestry record of a loaded entry. -/
def ancestryOf (entry : ClassObject) : Except HeapFailure AncestryRecord :=
  match entry.body? with
  | some body => .ok body.ancestry
  | none => .error (.storeFailure (entry.name ++ " is not loaded"))

/-- The class that a name means to a loader, which has to exist. -/
def find (loader : Loader) (name : String) : Read ClassTable (Option Identity) := fun t =>
  match t.loaders.chain? loader with
  | some _ => .ok (t.lookup? loader name) t
  | none => .error (.storeFailure (TableRefusal.unknownLoader loader).message) t

instance : MetadataSource ClassTable where
  name id := readObject id fun e => .ok e.name
  loadStatus id := readObject id fun e => .ok e.loadStatus
  shape id := readObject id fun e => .ok e.shape
  layout id := readObject id fun e => .ok e.layout
  ancestry id := readObject id ancestryOf
  flags id := readObject id fun e => .ok e.flags
  prototypeHeader id := readObject id fun _ => .ok unlockedHeader
  loader id := readObject id fun e => .ok e.loader
  find? := find

end ClassTable

namespace Heap

/-- Remove a class under a pause. -/
def unload (h : Heap ClassTable) (id : Identity) :
    Except TableRefusal ClassTable.Reply × Heap ClassTable :=
  match h.gate.pause with
  | .error e => (.error (.heap e), h)
  | .ok gate =>
    let (reply, table) := ClassTable.Op.run h.store (.unload id)
    (reply, { gate := gate.resume, store := table })

/-- Perform an operation on the table of a heap. -/
def perform (h : Heap ClassTable) (op : ClassTable.Op) :
    Except TableRefusal ClassTable.Reply × Heap ClassTable :=
  match op with
  | .unload id => h.unload id
  | other =>
    let (reply, table) := other.run h.store
    (reply, { h with store := table })

end Heap

end RuntimeTypes
