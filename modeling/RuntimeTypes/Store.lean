/-
Metadata stores, and the heap they are part of.

A `MetadataSource` answers questions about class objects one at a time.  A read may
fail, and it may change the store: between two reads the program runs on, so the
next answer need not fit the last, and a store that says so is a state that moves
with every read.

A `Heap` is a store behind its gate.  Reads do not touch the gate.
-/
import RuntimeTypes.Access
import RuntimeTypes.Layout
import RuntimeTypes.Metadata
import RuntimeTypes.Gate.Basic

namespace RuntimeTypes

/-- One read of a store. -/
abbrev Read (σ α : Type) := EStateM HeapFailure σ α

/-- A source of class metadata. -/
class MetadataSource (σ : Type) where
  /-- The internal name. -/
  name : Identity → Read σ String
  /-- Whether the class has finished loading. -/
  loadStatus : Identity → Read σ LoadStatus
  /-- The shape. -/
  shape : Identity → Read σ ClassShape
  /-- The packed layout. -/
  layout : Identity → Read σ Layout
  /-- The ancestry record of a loaded class. -/
  ancestry : Identity → Read σ AncestryRecord
  /-- Access and modifier flags. -/
  flags : Identity → Read σ ClassAccess
  /-- The header word of new instances. -/
  prototypeHeader : Identity → Read σ UInt64
  /-- The defining loader. -/
  loader : Identity → Read σ Loader
  /-- The class that a name means to a loader. -/
  find? : Loader → String → Read σ (Option Identity)

/-- A store behind its gate. -/
structure Heap (σ : Type) where
  /-- The gate. -/
  gate : Gate := {}
  /-- The store. -/
  store : σ

namespace Heap

variable {σ α : Type}

/-- Read while inside the gate. -/
def read (h : Heap σ) (r : Read σ α) : Except HeapFailure α × Heap σ :=
  match r h.store with
  | .ok a store => (.ok a, { h with store := store })
  | .error e store => (.error e, { h with store := store })

/-- Open a scope for one piece of reading, and close it afterwards. -/
def inScope (h : Heap σ) (r : Read σ α) : Except HeapFailure α × Heap σ :=
  match h.gate.enter none with
  | .error e => (.error e, h)
  | .ok gate =>
    let (result, after) := { h with gate := gate }.read r
    (result, { after with gate := after.gate.leave })

end Heap

/-- A read that fails is an answer too. -/
def Read.outcome {σ α : Type} (r : Read σ α) : Read σ (Except HeapFailure α) := fun store =>
  match r store with
  | .ok a next => .ok (.ok a) next
  | .error e next => .ok (.error e) next

/-- Everything a store says about one class. -/
structure Readings where
  name : Except HeapFailure String
  loadStatus : Except HeapFailure LoadStatus
  shape : Except HeapFailure ClassShape
  layout : Except HeapFailure Layout
  ancestry : Except HeapFailure AncestryRecord
  flags : Except HeapFailure ClassAccess
  prototypeHeader : Except HeapFailure UInt64
  loader : Except HeapFailure Loader

/-- Read everything about one class. -/
def Readings.of {σ : Type} [MetadataSource σ] (id : Identity) : Read σ Readings := do
  let name ← Read.outcome (MetadataSource.name id)
  let loadStatus ← Read.outcome (MetadataSource.loadStatus id)
  let shape ← Read.outcome (MetadataSource.shape id)
  let layout ← Read.outcome (MetadataSource.layout id)
  let ancestry ← Read.outcome (MetadataSource.ancestry id)
  let flags ← Read.outcome (MetadataSource.flags id)
  let prototypeHeader ← Read.outcome (MetadataSource.prototypeHeader id)
  let loader ← Read.outcome (MetadataSource.loader id)
  pure
    { name := name
      loadStatus := loadStatus
      shape := shape
      layout := layout
      ancestry := ancestry
      flags := flags
      prototypeHeader := prototypeHeader
      loader := loader }

end RuntimeTypes
