/-
The class table: every class object of a running program.

Entries stand in creation order, so the position of an entry is its identity, and
an entry that is removed leaves a hole that is never filled again.  An index leads
from a loader and a name to the entry that the loader defines under this name.

An entry starts out either loaded, with a body, or declared, with nothing but its
name and loader.  A declared class is shaped like an array if its name is spelled
like one, has no flags, no ancestry and a neutral layout.
-/
import RuntimeTypes.Access
import RuntimeTypes.Layout
import RuntimeTypes.Metadata
import RuntimeTypes.ExternalName
import RuntimeTypes.Index
import RuntimeTypes.ClassTable.Refusal
import RuntimeTypes.ClassTable.Loaders

namespace RuntimeTypes

/-- What loading gives a class. -/
structure ClassBody where
  /-- Class, interface or array. -/
  shape : ClassShape
  /-- Access and modifier flags. -/
  flags : ClassAccess
  /-- How objects of the class are laid out. -/
  layout : Layout
  /-- The supertypes. -/
  ancestry : AncestryRecord
  deriving DecidableEq, Repr

/-- One class object. -/
structure ClassObject where
  /-- The internal name. -/
  name : String
  /-- The defining loader. -/
  loader : Loader
  /-- What loading gave the class; a declared class has none of it. -/
  body? : Option ClassBody
  deriving DecidableEq, Repr

namespace ClassObject

/-- Whether the class has finished loading. -/
def loadStatus (e : ClassObject) : LoadStatus :=
  match e.body? with
  | some _ => .loaded
  | none => .unloaded

/-- The shape, which a declared class only has by its name. -/
def shape (e : ClassObject) : ClassShape :=
  match e.body? with
  | some body => body.shape
  | none => if isArrayName e.name then .array .object else .instanceClass

/-- The flags. -/
def flags (e : ClassObject) : ClassAccess :=
  match e.body? with
  | some body => body.flags
  | none => {}

/-- The layout. -/
def layout (e : ClassObject) : Layout :=
  match e.body? with
  | some body => body.layout
  | none => .neutral

end ClassObject

/-- The classes of a running program. -/
structure ClassTable where
  /-- Number of display slots. -/
  capacity : Display.Capacity
  /-- The entries in creation order; removed ones leave a hole. -/
  entries : Array (Option ClassObject)
  /-- Defining loader and name lead to the entry. -/
  names : Index (Loader × String) Identity
  /-- The loaders. -/
  loaders : LoaderTree
  deriving Repr

namespace ClassTable

/-- The root class comes first. -/
def root : Identity := Identity.ofIndex 0

/-- The root class as a table starts out with it. -/
def rootObject (name : String) (capacity : Display.Capacity) : ClassObject :=
  { name := name
    loader := Loader.bootstrap
    body? := some
      { shape := .instanceClass
        flags := ⟨Access.isPublic ||| Access.isSuper, Access.isPublic⟩
        layout := Layout.ofInstance 16
        ancestry := AncestryRecord.place capacity true [] [] } }

/-- The table with nothing but a root class. -/
def create (rootName : String) (capacity : Display.Capacity) : ClassTable :=
  { capacity := capacity
    entries := #[some (rootObject rootName capacity)]
    names := Index.empty.insert (Loader.bootstrap, rootName) root
    loaders := {} }

/-- The table with nothing but a root class, with this number of display slots. -/
def createWith (rootName : String) (slots : Nat) : Except TableRefusal ClassTable :=
  match Display.Capacity.ofNat? slots with
  | some capacity => .ok (create rootName capacity)
  | none => .error (.badCapacity slots)

/-- Number of entries that have not been removed. -/
def liveCount (t : ClassTable) : Nat := t.entries.countP (·.isSome)

/-- Whether there is nothing but the root. -/
def isEmpty (t : ClassTable) : Bool := decide (t.liveCount ≤ 1)

/-- The entry of an identity, unless it has been removed. -/
def objectAt (t : ClassTable) (id : Identity) : Option ClassObject :=
  (t.entries[id.index]?).join

/-- The entry and the body of a class that the operation at hand needs loaded. -/
def loaded (t : ClassTable) (id : Identity) : Except TableRefusal (ClassObject × ClassBody) :=
  match t.objectAt id with
  | none => .error (.unknownClass id)
  | some entry =>
    match entry.body? with
    | none => .error (.notLoaded entry.name)
    | some body => .ok (entry, body)

/-- The identity of the next entry. -/
def freshId (t : ClassTable) : Identity := Identity.ofIndex t.entries.size

/-- The table with a further entry. -/
def add (t : ClassTable) (entry : ClassObject) : ClassTable :=
  { t with
    entries := t.entries.push (some entry)
    names := t.names.insert (entry.loader, entry.name) t.freshId }

theorem objectAt_add (t : ClassTable) (entry : ClassObject) (id : Identity) :
    (t.add entry).objectAt id = if id = t.freshId then some entry else t.objectAt id := by
  unfold objectAt add freshId
  by_cases h : id = Identity.ofIndex t.entries.size
  · simp [h]
  · have hne : id.index ≠ t.entries.size := fun e => h (by rw [← e, Identity.ofIndex_index])
    simp [h, Array.getElem?_push, hne]

/-- The name of an added entry leads to it, and the other names lead where they did. -/
theorem get?_names_add (t : ClassTable) (entry : ClassObject) (key : Loader × String) :
    (t.add entry).names.get? key
      = if (entry.loader, entry.name) = key then some t.freshId else t.names.get? key :=
  Index.get?_insert ..

/-- A class is loaded if it has an entry with a body. -/
theorem loaded_eq_ok_iff {t : ClassTable} {id : Identity} {entry : ClassObject} {body : ClassBody} :
    t.loaded id = .ok (entry, body) ↔ t.objectAt id = some entry ∧ entry.body? = some body := by
  unfold loaded
  split <;> rename_i h
  · simp [h]
  · split <;> rename_i hb <;> simp [h] <;> grind

/-- The class that a name means to a loader.  The loader asks its parent first, so of several
loaders that define the name the one closest to the bootstrap loader wins. -/
def lookup? (t : ClassTable) (loader : Loader) (name : String) : Option Identity :=
  match t.loaders.chain? loader with
  | none => none
  | some chain => chain.reverse.findSome? fun l => t.names.get? (l, name)

/-- Refuse a loader that does not exist. -/
def requireLoader (t : ClassTable) (loader : Loader) : Except TableRefusal Unit :=
  if t.loaders.contains loader then .ok () else .error (.unknownLoader loader)

/-- Refuse a name that the loader has defined. -/
def requireUnused (t : ClassTable) (loader : Loader) (name : String) : Except TableRefusal Unit :=
  match t.names.get? (loader, name) with
  | some _ => .error (.duplicate name loader)
  | none => .ok ()

/-- A list followed by the identities of another that it does not hold yet, each once. -/
def appendNew (ids more : List Identity) : List Identity :=
  more.foldl (fun ids id => if ids.contains id then ids else ids ++ [id]) ids

theorem mem_appendNew {ids more : List Identity} {id : Identity} :
    id ∈ appendNew ids more ↔ id ∈ ids ∨ id ∈ more := by
  unfold appendNew
  induction more generalizing ids with
  | nil => simp
  | cons x rest ih =>
    rw [List.foldl_cons, ih]
    split <;> rename_i hx
    · have : x ∈ ids := by simpa using hx
      grind
    · grind

theorem nodup_appendNew {ids : List Identity} (more : List Identity) (h : ids.Nodup) :
    (appendNew ids more).Nodup := by
  unfold appendNew
  induction more generalizing ids with
  | nil => exact h
  | cons x rest ih =>
    rw [List.foldl_cons]
    apply ih
    split <;> rename_i hx
    · exact h
    · have hx' : x ∉ ids := by simpa using hx
      grind [List.nodup_append]

/-- Add an interface and everything it extends to a list of supertypes. -/
def addInterface (t : ClassTable) (supers : List Identity) (id : Identity) :
    Except TableRefusal (List Identity) := do
  let (entry, body) ← t.loaded id
  if body.shape = .interface then
    .ok (appendNew supers (id :: body.ancestry.secondary))
  else
    .error (.notAnInterface entry.name)

/-- Add interfaces and everything they extend to a list of supertypes. -/
def addInterfaces (t : ClassTable) (supers interfaces : List Identity) :
    Except TableRefusal (List Identity) :=
  interfaces.foldlM t.addInterface supers

end ClassTable

end RuntimeTypes
