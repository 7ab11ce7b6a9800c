/-
Defining, declaring, completing and removing classes.

A class is loaded when its supertypes are, and its ancestry is worked out there and
then: the chain is the superclass's chain with the superclass behind it, and the
secondary supertypes are what the display has no room for, what the superclass
inherits, and the interfaces with everything they extend.  A class that the table
knows by declaration only gets the same body at the same price; only its name and
loader are settled already.

Each operation either yields the new table or a refusal, and a refusal changes
nothing.
-/
import RuntimeTypes.ClassTable.Basic
import RuntimeTypes.ClassFile

namespace RuntimeTypes

namespace ClassTable

/-- Refuse a superclass that is no ordinary class or is final. -/
def requireExtensible (entry : ClassObject) (body : ClassBody) : Except TableRefusal Unit :=
  match body.shape with
  | .interface => .error (.illegalSuper entry.name .isInterface)
  | .array _ => .error (.illegalSuper entry.name .isArray)
  | .instanceClass =>
    if Access.has body.flags.access Access.isFinal then
      .error (.illegalSuper entry.name .isFinal)
    else
      .ok ()

/-- The superclass of a class: the root unless an ordinary class says otherwise. -/
def superclassOf (d : ClassFile) : Identity :=
  if d.isInterface then root else d.superclass.getD root

/-- Only a concrete class has instances, and so a layout for them. -/
def layoutOf (d : ClassFile) : Layout :=
  if d.isInterface || Access.has d.access Access.isAbstract then
    .neutral
  else
    Layout.ofInstance d.instanceSize

/-- What loading a class gives it. -/
def bodyOf (t : ClassTable) (d : ClassFile) : Except TableRefusal ClassBody := do
  let superclass := superclassOf d
  let (superEntry, superBody) ← t.loaded superclass
  requireExtensible superEntry superBody
  let chain := superBody.ancestry.chain ++ [superclass]
  let inherited := appendNew (appendNew [] (chain.drop t.capacity.slots)) superBody.ancestry.secondary
  let secondary ← t.addInterfaces inherited d.interfaces
  .ok
    { shape := if d.isInterface then .interface else .instanceClass
      flags := ⟨d.access, d.access &&& Access.modifierMask⟩
      layout := layoutOf d
      ancestry := AncestryRecord.place t.capacity (!d.isInterface) chain secondary }

/-- Define and load a class. -/
def define (t : ClassTable) (d : ClassFile) : Except TableRefusal (Identity × ClassTable) := do
  t.requireLoader d.loader
  t.requireUnused d.loader d.name
  let body ← t.bodyOf d
  .ok (t.freshId, t.add { name := d.name, loader := d.loader, body? := some body })

/-- Record a class that something refers to before it is loaded. -/
def declare (t : ClassTable) (loader : Loader) (name : String) :
    Except TableRefusal (Identity × ClassTable) := do
  t.requireLoader loader
  t.requireUnused loader name
  .ok (t.freshId, t.add { name := name, loader := loader, body? := none })

/-- Load a declared class.  Its name and loader stay as declared. -/
def complete (t : ClassTable) (id : Identity) (d : ClassFile) : Except TableRefusal ClassTable :=
  match t.objectAt id with
  | none => .error (.unknownClass id)
  | some entry =>
    match entry.body? with
    | some _ => .error (.alreadyLoaded entry.name)
    | none => do
      let body ← t.bodyOf { d with name := entry.name, loader := entry.loader }
      .ok
        { t with
          entries := t.entries.setIfInBounds id.index (some { entry with body? := some body }) }

/-- Remove a class, and its name with it. -/
def remove (t : ClassTable) (id : Identity) : Except TableRefusal ClassTable :=
  match t.objectAt id with
  | none => .error (.unknownClass id)
  | some entry =>
    if id = root then
      .error (.pinned entry.name)
    else
      .ok
        { t with
          entries := t.entries.setIfInBounds id.index none
          names := t.names.erase (entry.loader, entry.name) }

/-- Create a loader below a parent. -/
def addLoader (t : ClassTable) (parent : Loader) : Except TableRefusal (Loader × ClassTable) :=
  if t.loaders.contains parent then
    .ok (t.loaders.fresh, { t with loaders := t.loaders.add parent })
  else
    .error (.unknownLoader parent)

end ClassTable

end RuntimeTypes
