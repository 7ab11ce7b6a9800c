/-
Handles: what a session knows of a type.

A handle is a snapshot, taken when a compilation first asks about a type, and never
changes.  It stands for a loaded class, for a class that was not loaded then or is
known by name only, or for a primitive type.  Queries that only make sense for
loaded classes go through `Handle.loaded`, which refuses the others on behalf of
the operation that asked.
-/
import RuntimeTypes.Access
import RuntimeTypes.Layout
import RuntimeTypes.Ancestry
import RuntimeTypes.NameTable

namespace RuntimeTypes

/-- A reference to a handle of a session. -/
structure HandleRef where
  /-- The session's number. -/
  session : Nat
  /-- The handle's position in the session's arena. -/
  index : Nat
  deriving DecidableEq, Repr

/-- The shape of a type. -/
inductive TypeShape
  /-- A class, interface or array. -/
  | ofClass (shape : ClassShape)
  /-- A primitive type. -/
  | primitive (type : BasicType)
  deriving DecidableEq, Repr

/-- The snapshot of a loaded class. -/
structure Snapshot where
  /-- The class object. -/
  identity : Identity
  /-- Class, interface or array. -/
  shape : ClassShape
  /-- How objects of the class are laid out. -/
  layout : Layout
  /-- The supertypes. -/
  ancestry : Ancestry
  /-- Access and modifier flags. -/
  flags : ClassAccess
  /-- The defining loader. -/
  loader : Loader
  /-- The header word of new instances. -/
  prototypeHeader : UInt64
  deriving DecidableEq, Repr

/-- What a handle stands for. -/
inductive HandleState
  /-- A loaded class, interface or array. -/
  | loaded (c : Snapshot)
  /-- A class that is not loaded; one known by name only has no identity. -/
  | unloaded (identity? : Option Identity) (type : BasicType)
  /-- A primitive type. -/
  | primitive (type : BasicType)
  deriving DecidableEq, Repr

/-- What a session knows of a type. -/
structure Handle where
  /-- The interned internal name. -/
  name : NameId
  /-- The external name. -/
  externalName : String
  /-- What the handle stands for. -/
  state : HandleState
  deriving DecidableEq, Repr

namespace Handle

/-- Whether the type is loaded, as a primitive type always is. -/
def isLoaded (h : Handle) : Bool :=
  match h.state with
  | .unloaded _ _ => false
  | _ => true

/-- The class object, if there is one. -/
def identity? (h : Handle) : Option Identity :=
  match h.state with
  | .loaded c => some c.identity
  | .unloaded identity? _ => identity?
  | .primitive _ => none

/-- The layout, which is neutral for all but loaded classes. -/
def layout (h : Handle) : Layout :=
  match h.state with
  | .loaded c => c.layout
  | _ => .neutral

/-- The basic type of values of the type. -/
def basicType (h : Handle) : BasicType :=
  match h.state with
  | .loaded c =>
    match c.shape with
    | .array _ => .array
    | _ => .object
  | .unloaded _ type => type
  | .primitive type => type

/-- The shape, if it is known. -/
def shape? (h : Handle) : Option TypeShape :=
  match h.state with
  | .loaded c => some (.ofClass c.shape)
  | .unloaded _ _ => none
  | .primitive type => some (.primitive type)

/-- Whether the type is a loaded interface. -/
def isInterface (h : Handle) : Bool := h.shape? = some (.ofClass .interface)

/-- Whether the type is an array, loaded or not. -/
def isArray (h : Handle) : Bool := h.basicType = .array

/-- Whether the type is primitive. -/
def isPrimitive (h : Handle) : Bool :=
  match h.state with
  | .primitive _ => true
  | _ => false

/-- The snapshot of a loaded class, which `operation` cannot do without. -/
def loaded (h : Handle) (operation : String) : Except QueryFailure Snapshot :=
  match h.state with
  | .loaded c => .ok c
  | .unloaded _ _ => .error (.precondition operation (.notLoaded h.externalName))
  | .primitive _ => .error (.precondition operation (.isPrimitive h.externalName))

/-- The supertypes. -/
def ancestry (h : Handle) : Except QueryFailure Ancestry :=
  (h.loaded "hierarchy").map (·.ancestry)

/-- Number of proper ancestors on the chain. -/
def superDepth (h : Handle) : Except QueryFailure Nat :=
  (h.loaded "super_depth").map (·.ancestry.depth)

/-- What generated code compares in a subtype check against the type. -/
def checkSlotOffset (h : Handle) : Except QueryFailure UInt32 :=
  (h.loaded "check_slot_offset").map (·.ancestry.checkOffset)

/-- The same offset under its other name. -/
def superCheckOffset (h : Handle) : Except QueryFailure UInt32 :=
  (h.loaded "super_check_offset").map (·.ancestry.checkOffset)

/-- Whether the type owns a display slot in its subtypes. -/
def ownsSlot (h : Handle) : Except QueryFailure Bool :=
  (h.loaded "can_be_primary_super").map (·.ancestry.ownsSlot)

/-- The flags as reflection reports them. -/
def modifierFlags (h : Handle) : Except QueryFailure UInt32 :=
  (h.loaded "modifier_flags").map (·.flags.modifier)

/-- The class file's flags. -/
def accessFlags (h : Handle) : Except QueryFailure UInt32 :=
  (h.loaded "access_flags").map (·.flags.access)

/-- The header word of new instances. -/
def prototypeHeader (h : Handle) : Except QueryFailure UInt64 :=
  (h.loaded "prototype_header").map (·.prototypeHeader)

/-- The defining loader. -/
def loader (h : Handle) : Except QueryFailure Loader :=
  (h.loaded "loader").map (·.loader)

end Handle

end RuntimeTypes
