/-
What the running program knows about a class.

These are the values that cross the border: load state, shape, and the ancestry
record.  A record lists the superclass chain from the root down, the other
supertypes (interfaces, and ancestors too deep for the display), and the offset
that a subtype check against the class compares.  Nothing here says that a record
makes sense; `Ancestry.ofRecord` looks at that.
-/
import RuntimeTypes.Identity
import RuntimeTypes.BasicType
import RuntimeTypes.Display

namespace RuntimeTypes

/-- Whether a class object has finished loading. -/
inductive LoadStatus
  /-- Layout and ancestry are available. -/
  | loaded
  /-- Something refers to the class, and no more is known than its name. -/
  | unloaded
  deriving DecidableEq, Repr

/-- The shape of a class object. -/
inductive ClassShape
  /-- An ordinary class, abstract or not. -/
  | instanceClass
  /-- An interface. -/
  | interface
  /-- An array of elements of this basic type. -/
  | array (element : BasicType)
  deriving DecidableEq, Repr

/-- The ancestry of a loaded class as its store keeps it. -/
structure AncestryRecord where
  /-- Superclasses from the root down to the direct one. -/
  chain : List Identity
  /-- Interfaces, and superclasses that the display has no slot for. -/
  secondary : List Identity
  /-- Whether the class owns a display slot in its subclasses. -/
  ownsSlot : Bool
  /-- What a subtype check against the class compares. -/
  checkOffset : UInt32
  /-- Number of display slots in use. -/
  capacity : Nat
  deriving DecidableEq, Repr

namespace AncestryRecord

/-- The record of a class below `chain`: it owns the slot at its depth if it may and the display
reaches so deep, and is found among the secondary supertypes otherwise. -/
def place (capacity : Display.Capacity) (mayOwnSlot : Bool) (chain secondary : List Identity) :
    AncestryRecord :=
  let ownsSlot := mayOwnSlot && decide (chain.length < capacity.slots)
  { chain := chain
    secondary := secondary
    ownsSlot := ownsSlot
    checkOffset :=
      if ownsSlot then (CheckTarget.display chain.length).offset else CheckTarget.secondary.offset
    capacity := capacity.slots }

end AncestryRecord

end RuntimeTypes
