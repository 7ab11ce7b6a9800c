/-
The ancestry of a class as a session holds it.

`Ancestry.ofRecord` takes a store's record over.  It always insists on a check
offset that means something and on a capacity in range; told to verify, also on a
record that fits the class: no ancestor twice, the class not among its own
supertypes, and a check slot that agrees with the depth.
-/
import RuntimeTypes.Metadata
import RuntimeTypes.Failure

namespace RuntimeTypes

/-- The ancestry of a loaded class, with its check offset decoded. -/
structure Ancestry where
  /-- Superclasses from the root down to the direct one. -/
  chain : List Identity
  /-- How many of them are in the display. -/
  displayLength : Nat
  /-- Interfaces, and superclasses that the display has no slot for. -/
  secondary : List Identity
  /-- Whether the class owns a display slot in its subclasses. -/
  ownsSlot : Bool
  /-- What a subtype check against the class compares, as generated code embeds it. -/
  checkOffset : UInt32
  /-- What a subtype check against the class compares. -/
  checkTarget : CheckTarget
  deriving DecidableEq, Repr

/-- Whether an identity occurs twice. -/
def hasRepeat : List Identity → Bool
  | [] => false
  | id :: rest => rest.contains id || hasRepeat rest

theorem hasRepeat_eq_false_iff (ids : List Identity) : hasRepeat ids = false ↔ ids.Nodup := by
  induction ids with
  | nil => simp [hasRepeat]
  | cons id rest ih => simp [hasRepeat, ih]

namespace AncestryRecord

/-- Whether the check slot agrees with the record: a class has a slot exactly if it owns one, and
then the one at its depth. -/
def slotFits (record : AncestryRecord) : CheckTarget → Bool
  | .display depth =>
    record.ownsSlot && depth == record.chain.length && decide (depth < record.capacity)
  | .secondary => !record.ownsSlot

/-- Whether the record can be that of class `this`. -/
def fits (record : AncestryRecord) (this : Identity) (slot : CheckTarget) : Bool :=
  !hasRepeat (record.chain ++ [this]) && !record.secondary.contains this && record.slotFits slot

end AncestryRecord

namespace Ancestry

/-- Take over the record of class `this`, which is called `name`. -/
def ofRecord (record : AncestryRecord) (this : Identity) (name : String) (verify : Bool) :
    Except HeapFailure Ancestry :=
  match CheckTarget.decode? record.checkOffset with
  | none => .error (.cyclicHierarchy name)
  | some slot =>
    if record.capacity = 0 ∨ Display.maxCapacity < record.capacity then
      .error (.cyclicHierarchy name)
    else if verify && !record.fits this slot then
      .error (.cyclicHierarchy name)
    else
      .ok
        { chain := record.chain
          displayLength := min record.chain.length record.capacity
          secondary := record.secondary
          ownsSlot := record.ownsSlot
          checkOffset := record.checkOffset
          checkTarget := slot }

/-- Number of proper ancestors on the chain. -/
def depth (a : Ancestry) : Nat := a.chain.length

/-- The ancestors that have a display slot, root first. -/
def display (a : Ancestry) : List Identity := a.chain.take a.displayLength

/-- The ancestor in display slot `depth`. -/
def superAt? (a : Ancestry) (depth : Nat) : Option Identity := a.display[depth]?

end Ancestry

end RuntimeTypes
