/-
Questions about the supertypes of loaded classes, answered from snapshots.

A subtype check looks at one place: where the supertype owns a display slot, at that
slot of the subtype's display, and otherwise at the subtype's secondary supertypes.
A subclass check and the search for a common ancestor go by the chains alone, so
interfaces never count there.
-/
import RuntimeTypes.Handle

namespace RuntimeTypes

/-- The last element up to which two lists agree. -/
def lastCommon? {α : Type} [DecidableEq α] : List α → List α → Option α
  | a :: as, b :: bs => if a = b then some ((lastCommon? as bs).getD a) else none
  | _, _ => none

namespace Snapshot

/-- Whether the class is a subtype of another. -/
def isSubtype (sub sup : Snapshot) : Bool :=
  if sub.identity = sup.identity then
    true
  else
    match sup.ancestry.checkTarget with
    | .display depth => sub.ancestry.superAt? depth = some sup.identity
    | .secondary => sub.ancestry.secondary.contains sup.identity

/-- Whether another class is on the class's chain, or the class itself. -/
def isSubclass (sub sup : Snapshot) : Bool :=
  if sub.identity = sup.identity then
    true
  else if sup.shape = .interface then
    false
  else
    sub.ancestry.chain.contains sup.identity

/-- The chain with the class itself behind it. -/
def lineage (c : Snapshot) : List Identity := c.ancestry.chain ++ [c.identity]

/-- The deepest class up to which two chains agree. -/
def commonAncestor (a b : Snapshot) : Except HeapFailure Identity :=
  match lastCommon? a.lineage b.lineage with
  | some id => .ok id
  | none =>
    .error (.storeFailure (a.identity.text ++ " and " ++ b.identity.text ++ " share no root class"))

end Snapshot

end RuntimeTypes
