/-
The display of a class record, and the offsets that point into it.

Every class record has room for `maxCapacity` display slots.  Slot `d` of a class
names its ancestor at depth `d`, so a subtype check against a class that owns slot
`d` is one load.  In front of the slots stands a one-entry cache of secondary
supertypes, and a check offset that points at the cache means: no slot, scan.

`CheckTarget.decode?` reads a check offset, `CheckTarget.offset` writes one.
-/

namespace RuntimeTypes

namespace Display

/-- Size of a slot in bytes. -/
def slotSize : UInt32 := 8

/-- Where the cache of secondary supertypes stands in a class record. -/
def secondaryOffset : UInt32 := 32

/-- Where the first slot stands in a class record. -/
def firstSlotOffset : UInt32 := 40

/-- Number of slots that a class record has room for. -/
def maxCapacity : Nat := 16

/-- Where slot `depth` stands in a class record, in 32-bit arithmetic. -/
def slotOffset (depth : Nat) : UInt32 :=
  firstSlotOffset + UInt32.ofNat depth * slotSize

/-- Where the header word of new instances stands in a class record: after the last slot. -/
def prototypeOffset : UInt32 := slotOffset maxCapacity

/-- The number of slots that a store uses. -/
structure Capacity where
  /-- How many slots. -/
  slots : Nat
  /-- The root class needs a slot. -/
  pos : 0 < slots
  /-- More slots do not fit into a class record. -/
  le_max : slots ≤ maxCapacity
  deriving DecidableEq, Repr

/-- The capacity with this number of slots, if the number is in range. -/
def Capacity.ofNat? (n : Nat) : Option Capacity :=
  if h : 0 < n ∧ n ≤ maxCapacity then some ⟨n, h.1, h.2⟩ else none

/-- The capacity of a store that does not say otherwise. -/
def Capacity.standard : Capacity := ⟨8, by decide, by decide⟩

end Display

/-- What a subtype check against a class compares. -/
inductive CheckTarget
  /-- The subtype's display at this depth. -/
  | display (depth : Nat)
  /-- The subtype's list of secondary supertypes. -/
  | secondary
  deriving DecidableEq, Repr

namespace CheckTarget

open Display

/-- Read a check offset: the cache of secondary supertypes, or the start of a slot. -/
def decode? (offset : UInt32) : Option CheckTarget :=
  if offset = secondaryOffset then
    some secondary
  else if offset < firstSlotOffset then
    none
  else
    let relative := offset - firstSlotOffset
    let depth := (relative / slotSize).toNat
    if relative % slotSize = 0 ∧ depth < maxCapacity then some (display depth) else none

/-- Write a check offset. -/
def offset : CheckTarget → UInt32
  | display depth => slotOffset depth
  | secondary => secondaryOffset

theorem decode?_offset_display :
    ∀ depth < maxCapacity, decode? (display depth).offset = some (display depth) := by
  decide

theorem decode?_offset_secondary : decode? secondary.offset = some secondary := rfl

end CheckTarget

end RuntimeTypes
