/-
Packed layouts: one signed word says how the objects of a class are laid out.

Zero is neutral, for types without objects of their own: interfaces, abstract
classes, classes that are not loaded.  A positive word is the instance size in
bytes.  A negative word describes an array:

    tag:2 | unused:6 | header size:8 | element type:8 | log2 of element size:8

Instance sizes are whole machine words, so `Layout.ofInstance` rounds up, and
`maxInstanceSize`, the largest whole number of machine words that a signed word
holds, is the cap that keeps the result positive.
-/
import RuntimeTypes.BasicType

namespace RuntimeTypes

/-- The packed layout of a class. -/
structure Layout where
  /-- The word that generated code embeds. -/
  raw : Int32
  deriving DecidableEq, Repr

namespace Layout

/-- Size of a machine word in bytes. -/
def wordSize : Nat := 8

/-- Largest instance size that a layout can hold. -/
def maxInstanceSize : Nat := 2147483640

/-- The layout of a type without objects of its own. -/
def neutral : Layout := ⟨0⟩

/-- The number of bytes an instance of `size` bytes takes: whole machine words, at least one, at
most `maxInstanceSize` bytes. -/
def alignedSize (size : Nat) : Nat :=
  min (max ((size + (wordSize - 1)) / wordSize) 1 * wordSize) maxInstanceSize

/-- The layout of a class whose instances take `size` bytes. -/
def ofInstance (size : UInt32) : Layout :=
  ⟨Int32.ofNat (alignedSize size.toNat)⟩

/-- The two top bits tell arrays of references from arrays of primitive values. -/
def arrayTag (element : BasicType) : UInt32 :=
  if element.isReference then 2 else 3

/-- The layout of an array with a header of `header` bytes. -/
def ofArray (element : BasicType) (header : UInt8) : Layout :=
  ⟨(arrayTag element <<< 30 ||| header.toUInt32 <<< 16 ||| element.code.toUInt32 <<< 8
    ||| UInt32.ofNat element.log2Size).toInt32⟩

/-- The layout of a type without objects of its own. -/
def isNeutral (l : Layout) : Bool := l.raw = 0

/-- The layout of a class with instances. -/
def isInstance (l : Layout) : Bool := 0 < l.raw

/-- The layout of an array. -/
def isArray (l : Layout) : Bool := l.raw < 0

/-- The byte of the packed word that starts at bit `shift`. -/
def byteAt (l : Layout) (shift : UInt32) : UInt8 :=
  (l.raw.toUInt32 >>> shift).toUInt8

/-- Instance size in bytes. -/
def instanceSize? (l : Layout) : Option Nat :=
  if l.isInstance then some l.raw.toUInt32.toNat else none

/-- Array header size in bytes. -/
def headerSize? (l : Layout) : Option Nat :=
  if l.isArray then some (l.byteAt 16).toNat else none

/-- Element type of an array. -/
def elementType? (l : Layout) : Option BasicType :=
  if l.isArray then BasicType.ofCode? (l.byteAt 8) else none

/-- Base-two logarithm of an array's element size in bytes. -/
def log2ElementSize? (l : Layout) : Option Nat :=
  if l.isArray then some (l.byteAt 0).toNat else none

end Layout

end RuntimeTypes
