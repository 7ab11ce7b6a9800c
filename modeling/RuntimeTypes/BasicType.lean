/-
Basic types: the primitive types of a class file, and the two kinds of reference.

Each has a numeric code, a descriptor character and a source name, and each of the
three determines it.  `ofCode?`, `ofDescriptor?` and `named?` search the list of
all basic types, so they are the inverses of the three spellings by construction.
-/

namespace RuntimeTypes

/-- The kind of a value. -/
inductive BasicType
  | boolean
  | char
  | float
  | double
  | byte
  | short
  | int
  | long
  | object
  | array
  | void
  deriving DecidableEq, Repr

namespace BasicType

/-- Every basic type, in the order of the codes. -/
def all : List BasicType :=
  [boolean, char, float, double, byte, short, int, long, object, array, void]

theorem mem_all (t : BasicType) : t ∈ all := by
  cases t <;> decide

/-- The number that stands for a basic type in packed words. -/
def code : BasicType → UInt8
  | boolean => 4
  | char => 5
  | float => 6
  | double => 7
  | byte => 8
  | short => 9
  | int => 10
  | long => 11
  | object => 12
  | array => 13
  | void => 14

/-- The character that stands for a basic type in descriptors. -/
def descriptor : BasicType → Char
  | boolean => 'Z'
  | char => 'C'
  | float => 'F'
  | double => 'D'
  | byte => 'B'
  | short => 'S'
  | int => 'I'
  | long => 'J'
  | object => 'L'
  | array => '['
  | void => 'V'

/-- The source-level name. -/
def name : BasicType → String
  | boolean => "boolean"
  | char => "char"
  | float => "float"
  | double => "double"
  | byte => "byte"
  | short => "short"
  | int => "int"
  | long => "long"
  | object => "object"
  | array => "array"
  | void => "void"

/-- Base-two logarithm of the size in bytes of one stored value. -/
def log2Size : BasicType → Nat
  | boolean => 0
  | byte => 0
  | char => 1
  | short => 1
  | float => 2
  | int => 2
  | double => 3
  | long => 3
  | object => 3
  | array => 3
  | void => 0

/-- Objects and arrays are held by reference. -/
def isReference : BasicType → Bool
  | object => true
  | array => true
  | _ => false

/-- The basic type with this code. -/
def ofCode? (code : UInt8) : Option BasicType :=
  all.find? (fun t => t.code = code)

/-- The basic type with this descriptor character. -/
def ofDescriptor? (c : Char) : Option BasicType :=
  all.find? (fun t => t.descriptor = c)

/-- The basic type with this source name. -/
def named? (name : String) : Option BasicType :=
  all.find? (fun t => t.name = name)

theorem ofCode?_code (t : BasicType) : ofCode? t.code = some t := by
  cases t <;> rfl

theorem ofDescriptor?_descriptor (t : BasicType) : ofDescriptor? t.descriptor = some t := by
  cases t <;> rfl

theorem named?_name (t : BasicType) : named? t.name = some t := by
  cases t <;> decide

end BasicType

end RuntimeTypes
