/-
External names: how an internal name is spelled for people.

Internally packages are separated by slashes, and an array is a bracket per
dimension followed by its element's descriptor: one character for a primitive
type, `L`, name and `;` for a class.  Externally packages are separated by dots,
and each dimension is a pair of brackets behind the element's name.

A name with brackets whose rest is no element descriptor is no array name, and
only its slashes are changed.
-/
import RuntimeTypes.BasicType

namespace RuntimeTypes

namespace ExternalName

/-- Slashes become dots. -/
def dotted (name : List Char) : List Char :=
  name.map fun c => if c = '/' then '.' else c

/-- The external name of an array element, if this is an element descriptor. -/
def element? : List Char → Option (List Char)
  | 'L' :: rest => if rest.getLast? = some ';' then some (dotted rest.dropLast) else none
  | [c] => ((BasicType.ofDescriptor? c).filter (!·.isReference)).map (·.name.toList)
  | _ => none

/-- One pair of brackets per dimension. -/
def brackets : Nat → List Char
  | 0 => []
  | dims + 1 => '[' :: ']' :: brackets dims

/-- The external spelling of an internal name, over characters. -/
def ofChars (name : List Char) : List Char :=
  match name.takeWhile (· = '['), element? (name.dropWhile (· = '[')) with
  | [], _ => dotted name
  | _, none => dotted name
  | dims, some element => element ++ brackets dims.length

end ExternalName

/-- The external spelling of an internal name. -/
def externalName (internal : String) : String :=
  String.ofList (ExternalName.ofChars internal.toList)

/-- Whether an internal name is spelled as an array's. -/
def isArrayName (internal : String) : Bool :=
  internal.toList.head? = some '['

/-- The basic type that an internal name implies. -/
def BasicType.ofInternalName (internal : String) : BasicType :=
  if isArrayName internal then array else object

end RuntimeTypes
