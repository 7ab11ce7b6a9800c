/-
Access flags: the bits a class file gives a class.

A loaded class carries two words of them.  The access flags are the class file's
own; the modifier flags are what reflection reports of them, which for a class or
interface are the bits under `Access.modifierMask`.
-/

namespace RuntimeTypes

namespace Access

/-- Declared public. -/
def isPublic : UInt32 := 0x0001

/-- Declared final: nothing may extend the class. -/
def isFinal : UInt32 := 0x0010

/-- Superclass calls are dispatched the modern way; every class file sets it. -/
def isSuper : UInt32 := 0x0020

/-- Is an interface. -/
def isInterface : UInt32 := 0x0200

/-- Declared abstract. -/
def isAbstract : UInt32 := 0x0400

/-- The flags that reflection reports. -/
def modifierMask : UInt32 := isPublic ||| isFinal ||| isInterface ||| isAbstract

/-- Whether one of the bits of `flag` is set in `flags`. -/
def has (flags flag : UInt32) : Bool := flags &&& flag != 0

end Access

/-- The two words of flags that a loaded class carries. -/
structure ClassAccess where
  /-- The class file's flags. -/
  access : UInt32 := 0
  /-- The flags as reflection reports them. -/
  modifier : UInt32 := 0
  deriving DecidableEq, Repr

end RuntimeTypes
