/-
Class files: what it takes to define a class or interface.

A class file is written clause by clause, in any order.  A later clause overrides an
earlier one, but for interfaces and single flags, which are added.

The interface bit is not among the flags that a `ClassFile` brings along: it follows
from whether an interface is defined, so `ClassFile.access` sets or clears it, and
an interface is abstract besides.
-/
import RuntimeTypes.Identity
import RuntimeTypes.Access

namespace RuntimeTypes

/-- A class or interface to be defined. -/
structure ClassFile where
  /-- The internal name. -/
  name : String
  /-- Whether an interface is defined. -/
  isInterface : Bool := false
  /-- The defining loader. -/
  loader : Loader := Loader.bootstrap
  /-- The superclass, if it is not the root. -/
  superclass : Option Identity := none
  /-- Implemented interfaces, or for an interface the ones it extends. -/
  interfaces : List Identity := []
  /-- Instance size in bytes. -/
  instanceSize : UInt32 := 16
  /-- Access flags, but for the bits that say whether an interface is defined. -/
  flags : UInt32 := Access.isPublic ||| Access.isSuper
  deriving DecidableEq, Repr

namespace ClassFile

/-- A public class below the root. -/
def ordinary (name : String) : ClassFile :=
  { name := name }

/-- A public interface. -/
def interface (name : String) : ClassFile :=
  { name := name, isInterface := true, flags := Access.isPublic }

/-- The same with further interfaces. -/
def implementing (d : ClassFile) (interfaces : List Identity) : ClassFile :=
  { d with interfaces := d.interfaces ++ interfaces }

/-- The same with further access flags. -/
def marked (d : ClassFile) (flag : UInt32) : ClassFile :=
  { d with flags := d.flags ||| flag }

/-- Something that is said of a class to be defined. -/
inductive Clause
  | superclass (id : Identity)
  /-- These interfaces, besides the ones named so far. -/
  | interfaces (ids : List Identity)
  | loader (loader : Loader)
  | instanceSize (bytes : UInt32)
  /-- These access flags and no others. -/
  | flags (flags : UInt32)
  | makeAbstract
  | makeFinal
  deriving DecidableEq, Repr

/-- The class file with a clause more. -/
def write (d : ClassFile) : Clause → ClassFile
  | .superclass id => { d with superclass := some id }
  | .interfaces ids => d.implementing ids
  | .loader loader => { d with loader := loader }
  | .instanceSize bytes => { d with instanceSize := bytes }
  | .flags flags => { d with flags := flags }
  | .makeAbstract => d.marked Access.isAbstract
  | .makeFinal => d.marked Access.isFinal

/-- The class file of a class or interface, clause by clause. -/
def written (isInterface : Bool) (name : String) (clauses : List Clause) : ClassFile :=
  clauses.foldl write (if isInterface then interface name else ordinary name)

/-- The access flags of the class. -/
def access (d : ClassFile) : UInt32 :=
  if d.isInterface then
    d.flags ||| Access.isInterface ||| Access.isAbstract
  else
    d.flags &&& ~~~Access.isInterface

end ClassFile

end RuntimeTypes
