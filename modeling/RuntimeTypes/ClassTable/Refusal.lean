/-
Why a class table refuses an operation.
-/
import RuntimeTypes.Failure

namespace RuntimeTypes

/-- Why a class cannot be the superclass or element of another. -/
inductive SuperFault
  | isInterface
  | isArray
  | isFinal
  | notElement
  deriving DecidableEq, Repr

/-- The wording of a fault. -/
def SuperFault.message : SuperFault → String
  | isInterface => "it is an interface"
  | isArray => "it is an array"
  | isFinal => "it is final"
  | notElement => "not an array element type"

/-- Why a class table refuses an operation. -/
inductive TableRefusal
  /-- The loader has a class of this name. -/
  | duplicate (name : String) (loader : Loader)
  /-- There is no class with this identity. -/
  | unknownClass (id : Identity)
  /-- There is no such loader. -/
  | unknownLoader (loader : Loader)
  /-- The operation needs a class that has not finished loading. -/
  | notLoaded (name : String)
  /-- The class has finished loading before. -/
  | alreadyLoaded (name : String)
  /-- The class cannot be extended. -/
  | illegalSuper (name : String) (fault : SuperFault)
  /-- Only an interface can be implemented. -/
  | notAnInterface (name : String)
  /-- The root class stays. -/
  | pinned (name : String)
  /-- The number of display slots is out of range. -/
  | badCapacity (slots : Nat)
  /-- A failure at the border to the running program. -/
  | heap (error : HeapFailure)
  deriving DecidableEq, Repr

/-- The wording of a refusal. -/
def TableRefusal.message : TableRefusal → String
  | duplicate name loader =>
    "Class " ++ name ++ " is already defined by loader " ++ Nat.repr loader.number
  | unknownClass id => "Unknown class " ++ id.text
  | unknownLoader loader => "Unknown loader " ++ Nat.repr loader.number
  | notLoaded name => "Class " ++ name ++ " is not loaded"
  | alreadyLoaded name => "Class " ++ name ++ " is already loaded"
  | illegalSuper name fault => "Cannot extend " ++ name ++ ": " ++ fault.message
  | notAnInterface name => name ++ " is not an interface"
  | pinned name => "Class " ++ name ++ " cannot be unloaded"
  | badCapacity slots => "Display capacity " ++ Nat.repr slots ++ " is out of range"
  | heap error => error.message

end RuntimeTypes
