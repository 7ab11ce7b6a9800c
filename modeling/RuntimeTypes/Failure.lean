/-
Why a question about a type fails.

A `HeapFailure` comes from the border to the running program: the gate or the
metadata store.  A `QueryFailure` is what a session answers.  Each constructor is a
cause, and `message` is its wording.  Of all of them only a name that was not found
lets the caller go on.
-/
import RuntimeTypes.Identity
import RuntimeTypes.BasicType
import RuntimeTypes.Duration

namespace RuntimeTypes

/-- Failures at the border to the running program. -/
inductive HeapFailure
  /-- The gate admits nobody any more. -/
  | shutDown
  /-- The gate stayed closed for as long as the caller was ready to wait. -/
  | timeout (waited : Duration)
  /-- The caller would sleep at the gate until another thread acts. -/
  | blocked
  /-- The store has no class object with this identity. -/
  | unknownIdentity (id : Identity)
  /-- The store's ancestry record of a class contradicts itself. -/
  | cyclicHierarchy (name : String)
  /-- Any other failure, in the store's own words. -/
  | storeFailure (detail : String)
  deriving DecidableEq, Repr

/-- The wording of a failure at the border. -/
def HeapFailure.message : HeapFailure → String
  | shutDown => "Heap gate is shut down"
  | timeout waited => "Timed out after " ++ waited.text ++ " waiting to enter the heap"
  | blocked => "Waiting to enter the heap"
  | unknownIdentity id => "Unknown heap identity: " ++ id.text
  | cyclicHierarchy name => "Malformed class hierarchy for " ++ name
  | storeFailure detail => "Metadata store failure: " ++ detail

/-- What was wrong with the arguments of a query. -/
inductive Breach
  /-- The reference was made by session `owner` and shown to session `user`. -/
  | foreignRef (owner user : Nat)
  /-- The session has no handle with this index. -/
  | danglingRef (index : Nat)
  /-- The query is about loaded types, and this one is not loaded. -/
  | notLoaded (externalName : String)
  /-- The query is about classes, and this is a primitive type. -/
  | isPrimitive (externalName : String)
  /-- A placeholder stands for an object or an array. -/
  | placeholderHint (name : String) (hint : BasicType)
  /-- A reference kind is not a primitive type. -/
  | notPrimitive (type : BasicType)
  /-- Anything else, in the caller's own words. -/
  | stated (detail : String)
  deriving DecidableEq, Repr

/-- The wording of a breach; sessions are written with their number after `#`. -/
def Breach.message : Breach → String
  | foreignRef owner user =>
    "type ref from session #" ++ Nat.repr owner ++ " used in session #" ++ Nat.repr user
  | danglingRef index => "no handle at index " ++ Nat.repr index
  | notLoaded name => name ++ " is not loaded"
  | isPrimitive name => name ++ " is a primitive type"
  | placeholderHint name hint => name ++ " cannot be a " ++ hint.name ++ " placeholder"
  | notPrimitive type => type.name ++ " is not a primitive type"
  | stated detail => detail

/-- Failures of a query. -/
inductive QueryFailure
  /-- The caller's arguments do not fit the operation. -/
  | precondition (operation : String) (breach : Breach)
  /-- The loader finds no class of this name. -/
  | notFound (name : String)
  /-- The session holds as many handles as it may. -/
  | exhausted (limit : Nat)
  /-- A failure at the border to the running program. -/
  | heap (error : HeapFailure)
  deriving DecidableEq, Repr

namespace QueryFailure

/-- The wording of a failed query. -/
def message : QueryFailure → String
  | precondition operation breach =>
    "Precondition violated in " ++ operation ++ ": " ++ breach.message
  | notFound name => "Type not found: " ++ name
  | exhausted limit => "Type oracle exhausted its arena (" ++ Nat.repr limit ++ " handles)"
  | heap error => error.message

/-- Whether the caller can go on with the compilation. -/
def recoverable : QueryFailure → Bool
  | notFound _ => true
  | _ => false

end QueryFailure

end RuntimeTypes
