/-
Array classes.

An array follows its element: when `B` extends `A` and implements `I`, the array of
`B` extends the array of `A` and implements the array of `I`.  So the supertype
arrays have to be there first, and `arrayWithin` makes them by asking for the array of
each supertype of the element in turn.  Arrays of primitive values, and the array
of the root, stand directly below the root.

Each request goes from an element to one of its supertypes, which was loaded
before it, so no more requests nest than there are entries; that number bounds the
recursion.  A table whose records lead in a circle, which no sequence of table
operations makes, would use the bound up, and the request for its array is refused
as a malformed hierarchy.

A request that fails half way keeps the supertype arrays it has made.
-/
import RuntimeTypes.ClassTable.Basic

namespace RuntimeTypes

/-- The element of an array class. -/
inductive ElementType
  /-- Values of a primitive type. -/
  | primitive (type : BasicType)
  /-- References to objects of a class, interface or array. -/
  | ofClass (id : Identity)
  deriving DecidableEq, Repr

/-- What the element decides about its array. -/
structure ArrayPlan where
  /-- The internal name. -/
  name : String
  /-- The element's loader. -/
  loader : Loader
  /-- The element's basic type. -/
  element : BasicType
  /-- Whether the array may own a display slot, as the element does. -/
  mayOwnSlot : Bool
  /-- The element's access, as far as the array shares it. -/
  access : UInt32
  /-- The elements of the supertype arrays: the superclass, and the other direct and indirect
  supertypes.  None for an array directly below the root. -/
  lineage? : Option (Identity × List Identity)
  deriving DecidableEq, Repr

namespace ClassTable

/-- How an element is spelled inside an array name. -/
def elementDescriptor (className : String) : String :=
  if isArrayName className then className else "L" ++ className ++ ";"

/-- The elements of the supertype arrays of a class: its superclass (the root if it has none), and
the secondary supertypes that are not on its chain. -/
def lineageOf (a : AncestryRecord) : Identity × List Identity :=
  (a.chain.getLast?.getD root, a.secondary.filter fun s => !a.chain.contains s)

/-- What an element decides about its array. -/
def arrayPlan (t : ClassTable) : ElementType → Except TableRefusal ArrayPlan
  | .primitive type =>
    if type.isReference ∨ type = .void then
      .error (.illegalSuper type.name .notElement)
    else
      .ok
        { name := "[" ++ String.singleton type.descriptor
          loader := Loader.bootstrap
          element := type
          mayOwnSlot := true
          access := Access.isPublic
          lineage? := none }
  | .ofClass id => do
    let (entry, body) ← t.loaded id
    .ok
      { name := "[" ++ elementDescriptor entry.name
        loader := entry.loader
        element := .object
        mayOwnSlot := body.ancestry.ownsSlot
        access := body.flags.modifier &&& Access.isPublic
        lineage? := if id = root then none else some (lineageOf body.ancestry) }

/-- Size of an array header in bytes. -/
def arrayHeaderSize : UInt8 := 16

/-- The body of an array class. -/
def arrayBody (t : ClassTable) (plan : ArrayPlan) (chain secondary : List Identity) : ClassBody :=
  let flags := plan.access ||| Access.isAbstract ||| Access.isFinal
  { shape := .array plan.element
    flags := ⟨flags, flags⟩
    layout := Layout.ofArray plan.element arrayHeaderSize
    ancestry := AncestryRecord.place t.capacity plan.mayOwnSlot chain secondary }

/-- Operations that may leave a changed table behind even where they fail. -/
abbrev Building := EStateM TableRefusal ClassTable

/-- Go on with a value, or fail. -/
def Building.lift {α : Type} : Except TableRefusal α → Building α
  | .ok a => pure a
  | .error e => throw e

/-- The chain and the secondary supertypes that an array gets from its element's supertypes, whose
arrays come from `request`. -/
def supertypeArrays (request : ElementType → Building Identity) :
    Option (Identity × List Identity) → Building (List Identity × List Identity)
  | none => pure ([root], [])
  | some (superElement, others) => do
    let superArray ← request (.ofClass superElement)
    let (_, superBody) ← Building.lift ((← get).loaded superArray)
    let secondary ← others.foldlM
      (fun secondary other => do
        let array ← request (.ofClass other)
        pure (appendNew secondary [array]))
      superBody.ancestry.secondary
    pure (superBody.ancestry.chain ++ [superArray], secondary)

/-- Make the array of an element unless its loader has one, with supertype arrays from `request`. -/
def makeArray (interfaces : List Identity) (request : ElementType → Building Identity)
    (element : ElementType) : Building Identity := do
  let plan ← Building.lift ((← get).arrayPlan element)
  match (← get).names.get? (plan.loader, plan.name) with
  | some id => pure id
  | none => do
    let (chain, inherited) ← supertypeArrays request plan.lineage?
    let t ← get
    let supers ← Building.lift (t.addInterfaces inherited interfaces)
    let secondary := appendNew supers (chain.drop t.capacity.slots)
    set (t.add
      { name := plan.name
        loader := plan.loader
        body? := some (t.arrayBody plan chain secondary) })
    pure t.freshId

section

variable {interfaces : List Identity} {request : ElementType → Building Identity}
  {element : ElementType} {t : ClassTable}

theorem makeArray_of_error {e : TableRefusal} (h : t.arrayPlan element = .error e) :
    makeArray interfaces request element t = .error e t := by
  have hget : (get : Building ClassTable) t = .ok t t := rfl
  simp only [makeArray, bind, EStateM.bind, hget, h, Building.lift]
  rfl

/-- An array that is there is not made again. -/
theorem makeArray_of_some {plan : ArrayPlan} {id : Identity} (h : t.arrayPlan element = .ok plan)
    (hname : t.names.get? (plan.loader, plan.name) = some id) :
    makeArray interfaces request element t = .ok id t := by
  have hget : (get : Building ClassTable) t = .ok t t := rfl
  simp only [makeArray, bind, EStateM.bind, hget, h, Building.lift, pure, EStateM.pure, hname]

end

/-- What an element is called in a refusal. -/
def elementName (t : ClassTable) : ElementType → String
  | .primitive type => type.name
  | .ofClass id => ((t.objectAt id).map (·.name)).getD id.text

/-- The array of an element, with at most `depth` requests for supertype arrays inside each other. -/
def arrayWithin (interfaces : List Identity) : (depth : Nat) → ElementType → Building Identity
  | 0 => makeArray interfaces fun element => do
    throw (.heap (.cyclicHierarchy ((← get).elementName element)))
  | depth + 1 => makeArray interfaces (arrayWithin interfaces depth)

/-- The array of an element.  Every array that has to be made implements the interfaces. -/
def arrayOf (element : ElementType) (interfaces : List Identity) : Building Identity := do
  arrayWithin interfaces (← get).entries.size element

end ClassTable

end RuntimeTypes
