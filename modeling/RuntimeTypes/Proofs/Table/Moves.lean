/-
What a class table can do in one piece.

An operation either is refused, or changes the table by a `Move`: one entry more, one
declared entry completed, one entry removed, one loader more.  Only a request for an
array may take several, as it makes the supertype arrays first.  Each constructor of
`Move` states everything that the operation has checked by then, so what holds of
every table with a history is shown move by move and never by looking at the
operations again.

`bodyOf_cases` says once what loading a class works out.  The order of the secondary
supertypes of a class is of no concern to what is shown of moves, so `addInterfaces_eq_ok`
and `bodyOf_eq_ok` say which types are in the list and no more.  Of an array `Makes` has
the list itself, and `Makes.supers` says which types are in it.
-/
import Mathlib.Data.List.Forall2
import RuntimeTypes.ClassTable.History
import RuntimeTypes.Proofs.Archive

namespace RuntimeTypes

namespace ClassTable

/-! ### Reading a table -/

/-- What loading gave a class, if the table has it and it is loaded. -/
def bodyAt? (t : ClassTable) : Archive := fun id => (t.objectAt id).bind (·.body?)

/-- The table has the class, and it is not loaded. -/
def Declared (t : ClassTable) (id : Identity) : Prop :=
  ∃ entry, t.objectAt id = some entry ∧ entry.body? = none

/-- `s` is among the supertypes that the record of `id` names. -/
def Above (t : ClassTable) (id s : Identity) : Prop :=
  ∃ body, t.bodyAt? id = some body ∧ s ∈ body.ancestry.supers

theorem bodyAt?_eq_some {t : ClassTable} {id : Identity} {body : ClassBody} :
    t.bodyAt? id = some body ↔ ∃ entry, t.objectAt id = some entry ∧ entry.body? = some body := by
  simp [bodyAt?, Option.bind_eq_some_iff]

theorem bodyAt?_of_loaded {t : ClassTable} {id : Identity} {entry : ClassObject} {body : ClassBody}
    (h : t.loaded id = .ok (entry, body)) : t.bodyAt? id = some body :=
  bodyAt?_eq_some.mpr ⟨entry, loaded_eq_ok_iff.mp h⟩

theorem Declared.bodyAt?_eq_none {t : ClassTable} {id : Identity} (h : t.Declared id) :
    t.bodyAt? id = none := by
  obtain ⟨entry, hentry, hbody⟩ := h
  simp [bodyAt?, hentry, hbody]

theorem index_lt_of_objectAt {t : ClassTable} {id : Identity} {entry : ClassObject}
    (h : t.objectAt id = some entry) : id.index < t.entries.size := by
  refine Nat.lt_of_not_le fun hc => ?_
  simp [objectAt, Array.getElem?_eq_none hc] at h

theorem objectAt_freshId (t : ClassTable) : t.objectAt t.freshId = none := by
  simp [objectAt, freshId]

@[simp] theorem index_freshId (t : ClassTable) : t.freshId.index = t.entries.size := rfl

@[simp] theorem size_add (t : ClassTable) (entry : ClassObject) :
    (t.add entry).entries.size = t.entries.size + 1 := by
  simp [add]

@[simp] theorem capacity_add (t : ClassTable) (entry : ClassObject) :
    (t.add entry).capacity = t.capacity := rfl

theorem bodyAt?_add (t : ClassTable) (entry : ClassObject) (id : Identity) :
    (t.add entry).bodyAt? id = if id = t.freshId then entry.body? else t.bodyAt? id := by
  unfold bodyAt?
  rw [objectAt_add]
  split <;> rfl

/-! ### Rewriting one entry -/

/-- The table with another content at a position that exists. -/
def put (t : ClassTable) (id : Identity) (content : Option ClassObject) : ClassTable :=
  { t with entries := t.entries.setIfInBounds id.index content }

@[simp] theorem size_put (t : ClassTable) (id : Identity) (content : Option ClassObject) :
    (t.put id content).entries.size = t.entries.size := by
  simp [put]

theorem objectAt_put {t : ClassTable} {id : Identity} (h : id.index < t.entries.size)
    (content : Option ClassObject) (other : Identity) :
    (t.put id content).objectAt other = if other = id then content else t.objectAt other := by
  unfold objectAt put
  by_cases ho : other = id
  · simp [ho, h]
  · have hne : id.index ≠ other.index := fun e => ho (Identity.index_inj.mp e).symm
    simp [ho, Array.getElem?_setIfInBounds_ne hne]

theorem bodyAt?_put {t : ClassTable} {id : Identity} (h : id.index < t.entries.size)
    (content : Option ClassObject) (other : Identity) :
    (t.put id content).bodyAt? other
      = if other = id then content.bind (·.body?) else t.bodyAt? other := by
  unfold bodyAt?
  rw [objectAt_put h]
  split <;> rfl

/-- The table without an entry and without its name. -/
def without (t : ClassTable) (id : Identity) (entry : ClassObject) : ClassTable :=
  { t.put id none with names := t.names.erase (entry.loader, entry.name) }

/-! ### What loading works out -/

theorem addInterface_eq_ok {t : ClassTable} {supers out : List Identity} {id : Identity}
    (h : t.addInterface supers id = .ok out) :
    ∃ body, t.bodyAt? id = some body ∧ body.shape = .interface ∧
      out = appendNew supers (id :: body.ancestry.secondary) := by
  unfold addInterface at h
  cases hl : t.loaded id with
  | error e => simp [hl, bind, Except.bind] at h
  | ok found =>
      obtain ⟨entry, body⟩ := found
      simp only [hl, bind, Except.bind] at h
      split at h
      · rename_i hshape
        exact ⟨body, bodyAt?_of_loaded hl, hshape, (Except.ok.inj h).symm⟩
      · cases h

/-- All the interfaces are loaded interfaces, and what they contribute is added to the list. -/
theorem addInterfaces_eq_ok {t : ClassTable} {interfaces : List Identity} :
    ∀ {supers out : List Identity}, t.addInterfaces supers interfaces = .ok out →
      (∀ i ∈ interfaces, ∃ body, t.bodyAt? i = some body ∧ body.shape = .interface) ∧
      ∀ s, s ∈ out ↔ s ∈ supers ∨ Archive.Contributes t.bodyAt? interfaces s := by
  induction interfaces with
  | nil =>
      intro supers out h
      obtain rfl : supers = out := by simpa [addInterfaces, pure, Except.pure] using h
      exact ⟨by simp, by simp [Archive.Contributes]⟩
  | cons i rest ih =>
      intro supers out h
      unfold addInterfaces at h
      rw [List.foldlM_cons] at h
      cases hi : t.addInterface supers i with
      | error e => simp [hi, bind, Except.bind] at h
      | ok next =>
          simp only [hi, bind, Except.bind] at h
          obtain ⟨body, hbody, hshape, rfl⟩ := addInterface_eq_ok hi
          obtain ⟨hall, hmem⟩ := ih h
          refine ⟨?_, ?_⟩
          · intro j hj
            rcases List.mem_cons.mp hj with rfl | hj
            · exact ⟨body, hbody, hshape⟩
            · exact hall j hj
          · intro s
            rw [hmem, mem_appendNew, List.mem_cons]
            constructor
            · rintro ((hs | hs) | ⟨j, hj, hs⟩)
              · exact Or.inl hs
              · exact Or.inr ⟨i, by simp, body, hbody, hs⟩
              · exact Or.inr ⟨j, by simp [hj], hs⟩
            · rintro (hs | ⟨j, hj, bj, hbj, hs⟩)
              · exact Or.inl (Or.inl hs)
              · rcases List.mem_cons.mp hj with rfl | hj
                · rw [hbody] at hbj
                  cases hbj
                  exact Or.inl (Or.inr hs)
                · exact Or.inr ⟨j, hj, bj, hbj, hs⟩

theorem requireExtensible_eq_ok {entry : ClassObject} {body : ClassBody} {u : Unit}
    (h : requireExtensible entry body = .ok u) : body.Extensible := by
  unfold requireExtensible at h
  split at h
  · cases h
  · cases h
  · rename_i hshape
    split at h
    · cases h
    · rename_i hfinal
      exact ⟨hshape, Bool.eq_false_iff.mpr hfinal⟩

/-- What loading has looked at, and the body that it makes of that. -/
theorem bodyOf_cases {t : ClassTable} {d : ClassFile} {body : ClassBody}
    (h : t.bodyOf d = .ok body) : ∃ superBody chain secondary,
      t.bodyAt? (superclassOf d) = some superBody ∧ superBody.Extensible ∧
      chain = superBody.ancestry.chain ++ [superclassOf d] ∧
      t.addInterfaces (appendNew (appendNew [] (chain.drop t.capacity.slots))
        superBody.ancestry.secondary) d.interfaces = .ok secondary ∧
      body =
        { shape := if d.isInterface then .interface else .instanceClass
          flags := ⟨d.access, d.access &&& Access.modifierMask⟩
          layout := layoutOf d
          ancestry := .place t.capacity (!d.isInterface) chain secondary } := by
  unfold bodyOf at h
  cases hl : t.loaded (superclassOf d) with
  | error e => simp [hl, bind, Except.bind] at h
  | ok found =>
      obtain ⟨superEntry, superBody⟩ := found
      simp only [hl, bind, Except.bind] at h
      split at h
      · cases h
      · rename_i hext
        split at h
        · cases h
        · rename_i secondary hsec
          exact ⟨superBody, _, secondary, bodyAt?_of_loaded hl, requireExtensible_eq_ok hext, rfl,
            hsec, (Except.ok.inj h).symm⟩

theorem bodyOf_eq_ok {t : ClassTable} {d : ClassFile} {body : ClassBody}
    (h : t.bodyOf d = .ok body) :
    ∃ superBody, Archive.Loads t.bodyAt? t.capacity d body superBody := by
  obtain ⟨superBody, chain, secondary, hsuper, hext, rfl, hsec, rfl⟩ := bodyOf_cases h
  obtain ⟨hall, hmem⟩ := addInterfaces_eq_ok hsec
  refine ⟨superBody, hsuper, hext.ordinary, rfl, hall, rfl, ?_, rfl⟩
  intro s
  simp only [AncestryRecord.secondary_place, AncestryRecord.chain_place, hmem,
    mem_appendNew, List.not_mem_nil, false_or, or_assoc]

/-! ### Arrays -/

/-- The loader and the name under which the array of a class is found. -/
def arrayKey? (t : ClassTable) (element : Identity) : Option (Loader × String) :=
  (t.objectAt element).map fun entry => (entry.loader, "[" ++ elementDescriptor entry.name)

/-- The class that is found as the array of a class. -/
def arrayAt? (t : ClassTable) (element : Identity) : Option Identity :=
  (t.arrayKey? element).bind t.names.get?

/-- The chain, and the secondary supertypes to begin with, of an array whose element has this
lineage. -/
inductive Inherits (t : ClassTable) :
    Option (Identity × List Identity) → List Identity → List Identity → Prop
  | root : Inherits t none [root] []
  | super {superElement superArray : Identity} {others arrays : List Identity}
      {superBody : ClassBody} :
      t.arrayAt? superElement = some superArray → t.bodyAt? superArray = some superBody →
      List.Forall₂ (fun other array => t.arrayAt? other = some array) others arrays →
      Inherits t (some (superElement, others)) (superBody.ancestry.chain ++ [superArray])
        (appendNew superBody.ancestry.secondary arrays)

/-- The arrays of the further supertypes are those that are found. -/
theorem mem_arraysOf {t : ClassTable} {others arrays : List Identity}
    (h : List.Forall₂ (fun other array => t.arrayAt? other = some array) others arrays) :
    (∀ other ∈ others, ∃ array, t.arrayAt? other = some array) ∧
      ∀ s, s ∈ arrays ↔ ∃ other ∈ others, t.arrayAt? other = some s := by
  induction h with
  | nil => simp
  | @cons other array others arrays hfound _ ih =>
      obtain ⟨hall, hmem⟩ := ih
      refine ⟨?_, fun s => ?_⟩
      · intro o ho
        rcases List.mem_cons.mp ho with rfl | ho
        · exact ⟨array, hfound⟩
        · exact hall o ho
      · simp only [List.mem_cons, hmem, exists_eq_or_imp, hfound, Option.some.injEq,
          eq_comm (a := array)]

/-- The chain and the secondary supertypes of an array whose element has this lineage. -/
def ArrayAncestry (t : ClassTable) (interfaces : List Identity)
    (lineage? : Option (Identity × List Identity)) (chain secondary : List Identity) : Prop :=
  ∃ inherited supers, t.Inherits lineage? chain inherited ∧
    t.addInterfaces inherited interfaces = .ok supers ∧
      secondary = appendNew supers (chain.drop t.capacity.slots)

/-- The plan, chain and secondary supertypes of an array that a request with these interfaces makes:
everything that `makeArray` has checked and worked out. -/
structure Makes (t : ClassTable) (element : ElementType) (interfaces : List Identity)
    (plan : ArrayPlan) (chain secondary : List Identity) : Prop where
  planned : t.arrayPlan element = .ok plan
  unused : t.names.get? (plan.loader, plan.name) = none
  ancestry : t.ArrayAncestry interfaces plan.lineage? chain secondary

section

variable {t : ClassTable} {element : ElementType} {interfaces chain secondary : List Identity}
  {plan : ArrayPlan}

theorem Makes.areInterfaces (hm : t.Makes element interfaces plan chain secondary) :
    ∀ i ∈ interfaces, ∃ b, t.bodyAt? i = some b ∧ b.shape = .interface := by
  obtain ⟨inherited, supers, -, hsupers, -⟩ := hm.ancestry
  exact (addInterfaces_eq_ok hsupers).1

/-- The types among the secondary supertypes of an array. -/
theorem Makes.supers (hm : t.Makes element interfaces plan chain secondary) :
    ∃ inherited, t.Inherits plan.lineage? chain inherited ∧ ∀ s, s ∈ secondary ↔
      s ∈ inherited ∨ Archive.Contributes t.bodyAt? interfaces s ∨
        s ∈ chain.drop t.capacity.slots := by
  obtain ⟨inherited, supers, hi, hsupers, rfl⟩ := hm.ancestry
  refine ⟨inherited, hi, fun s => ?_⟩
  rw [mem_appendNew, (addInterfaces_eq_ok hsupers).2, or_assoc]

end

/-! ### Moves -/

/-- The table changes in one piece while the operation is carried out.  A request for an array is
the one of its own element here, also where it stands inside another request. -/
inductive Move (t : ClassTable) : Op → ClassTable → Prop
  | newLoader (parent : Loader) : t.loaders.contains parent = true →
      Move t (.newLoader parent) { t with loaders := t.loaders.add parent }
  | define (d : ClassFile) (body superBody : ClassBody) : t.loaders.contains d.loader = true →
      t.names.get? (d.loader, d.name) = none → Archive.Loads t.bodyAt? t.capacity d body superBody →
      Move t (.define d) (t.add { name := d.name, loader := d.loader, body? := some body })
  | declare (loader : Loader) (name : String) : t.loaders.contains loader = true →
      t.names.get? (loader, name) = none →
      Move t (.declare loader name) (t.add { name := name, loader := loader, body? := none })
  | complete (id : Identity) (d : ClassFile) (entry : ClassObject) (body superBody : ClassBody) :
      t.objectAt id = some entry → entry.body? = none →
      Archive.Loads t.bodyAt? t.capacity d body superBody →
      Move t (.complete id d) (t.put id (some { entry with body? := some body }))
  | array (element : ElementType) (interfaces : List Identity) (plan : ArrayPlan)
      (chain secondary : List Identity) : t.Makes element interfaces plan chain secondary →
      Move t (.arrayOf element interfaces)
        (t.add
          { name := plan.name
            loader := plan.loader
            body? := some (t.arrayBody plan chain secondary) })
  | unload (id : Identity) (entry : ClassObject) : t.objectAt id = some entry → id ≠ root →
      Move t (.unload id) (t.without id entry)

end ClassTable

end RuntimeTypes
