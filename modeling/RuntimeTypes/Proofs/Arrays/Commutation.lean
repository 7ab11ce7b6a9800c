/-
The order in which arrays are requested does not matter.

Requests make the arrays of supertypes by the way, so two orders make the same array at
different times and in the course of different requests.  The tables at the end have the
same names all the same, and are equal up to a renaming of the arrays.

That the names are the same is shown one request at a time.  A request takes the names of
the arrays that its element needs (`WantedNames`), and what is needed there is in the other
table at its end: the array of a class is not made there without the arrays that it needs
(`Siblings.needs_found`).
-/
import RuntimeTypes.Proofs.Arrays.Renaming

namespace RuntimeTypes

namespace ClassTable

open Relation

/-! ### Requests for many arrays -/

/-- An array type: what its innermost arrays hold, and the number of dimensions beyond the first. -/
structure ArrayType where
  element : ElementType
  further : Nat
  deriving DecidableEq, Repr

/-- Request so many dimensions above an array, each from the one before. -/
def requestFurther (interfaces : List Identity) : Nat → Identity → Building Identity
  | 0, array => pure array
  | n + 1, array => do requestFurther interfaces n (← arrayOf (.ofClass array) interfaces)

/-- Request an array type, each dimension from its element's array. -/
def requestType (interfaces : List Identity) (type : ArrayType) : Building Identity := do
  requestFurther interfaces type.further (← arrayOf type.element interfaces)

/-- Request array types, one after the other. -/
def requestAll (interfaces : List Identity) : List ArrayType → Building Unit
  | [] => pure ()
  | type :: rest => do
    let _ ← requestType interfaces type
    requestAll interfaces rest

/-- Arrays can have this element: a primitive type other than `void`, or a loaded class. -/
def ElementOf (t : ClassTable) : ElementType → Prop
  | .primitive type => type.isReference = false ∧ type ≠ .void
  | .ofClass id => ∃ body, t.bodyAt? id = some body

/-- Every array type of the second list is in the first, or an array type of more dimensions over the
same element is. -/
def Covers (types types' : List ArrayType) : Prop :=
  ∀ type ∈ types', ∃ wider ∈ types, wider.element = type.element ∧ type.further ≤ wider.further

variable {t u u' : ClassTable} {interfaces : List Identity}

theorem ElementOf.arrayPlan {element : ElementType} (h : t.ElementOf element) :
    ∃ plan, t.arrayPlan element = .ok plan := by
  cases element with
  | primitive type =>
      obtain ⟨href, hvoid⟩ := h
      simp only [ClassTable.arrayPlan]
      rw [if_neg (by simp [href, hvoid])]
      exact ⟨_, rfl⟩
  | ofClass x =>
      obtain ⟨b, hb⟩ := h
      exact arrayPlan_of_bodyAt? hb

/-! ### Array types that are found -/

/-- What is found as the array with so many further dimensions over an element. -/
inductive Found (t : ClassTable) (element : ElementType) : Nat → Identity → Prop
  | first {plan : ArrayPlan} {array : Identity} : t.arrayPlan element = .ok plan →
      t.names.get? (plan.loader, plan.name) = some array → Found t element 0 array
  | further {n : Nat} {a array : Identity} : Found t element n a → t.arrayAt? a = some array →
      Found t element (n + 1) array

/-- The elements whose arrays the request for an array type asks for. -/
inductive Asked (t : ClassTable) (type : ArrayType) : ElementType → Prop
  | first : Asked t type type.element
  | further {n : Nat} {a : Identity} : n < type.further → t.Found type.element n a →
      Asked t type (.ofClass a)

section

variable {element : ElementType} {n : Nat} {array : Identity}

theorem Found.added {K : Loader × String → Prop} (hadd : t.Added K interfaces u)
    (h : t.Found element n array) : u.Found element n array := by
  induction h with
  | first hplan hk => exact .first (hadd.arrayPlan hplan) (hadd.kept _ _ hk)
  | further _ ha ih => exact .further ih (hadd.arrayAt? ha)

theorem Found.fewer (h : t.Found element n array) {m : Nat} (hm : m ≤ n) :
    ∃ a, t.Found element m a := by
  induction h with
  | first hplan hk =>
      obtain rfl := Nat.le_zero.mp hm
      exact ⟨_, .first hplan hk⟩
  | @further n a array hfound ha ih =>
      by_cases hlast : m = n + 1
      · exact ⟨array, hlast ▸ .further hfound ha⟩
      · exact ih (by omega)

/-- What is found is named like an array, so it is loaded. -/
theorem Ready.loaded_of_found (h : t.Ready interfaces) (hf : t.Found element n array) :
    ∃ b, t.bodyAt? array = some b := by
  cases hf with
  | first hplan hk => exact h.loaded_of_isArrayName (isArrayName_of_arrayPlan hplan) hk
  | further _ ha => exact h.loaded_of_arrayAt? ha

end

/-! ### A run of requests -/

/-- Whatever the requests for some array types may name is allowed, after whatever other requests. -/
def Allows (t : ClassTable) (interfaces : List Identity) (K : Loader × String → Prop)
    (types : List ArrayType) : Prop :=
  ∀ s, t.Added (fun _ => True) interfaces s → ∀ type ∈ types, ∀ element, s.Asked type element →
    ∀ key, s.WantedNames element key → K key

section

variable {K : Loader × String → Prop} {types : List ArrayType} {s : ClassTable}

/-- Further dimensions are made above an array that is found. -/
theorem requestFurther_ends (h : t.Ready interfaces) (hK : t.Allows interfaces K types)
    {type : ArrayType} (htype : type ∈ types) (n : Nat) :
    ∀ {s : ClassTable} {m : Nat} {array : Identity}, t.Added (fun _ => True) interfaces s →
      s.Found type.element m array → m + n = type.further →
      Ends (requestFurther interfaces n array) s
        (fun array u => s.Added K interfaces u ∧ u.Found type.element type.further array)
        (fun _ _ => False) := by
  induction n with
  | zero =>
      intro s m array _ hfound hm
      obtain rfl : m = type.further := hm
      exact Ends.pure ⟨.refl s _ _, hfound⟩
  | succ n ih =>
      intro s m array hs hfound hm
      have hready := h.arrayMoves hs.moves
      obtain ⟨b, hb⟩ := hready.loaded_of_found hfound
      obtain ⟨plan, hplan⟩ := arrayPlan_of_bodyAt? hb
      refine (arrayOf_succeeds hready hplan).bind ?_ fun _ _ h' => h'
      rintro next s' ⟨hadd, hname⟩
      have hadd' := hadd.mono (hK s hs type htype _ (.further (by omega) hfound))
      have hnext : s'.Found type.element (m + 1) next :=
        .further (hfound.added hadd) (hadd.arrayAt?_of_plannedName ⟨plan, hplan, rfl⟩ hname)
      refine (ih (hs.trans (hadd.mono fun _ _ => trivial)) hnext (by omega)).mono ?_
        fun _ _ h' => h'
      rintro last u ⟨hlast, hf⟩
      exact ⟨hadd'.trans hlast, hf⟩

theorem requestType_ends (h : t.Ready interfaces) (hK : t.Allows interfaces K types)
    {type : ArrayType} (htype : type ∈ types) (helement : t.ElementOf type.element)
    (hs : t.Added (fun _ => True) interfaces s) :
    Ends (requestType interfaces type) s
      (fun array u => s.Added K interfaces u ∧ u.Found type.element type.further array)
      (fun _ _ => False) := by
  obtain ⟨plan, hplan⟩ := helement.arrayPlan
  have hplan' := hs.arrayPlan hplan
  refine (arrayOf_succeeds (h.arrayMoves hs.moves) hplan').bind ?_ fun _ _ h' => h'
  rintro first s' ⟨hadd, hname⟩
  have hadd' := hadd.mono (hK s hs type htype _ .first)
  refine (requestFurther_ends h hK htype type.further (hs.trans (hadd.mono fun _ _ => trivial))
    (.first (hadd.arrayPlan hplan') hname) (Nat.zero_add _)).mono ?_ fun _ _ h' => h'
  rintro last u ⟨hlast, hf⟩
  exact ⟨hadd'.trans hlast, hf⟩

/-- **All requests succeed**, and each array type is found at the end. -/
theorem requestAll_ends (h : t.Ready interfaces) (hK : t.Allows interfaces K types)
    (helements : ∀ type ∈ types, t.ElementOf type.element) (rest : List ArrayType) :
    ∀ {s : ClassTable}, (∀ type ∈ rest, type ∈ types) → t.Added (fun _ => True) interfaces s →
      Ends (requestAll interfaces rest) s
        (fun _ u => s.Added K interfaces u ∧
          ∀ type ∈ rest, ∃ array, u.Found type.element type.further array)
        (fun _ _ => False) := by
  induction rest with
  | nil => exact fun _ _ => Ends.pure ⟨.refl _ _ _, nofun⟩
  | cons type rest ih =>
      intro s hrest hs
      have htype := hrest type (by simp)
      refine (requestType_ends h hK htype (helements type htype) hs).bind ?_ fun _ _ h' => h'
      rintro array s' ⟨hadd, hfound⟩
      refine (ih (fun o ho => hrest o (by simp [ho]))
        (hs.trans (hadd.mono fun _ _ => trivial))).mono ?_ fun _ _ h' => h'
      rintro _ u ⟨hadd', hall⟩
      refine ⟨hadd.trans hadd', fun o ho => ?_⟩
      rcases List.mem_cons.mp ho with rfl | ho
      · exact ⟨array, hfound.added hadd'⟩
      · exact hall o ho

end

/-! ### Names that are needed are there -/

theorem exists_twin_of_mem {R : Identity → Identity → Prop} {ids ids' : List Identity}
    (h : List.Forall₂ R ids ids') {x : Identity} (hx : x ∈ ids) : ∃ x' ∈ ids', R x x' := by
  induction h with
  | nil => cases hx
  | @cons y y' _ _ hy _ ih =>
      rcases List.mem_cons.mp hx with rfl | hx
      · exact ⟨y', by simp, hy⟩
      · obtain ⟨x', hx', hR⟩ := ih hx
        exact ⟨x', by simp [hx'], hR⟩

/-- What is found above an element in two tables are twins. -/
theorem Siblings.twins_of_found (h : Siblings t interfaces u u') {element : ElementType}
    (helement : t.ElementOf element) {n : Nat} {array array' : Identity}
    (hf : u.Found element n array) (hf' : u'.Found element n array') :
    Twins u u' array array' := by
  obtain ⟨plan, hplan⟩ := helement.arrayPlan
  induction hf generalizing array' with
  | first hp hk =>
      cases hf' with
      | first hp' hk' =>
          obtain rfl := Except.ok.inj ((h.left.arrayPlan hplan).symm.trans hp)
          obtain rfl := Except.ok.inj ((h.right.arrayPlan hplan).symm.trans hp')
          exact ⟨_, hk, hk'⟩
  | further _ ha ih =>
      cases hf' with
      | further hf' ha' => exact twins_of_arrayAt? h.sound_left h.sound_right (ih hf') ha ha'

/-- Where the array of a class is missing in one table and there in the other, the other has the arrays
that it needs. -/
theorem Siblings.needs_found (h : Siblings t interfaces u u') {x x' array s : Identity}
    (hx : Twins u u' x x') (ha : u'.arrayAt? x' = some array) (hn : u.Needs x s) :
    ∃ s' array', Twins u u' s s' ∧ u'.arrayAt? s' = some array' := by
  obtain ⟨hnone, plan, superElement, others, hplan, hl, hs⟩ := hn
  obtain ⟨key, hkey, hkey'⟩ := arrayKey?_of_twins h.sound_left h.sound_right hx
  unfold arrayAt? at ha hnone
  rw [hkey'] at ha
  rw [hkey] at hnone
  obtain ⟨e, he, rfl⟩ := (h.sound_right.named key array).mp ha
  -- An array that was there before would have been found in both tables.
  have hnew : t.entries.size ≤ array.index := by
    refine Nat.le_of_not_lt fun hold => ?_
    rw [h.right.old array hold] at he
    have hk := h.left.kept _ _ ((h.ready.sound.named _ array).mpr ⟨e, he, rfl⟩)
    exact nomatch hk.symm.trans hnone
  obtain ⟨element', plan', chain', secondary', hd⟩ :=
    derived_of_arrayMoves h.ready.sound h.right.moves hnew (index_lt_of_objectAt he)
  obtain rfl := Option.some.inj (hd.entry.symm.trans he)
  have hname := (arrayKey?_of_arrayPlan hplan).symm.trans hkey
  obtain ⟨hloader, hname⟩ := Prod.mk.inj (Option.some.inj hname)
  have hsame := sameElement_of_name h.sound_left h.sound_right hplan hd.planned hname.symm
    hloader.symm
  have hlineage := (h.samePlan hsame hplan hd.planned fun _ _ _ ht => h.alike ht).lineage
  rw [hl] at hlineage
  obtain ⟨inherited, supers, hi, -⟩ := hd.ancestry
  generalize plan'.lineage? = lineage? at hlineage hi
  cases hlineage with
  | some hlineage =>
      cases hi with
      | super hsuper _ hothers =>
          rcases hs with rfl | hs
          · exact ⟨_, _, hlineage.1, hsuper⟩
          · obtain ⟨s', hs', ht⟩ := exists_twin_of_mem hlineage.2 hs
            obtain ⟨array', ha'⟩ := (mem_arraysOf hothers).1 s' hs'
            exact ⟨s', array', ht, ha'⟩

/-- Where the array of a class is there, so is every array that it needs in the other table, and that
those need. -/
theorem Siblings.arrayNames_found (h : Siblings t interfaces u u') {x x' array : Identity}
    (hx : Twins u u' x x') (ha : u'.arrayAt? x' = some array) {key : Loader × String}
    (hk : u.ArrayNames (ReflTransGen u.Needs x) key) : ∃ a', u'.names.get? key = some a' := by
  obtain ⟨y, hy, hykey⟩ := hk
  have hfound : ∃ y' array', Twins u u' y y' ∧ u'.arrayAt? y' = some array' := by
    clear hykey
    induction hy with
    | refl => exact ⟨x', array, hx, ha⟩
    | tail _ hn ih =>
        obtain ⟨y', array', ht, ha'⟩ := ih
        exact h.needs_found ht ha' hn
  obtain ⟨y', array', ht, ha'⟩ := hfound
  obtain ⟨key', hkey, hkey'⟩ := arrayKey?_of_twins h.sound_left h.sound_right ht
  obtain rfl := Option.some.inj (hkey.symm.trans hykey)
  unfold arrayAt? at ha'
  rw [hkey'] at ha'
  exact ⟨array', ha'⟩

/-- What the request for an array type may name is there in a table where the type is found. -/
theorem Siblings.wanted_found (h : Siblings t interfaces u u') {type : ArrayType}
    (helement : t.ElementOf type.element) {n : Nat} {array : Identity} (hn : type.further ≤ n)
    (hf : u'.Found type.element n array) {element : ElementType} (hasked : u.Asked type element)
    {key : Loader × String} (hk : u.WantedNames element key) :
    ∃ a', u'.names.get? key = some a' := by
  cases hasked with
  | first =>
      obtain ⟨a, ha⟩ := hf.fewer (Nat.zero_le n)
      generalize type.element = element at ha hk helement
      obtain ⟨plan, hplan⟩ := helement.arrayPlan
      cases ha with
      | first hp hname =>
          obtain rfl := Except.ok.inj ((h.right.arrayPlan hplan).symm.trans hp)
          cases element with
          | primitive type =>
              obtain ⟨plan', hp', rfl⟩ := hk
              obtain rfl := Except.ok.inj ((h.left.arrayPlan hplan).symm.trans hp')
              exact ⟨a, hname⟩
          | ofClass x =>
              obtain ⟨b, hb⟩ := helement
              exact h.arrayNames_found (h.twins_loaded hb)
                (h.right.arrayAt?_of_plannedName ⟨plan, hplan, rfl⟩ hname) hk
  | @further m a hm hfound =>
      obtain ⟨next, hnext⟩ := hf.fewer (m := m + 1) (by omega)
      cases hnext with
      | further hfound' ha' =>
          exact h.arrayNames_found (h.twins_of_found helement hfound hfound') ha' hk

/-- Requests take no names but those of a table in which all their array types are found. -/
theorem namesWithin_of_covers (h : t.Ready interfaces) {types types' : List ArrayType}
    (helements : ∀ type ∈ types, t.ElementOf type.element) (hcovers : Covers types' types)
    (hu : requestAll interfaces types t = .ok () u) (hu' : t.Added (fun _ => True) interfaces u')
    (hfound : ∀ type ∈ types', ∃ array, u'.Found type.element type.further array) :
    NamesWithin u u' := by
  have hallows : t.Allows interfaces (fun key => ∃ a', u'.names.get? key = some a') types := by
    intro s hs type htype element hasked key hk
    obtain ⟨wider, hwider, helement, hle⟩ := hcovers type htype
    obtain ⟨array, hf⟩ := hfound wider hwider
    rw [helement] at hf
    exact Siblings.wanted_found ⟨h, hs, hu'⟩ (helements type htype) hle hf hasked hk
  obtain ⟨hadd, -⟩ :=
    (requestAll_ends h hallows helements types (fun _ ht => ht) (.refl t _ _)).of_ok hu
  intro key a hk
  rcases hadd.new key a hk with hk | hk
  · exact ⟨a, hu'.kept key a hk⟩
  · exact hk

/-- Requests that lead to the same array types, in whatever order, succeed, and the tables at the end are
equal up to a renaming of what they have made. -/
theorem Ready.requestAll_renamed (h : t.Ready interfaces) {types types' : List ArrayType}
    (helements : ∀ type ∈ types, t.ElementOf type.element) (hcovers : Covers types types')
    (hcovers' : Covers types' types) :
    ∃ u u' f, requestAll interfaces types t = .ok () u ∧
      requestAll interfaces types' t = .ok () u' ∧
      (∀ id : Identity, id.index < t.entries.size → f id = id) ∧ Renamed f u u' := by
  have helements' : ∀ type ∈ types', t.ElementOf type.element := by
    intro type htype
    obtain ⟨wider, hwider, helement, -⟩ := hcovers type htype
    exact helement ▸ helements wider hwider
  have hall : ∀ types, t.Allows interfaces (fun _ => True) types := by
    intro types s _ type _ element _ key _
    trivial
  obtain ⟨⟨⟩, u, hu, hadd, hfound⟩ :=
    (requestAll_ends h (hall types) helements types (fun _ ht => ht) (.refl t _ _)).exists_ok
  obtain ⟨⟨⟩, u', hu', hadd', hfound'⟩ :=
    (requestAll_ends h (hall types') helements' types' (fun _ ht => ht) (.refl t _ _)).exists_ok
  have hn := namesWithin_of_covers h helements hcovers' hu hadd' hfound'
  have hn' := namesWithin_of_covers h helements' hcovers hu' hadd hfound
  obtain ⟨f, hfix, hrenamed⟩ := Siblings.renamed ⟨h, hadd, hadd'⟩ hn hn'
  exact ⟨u, u', f, hu, hu', hfix, hrenamed⟩

/-- **Array creation commutes.**  A table without arrays, made by whatever operations on classes and
interfaces, is asked for array types with one list of loaded interfaces, in two orders.  All requests
succeed, and the tables at the end are equal up to a renaming of the arrays. -/
theorem requestAll_commutes {rootName : String} {capacity : Display.Capacity} {ops : List Op}
    (hops : ∀ op ∈ ops, op.OfClasses) (ht : t = (create rootName capacity).after ops)
    (hinterfaces : ∀ i ∈ interfaces, ∃ b, t.bodyAt? i = some b ∧ b.shape = .interface)
    {types types' : List ArrayType} (helements : ∀ type ∈ types, t.ElementOf type.element)
    (hcovers : Covers types types') (hcovers' : Covers types' types) :
    ∃ u u' f, requestAll interfaces types t = .ok () u ∧
      requestAll interfaces types' t = .ok () u' ∧
      (∀ id : Identity, id.index < t.entries.size → f id = id) ∧ Renamed f u u' := by
  subst ht
  exact (ready_after hops hinterfaces).requestAll_renamed helements hcovers hcovers'

/-- Two interfaces, a class that implements one of them, and a class below that one which was declared
before it. -/
def classesOnly : List Op :=
  [.define (.interface "I"),
    .define (.interface "J"),
    .declare Loader.bootstrap "B",
    .define ((ClassFile.ordinary "A").implementing [Identity.ofIndex 2]),
    .complete (Identity.ofIndex 3)
      { ClassFile.ordinary "B" with superclass := some (Identity.ofIndex 4) }]

/-- Two dimensions over the class below, one over the class above, and one over a primitive type. -/
def arrayTypes : List ArrayType :=
  [⟨.ofClass (Identity.ofIndex 3), 1⟩, ⟨.ofClass (Identity.ofIndex 4), 0⟩, ⟨.primitive .int, 0⟩]

/-- What stands under a name after requests that succeed. -/
def namedAfter (interfaces : List Identity) (types : List ArrayType) (t : ClassTable)
    (key : Loader × String) : Option Identity :=
  match requestAll interfaces types t with
  | .ok _ u => u.names.get? key
  | .error _ _ => none

/-- In one order the array of the class above is made in the course of the first request, in the other
by its own request; and the array of the primitive type is last in one and first in the other. -/
theorem requestAll_commutes_reversed :
    (∀ op ∈ classesOnly, op.OfClasses) ∧
      ∃ u u' f,
        requestAll [Identity.ofIndex 1] arrayTypes
            ((create "Object" Display.Capacity.standard).after classesOnly) = .ok () u ∧
          requestAll [Identity.ofIndex 1] arrayTypes.reverse
            ((create "Object" Display.Capacity.standard).after classesOnly) = .ok () u' ∧
          Renamed f u u' ∧ f (Identity.ofIndex 14) = Identity.ofIndex 5 := by
  have hops : ∀ op ∈ classesOnly, op.OfClasses := by decide
  have hinterfaces : ∀ i ∈ [Identity.ofIndex 1], ∃ b,
      ((create "Object" Display.Capacity.standard).after classesOnly).bodyAt? i = some b ∧
        b.shape = .interface := by
    intro i hi
    obtain rfl := List.mem_singleton.mp hi
    exact ⟨_, rfl, rfl⟩
  have helements : ∀ type ∈ arrayTypes,
      ((create "Object" Display.Capacity.standard).after classesOnly).ElementOf type.element := by
    simp only [arrayTypes, List.forall_mem_cons]
    exact ⟨⟨_, rfl⟩, ⟨_, rfl⟩, ⟨rfl, nofun⟩, nofun⟩
  have hcovers : Covers arrayTypes arrayTypes.reverse := fun type htype =>
    ⟨type, List.mem_reverse.mp htype, rfl, Nat.le_refl _⟩
  have hcovers' : Covers arrayTypes.reverse arrayTypes := fun type htype =>
    ⟨type, List.mem_reverse.mpr htype, rfl, Nat.le_refl _⟩
  obtain ⟨u, u', f, hu, hu', -, hrenamed⟩ :=
    requestAll_commutes hops rfl hinterfaces helements hcovers hcovers'
  have hlast : namedAfter [Identity.ofIndex 1] arrayTypes
      ((create "Object" Display.Capacity.standard).after classesOnly) (Loader.bootstrap, "[I")
        = some (Identity.ofIndex 14) := by decide +kernel
  have hfirst : namedAfter [Identity.ofIndex 1] arrayTypes.reverse
      ((create "Object" Display.Capacity.standard).after classesOnly) (Loader.bootstrap, "[I")
        = some (Identity.ofIndex 5) := by decide +kernel
  simp only [namedAfter, hu] at hlast
  simp only [namedAfter, hu', hrenamed.names, hlast, Option.map_some] at hfirst
  exact ⟨hops, u, u', f, hu, hu', hrenamed, Option.some.inj hfirst⟩

end ClassTable

end RuntimeTypes
