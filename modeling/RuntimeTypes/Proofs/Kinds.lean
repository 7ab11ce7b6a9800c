/-
What a class is can be told from its shape, its flags and its layout alike.

The flags of a class or interface come from its class file, those of an array are worked out
from its element, and the shape and the layout of a class that is completed replace the ones
that it was declared with.  So there are three sources of bodies, the root, loading and the
making of arrays, and each gives a body whose parts fit together (`KindFits`); no operation
changes a body afterwards.

A superclass can be extended at the moment when a class is loaded below it, and what stands
above it has been extended before.  Both may be unloaded later on while the class still names
them, so what stands above a class is told from all moments of a run and not from the
table as it is.
-/
import RuntimeTypes.Proofs.Acyclicity
import RuntimeTypes.Proofs.ClassFile
import RuntimeTypes.Proofs.Layouts

namespace RuntimeTypes

/-! ### Layouts -/

namespace Layout

theorem isArray_ofArray (element : BasicType) :
    (ofArray element ClassTable.arrayHeaderSize).isArray = true := by
  cases element <;> decide

end Layout

/-! ### The parts of a body -/

/-- The class has instances of its own. -/
def Concrete (shape : ClassShape) (flags : ClassAccess) : Prop :=
  shape = .instanceClass ∧ Access.has flags.access Access.isAbstract = false

/-- The shape, the flags and the layout of a class fit together. -/
structure KindFits (shape : ClassShape) (flags : ClassAccess) (layout : Layout) : Prop where
  interface : shape = .interface ↔ Access.has flags.access Access.isInterface = true
  modifier : flags.modifier = flags.access &&& Access.modifierMask
  array : layout.isArray = true ↔ shape.isArray = true
  concrete : layout.isInstance = true ↔ Concrete shape flags
  neutral : layout.isNeutral = true ↔ ¬shape.isArray = true ∧ ¬Concrete shape flags

section

variable {shape : ClassShape} {flags : ClassAccess} {layout : Layout}

/-- A layout that is neither an array's nor that of instances is neutral. -/
theorem kindFits_of_layout
    (interface : shape = .interface ↔ Access.has flags.access Access.isInterface = true)
    (modifier : flags.modifier = flags.access &&& Access.modifierMask)
    (array : layout.isArray = true ↔ shape.isArray = true)
    (concrete : layout.isInstance = true ↔ Concrete shape flags) : KindFits shape flags layout :=
  ⟨interface, modifier, array, concrete, by rw [layout.isNeutral_iff, array, concrete]⟩

theorem kindFits_ofInstance (hbit : Access.has flags.access Access.isInterface = false)
    (hmodifier : flags.modifier = flags.access &&& Access.modifierMask)
    (habstract : Access.has flags.access Access.isAbstract = false) (size : UInt32) :
    KindFits .instanceClass flags (.ofInstance size) := by
  have hinstance := Layout.isInstance_ofInstance size
  have hnot := Layout.not_isArray_and_isInstance (.ofInstance size)
  apply kindFits_of_layout
  · simp [hbit]
  · exact hmodifier
  · simpa [hinstance] using hnot
  · simp [Concrete, hinstance, habstract]

theorem kindFits_neutral
    (hbit : shape = .interface ↔ Access.has flags.access Access.isInterface = true)
    (hmodifier : flags.modifier = flags.access &&& Access.modifierMask)
    (harray : shape.isArray = false) (hconcrete : ¬Concrete shape flags) :
    KindFits shape flags .neutral := by
  apply kindFits_of_layout
  · exact hbit
  · exact hmodifier
  · simp [Layout.isArray, Layout.neutral, harray]
  · simp [Layout.isInstance, Layout.neutral, hconcrete]

end

namespace ClassTable

variable {t : ClassTable}

/-- **Loading a class gives it flags and a layout that fit its shape**, whatever its class file
says. -/
theorem kindFits_bodyOf {d : ClassFile} {body : ClassBody} (h : t.bodyOf d = .ok body) :
    KindFits body.shape body.flags body.layout := by
  obtain ⟨superBody, chain, secondary, -, -, -, -, rfl⟩ := bodyOf_cases h
  have hbit := d.has_access_isInterface
  unfold layoutOf
  cases hi : d.isInterface with
  | true => exact kindFits_neutral (by simp [hbit, hi]) rfl rfl nofun
  | false =>
      simp only [hi, Bool.false_eq_true, if_false, Bool.false_or] at hbit ⊢
      cases ha : Access.has d.access Access.isAbstract with
      | true => exact kindFits_neutral (by simp [hbit]) rfl rfl (by simp [Concrete, ha])
      | false => exact kindFits_ofInstance hbit rfl ha d.instanceSize

theorem access_arrayPlan {element : ElementType} {plan : ArrayPlan}
    (h : t.arrayPlan element = .ok plan) : plan.access &&& Access.isPublic = plan.access := by
  cases element with
  | primitive type =>
      simp only [arrayPlan] at h
      split at h
      · cases h
      · obtain rfl := Except.ok.inj h
        exact UInt32.and_self
  | ofClass id =>
      obtain ⟨entry, body, -, -, rfl⟩ := arrayPlan_ofClass_eq_ok h
      simp [UInt32.and_assoc]

/-- **The flags and the layout of an array fit its shape** as well. -/
theorem kindFits_arrayBody {element : ElementType} {plan : ArrayPlan}
    (h : t.arrayPlan element = .ok plan) (chain secondary : List Identity) :
    let body := t.arrayBody plan chain secondary
    KindFits body.shape body.flags body.layout := by
  -- All the access that an array may share with its element is one bit.
  have hshared : ∀ flag, plan.access &&& flag = plan.access &&& (Access.isPublic &&& flag) := by
    intro flag
    rw [← UInt32.and_assoc, access_arrayPlan h]
  have hbit : Access.has plan.access Access.isInterface = false := by
    rw [Access.has, hshared, show Access.isPublic &&& Access.isInterface = 0 by decide,
      UInt32.and_zero]
    rfl
  have hmask : plan.access &&& Access.modifierMask = plan.access := by
    rw [hshared, show Access.isPublic &&& Access.modifierMask = Access.isPublic by decide,
      access_arrayPlan h]
  have habstract : Access.isAbstract &&& Access.modifierMask = Access.isAbstract := by decide
  have hfinal : Access.isFinal &&& Access.modifierMask = Access.isFinal := by decide
  have hlayout := Layout.isArray_ofArray plan.element
  have hnot := Layout.not_isArray_and_isInstance (.ofArray plan.element arrayHeaderSize)
  apply kindFits_of_layout
  · have hrest : Access.has (Access.isAbstract ||| Access.isFinal) Access.isInterface = false := by
      decide
    simp [arrayBody, UInt32.or_assoc, Access.has_or _ (_ ||| _), hbit, hrest]
  · simp only [arrayBody, Access.or_and_distrib, hmask, habstract, hfinal]
  · simp [arrayBody, hlayout, ClassShape.isArray]
  · simpa [arrayBody, Concrete, hlayout] using hnot

end ClassTable

namespace Program

open ClassTable

variable {p : Program ClassTable} {A : Archive} {log : LoadLog}

/-! ### What stands above a class -/

/-- At some moment of a run other classes could extend this one. -/
def Extended (p : Program ClassTable) (events : List Event) (id : Identity) : Prop :=
  ∃ e b, p.Knew events id e ∧ e.body? = some b ∧ b.Extensible

theorem Extended.mono {events later : List Event} (hbefore : events <+: later) {id : Identity}
    (h : p.Extended events id) : p.Extended later id := by
  obtain ⟨e, b, hknew, hb, hext⟩ := h
  exact ⟨e, b, hknew.mono hbefore, hb, hext⟩

/-- The parts of the body fit together, and all that stands above a class or interface has been
extensible. -/
structure WellKinded (p : Program ClassTable) (events : List Event) (b : ClassBody) : Prop where
  fits : KindFits b.shape b.flags b.layout
  extended : b.shape.isArray = false → ∀ s ∈ b.ancestry.chain, p.Extended events s

theorem WellKinded.mono {events later : List Event} (hbefore : events <+: later) {b : ClassBody}
    (h : p.WellKinded events b) : p.WellKinded later b :=
  ⟨h.fits, fun hn s hs => (h.extended hn s hs).mono hbefore⟩

/-- A class is loaded below a superclass that the table has at that moment. -/
theorem wellKinded_bodyOf {past events : List Event} (hpast : past <+: events)
    (h : (p.after past).heap.store.Everywhere fun _ b => p.WellKinded events b) {d : ClassFile}
    {body : ClassBody} (hbody : (p.after past).heap.store.bodyOf d = .ok body) :
    p.WellKinded events body where
  fits := kindFits_bodyOf hbody
  extended := by
    intro _ s hs
    obtain ⟨superBody, chain, secondary, hsuper, hext, rfl, -, rfl⟩ := bodyOf_cases hbody
    rcases List.mem_append.mp hs with hs | hs
    · exact (h _ _ hsuper).extended (by simp [hext.ordinary]) s hs
    · obtain rfl : s = superclassOf d := by simpa using hs
      obtain ⟨entry, he, hb⟩ := bodyAt?_eq_some.mp hsuper
      exact ⟨entry, superBody, ⟨past, hpast, he⟩, hb, hext⟩

theorem wellKinded_step (hrecorded : p.Recorded A log) {past : List Event}
    (h : (p.after past).heap.store.Everywhere fun _ b => p.WellKinded past b) (e : Event) :
    (p.after (past ++ [e])).heap.store.Everywhere fun _ b => p.WellKinded (past ++ [e]) b := by
  obtain ⟨A', -, hpast⟩ := hrecorded.after past
  have hbefore : past <+: past ++ [e] := List.prefix_append past [e]
  have hold : (p.after past).heap.store.Everywhere fun _ b => p.WellKinded (past ++ [e]) b :=
    fun id b hb => (h id b hb).mono hbefore
  rw [after_append]
  rcases hpast.step_store e with hstore | ⟨op, hstore⟩
  · exact hstore ▸ hold
  · refine hstore ▸ op.run_everywhere hpast.sound hold ?_ ?_
    · exact fun _ d body hbody => wellKinded_bodyOf hbefore hold hbody
    · exact fun hmakes _ => ⟨kindFits_arrayBody hmakes.planned _ _, nofun⟩

/-- **Every class that a table has loaded is of one kind**, whatever happens to the program. -/
theorem wellKinded_after (rootName : String) (capacity : Display.Capacity) (events : List Event) :
    ((start (create rootName capacity)).after events).heap.store.Everywhere
      fun _ b => (start (create rootName capacity)).WellKinded events b := by
  induction events using List.reverseRecOn with
  | nil =>
      intro id b hb
      obtain ⟨entry, he, hbody⟩ := bodyAt?_eq_some.mp hb
      rw [show ((start (create rootName capacity)).after []).heap.store = create rootName capacity
        from rfl, objectAt_create] at he
      split at he
      · obtain rfl := Option.some.inj he
        obtain rfl := Option.some.inj hbody
        have hfits : KindFits .instanceClass
            ⟨Access.isPublic ||| Access.isSuper, Access.isPublic⟩ (.ofInstance 16) :=
          kindFits_ofInstance (by decide) (by decide) (by decide) 16
        exact ⟨hfits, fun _ s hs => absurd hs List.not_mem_nil⟩
      · cases he
  | append_singleton past e ih => exact wellKinded_step (recorded_start rootName capacity) ih e

/-- After some events, what is read of each class of a program is that of a class of one kind.
The class files among the events are any that clauses can write (`ClassFile.exists_written`). -/
structure KeepsKinds (p : Program ClassTable) (events : List Event) : Prop where
  /-- The shape, the flags and the layout of a loaded class fit together. -/
  loaded : ∀ id e, (p.after events).heap.store.objectAt id = some e → e.loadStatus = .loaded →
    KindFits e.shape e.flags e.layout
  /-- All that stands above a loaded class or interface was loaded as an ordinary class that is not
  final, and is the same still unless it has been unloaded. -/
  chain : ∀ id e b, (p.after events).heap.store.objectAt id = some e → e.body? = some b →
    b.shape.isArray = false → ∀ s ∈ b.ancestry.chain,
      ∃ above c, p.Knew events s above ∧ above.body? = some c ∧ c.Extensible ∧
        ∀ now, (p.after events).heap.store.objectAt s = some now → now = above
  /-- A class that is not loaded has a neutral layout, no flags and no ancestry. -/
  unloaded : ∀ id e, (p.after events).heap.store.objectAt id = some e → e.loadStatus = .unloaded →
    e.layout = .neutral ∧ e.flags = {} ∧
      ancestryOf e = .error (.storeFailure (e.name ++ " is not loaded"))

/-- **Kinds, flags and layouts stay consistent**, whatever happens to a program and however its
class files are written. -/
theorem keepsKinds_after (rootName : String) (capacity : Display.Capacity) (events : List Event) :
    (start (create rootName capacity)).KeepsKinds events where
  loaded := by
    intro id e he hloaded
    cases hb : e.body? with
    | none => simp [ClassObject.loadStatus, hb] at hloaded
    | some b =>
        have hkinded := wellKinded_after rootName capacity events id b
          (bodyAt?_eq_some.mpr ⟨e, he, hb⟩)
        simpa [ClassObject.shape, ClassObject.flags, ClassObject.layout, hb] using hkinded.fits
  chain := by
    intro id e b he hb hn s hs
    have hstart := recorded_start rootName capacity
    have hkinded := wellKinded_after rootName capacity events id b
      (bodyAt?_eq_some.mpr ⟨e, he, hb⟩)
    obtain ⟨above, c, ⟨past, hpast, habove⟩, hc, hext⟩ := hkinded.extended hn s hs
    refine ⟨above, c, ⟨past, hpast, habove⟩, hc, hext, ?_⟩
    intro now hnow
    exact hstart.eq_of_prefix hpast habove hc hnow
  unloaded := by
    intro id e he hunloaded
    cases hb : e.body? with
    | some b => simp [ClassObject.loadStatus, hb] at hunloaded
    | none => simp [ClassObject.layout, ClassObject.flags, ancestryOf, hb]

end Program

end RuntimeTypes
