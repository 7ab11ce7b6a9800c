/-
The two ancestor tests agree on classes.

A subclass test goes through the whole chain.  A subtype test of an ordinary class looks at
the display as long as the class owns a slot, and at the secondary supertypes otherwise.
Three things make them agree.  A class stands at its own depth on every chain that it is
on, so the slot at its depth holds it or it is not on the chain.  A class on the chain that
has no slot is listed.  And no class is listed that is not on the chain, though the list is
put together from the superclass's, the interfaces' and the arrays of other types.

The last is what names have to do with it: an array lists what is found as the arrays of its
element's supertypes, and if a class could be defined under the name of an array it would
be found there.  So nothing but an array is to be named like one.  The root class is no
harm, as it is on every chain.
-/
import RuntimeTypes.Proofs.Arrays.Making
import RuntimeTypes.Proofs.Capacity.Answers

namespace RuntimeTypes

open Relation

/-! ### Records that tell classes from other types -/

namespace Archive

variable {A B : Archive} {capacity : Display.Capacity}

/-- A class on a chain stands there at its own depth. -/
theorem Coherent.getElem?_chain_iff (h : A.Coherent capacity) {id s : Identity} {b sb : ClassBody}
    (hb : A id = some b) (hs : A s = some sb) :
    b.ancestry.chain[sb.ancestry.chain.length]? = some s ↔ s ∈ b.ancestry.chain := by
  refine ⟨List.mem_of_getElem?, fun hmem => ?_⟩
  obtain ⟨i, hi⟩ := List.mem_iff_getElem?.mp hmem
  obtain ⟨sb', hs', htake⟩ := h.chain_take _ hb rfl i s hi
  obtain rfl := Option.some.inj (hs.symm.trans hs')
  have hlt := (List.getElem?_eq_some_iff.mp hi).1
  rwa [htake, List.length_take_of_le (Nat.le_of_lt hlt)]

/-- A record lists the classes on its chain that have no slot, and no other classes. -/
structure ListsOwnClasses (A : Archive) (capacity : Display.Capacity) (a : AncestryRecord) :
    Prop where
  placed : ∃ may, a = .place capacity may a.chain a.secondary
  spilled : ∀ s ∈ a.chain.drop capacity.slots, s ∈ a.secondary
  /-- What is listed and not on the chain is an interface or an array. -/
  listed : ∀ s ∈ a.secondary, s ∈ a.chain ∨ ∃ b, A s = some b ∧ b.shape ≠ .instanceClass

theorem ListsOwnClasses.mono (h : Within A B) {a : AncestryRecord}
    (hr : A.ListsOwnClasses capacity a) : B.ListsOwnClasses capacity a where
  placed := hr.placed
  spilled := hr.spilled
  listed := fun s hs => (hr.listed s hs).imp_right fun ⟨b, hb, hshape⟩ => ⟨b, h s b hb, hshape⟩

/-- A record that goes on from such a record, and adds nothing to the list but its own chain and
types that are no classes. -/
theorem ListsOwnClasses.below {a pa : AncestryRecord} {p : Identity}
    (hr : A.ListsOwnClasses capacity pa)
    (hplaced : ∃ may, a = .place capacity may a.chain a.secondary) (hchain : a.chain = pa.chain ++ [p])
    (hspilled : ∀ s ∈ a.chain.drop capacity.slots, s ∈ a.secondary)
    (hlisted : ∀ s ∈ a.secondary, s ∈ a.chain ∨ s ∈ pa.secondary ∨
      ∃ b, A s = some b ∧ b.shape ≠ .instanceClass) : A.ListsOwnClasses capacity a where
  placed := hplaced
  spilled := hspilled
  listed := by
    intro s hs
    rcases hlisted s hs with hs | hs | hs
    · exact Or.inl hs
    · refine (hr.listed s hs).imp_left fun hs => ?_
      rw [hchain]
      exact List.mem_append_left _ hs
    · exact Or.inr hs

/-- Loading keeps to this: what interfaces contribute are interfaces. -/
theorem Loads.listsOwnClasses {d : ClassFile} {body superBody : ClassBody}
    (hl : A.Loads capacity d body superBody) (hall : A.AllLawful capacity)
    (hr : A.ListsOwnClasses capacity superBody.ancestry) :
    A.ListsOwnClasses capacity body.ancestry := by
  refine hr.below ⟨_, hl.placed⟩ hl.chain (fun s hs => (hl.mem_secondary s).mpr (Or.inl hs)) ?_
  intro s hs
  rcases (hl.mem_secondary s).mp hs with hs | hs | hs
  · exact Or.inl (List.mem_of_mem_drop hs)
  · exact Or.inr (Or.inl hs)
  · obtain ⟨i, -, ib, hib, hshape, hlaw, rfl | hs⟩ := hl.contributor hall hs
    · exact Or.inr (Or.inr ⟨ib, hib, by simp [hshape]⟩)
    · obtain ⟨sb, hsb, hshape'⟩ := (hlaw.interfaces hshape).2 s hs
      exact Or.inr (Or.inr ⟨sb, hsb, by simp [hshape']⟩)

end Archive

/-- **The two tests agree** about an ordinary class. -/
theorem Snapshot.isSubtype_eq_isSubclass {A : Archive} {capacity : Display.Capacity}
    {sub sup : Snapshot} {b b' : ClassBody} (hc : A.Coherent capacity) (hsub : sub.TrueTo b)
    (hsup : sup.TrueTo b') (hb : A sub.identity = some b) (hb' : A sup.identity = some b')
    (hr : A.ListsOwnClasses capacity b.ancestry) (hlaw : A.Lawful capacity b')
    (hshape : sup.shape = .instanceClass) : sub.isSubtype sup = sub.isSubclass sup := by
  have hshape' : b'.shape = .instanceClass := hsup.shape ▸ hshape
  obtain ⟨may, hplaced⟩ := hlaw.placed
  obtain ⟨htarget, hlt⟩ := AncestryRecord.checkTarget_of_place hplaced hsup.checkTarget
  have hcapacity : b.ancestry.capacity = capacity.slots := by
    obtain ⟨may, ha⟩ := hr.placed
    rw [ha]
    rfl
  have hown : b'.ancestry.ownsSlot = decide (b'.ancestry.chain.length < capacity.slots) := by
    rw [hlaw.ownsSlot, hshape']
    rfl
  have hdepth := hc.getElem?_chain_iff hb hb'
  unfold isSubtype isSubclass
  by_cases hid : sub.identity = sup.identity
  · rw [if_pos hid, if_pos hid]
  rw [if_neg hid, if_neg hid, if_neg (by simp [hshape]), htarget, Bool.eq_iff_iff,
    List.contains_iff_mem, hsub.chain]
  cases howns : b'.ancestry.ownsSlot with
  | true =>
      rw [if_pos rfl]
      simp only [decide_eq_true_eq]
      rw [hsub.superAt? (hcapacity ▸ hlt howns), hdepth]
  | false =>
      rw [if_neg Bool.false_ne_true]
      simp only
      rw [List.contains_iff_mem, hsub.secondary]
      constructor
      · intro hmem
        refine (hr.listed _ hmem).resolve_right ?_
        rintro ⟨sb, hsb, hno⟩
        obtain rfl := Option.some.inj (hb'.symm.trans hsb)
        exact hno hshape'
      · intro hmem
        have hge : capacity.slots ≤ b'.ancestry.chain.length := by simpa [hown] using howns
        refine hr.spilled _ (List.mem_of_getElem? (i := b'.ancestry.chain.length - capacity.slots) ?_)
        rw [List.getElem?_drop, Nat.add_sub_cancel' hge, hdepth.mpr hmem]

/-- About an interface a subclass test only tells whether it is the type itself. -/
theorem Session.Faithful.isSubclass_interface {A : Archive} {s : Session} (hf : s.Faithful A)
    {a b : HandleRef} {ca cb : Snapshot} (ha : s.Holds a ca) (hb : s.Holds b cb)
    (hshape : cb.shape = .interface) : s.isSubclass a b = .ok (decide (a = b)) := by
  rw [ha.isSubclass hb]
  unfold Snapshot.isSubclass
  by_cases hid : ca.identity = cb.identity
  · rw [if_pos hid]
    simp [hf.ref_inj ha hb hid]
  · have hne : a ≠ b := by
      rintro rfl
      exact hid (congrArg Snapshot.identity (ha.inj hb))
    rw [if_neg hid, if_pos hshape]
    simp [hne]

namespace ClassTable

variable {A A' : Archive} {log log' : LoadLog} {t t' : ClassTable}

/-! ### Names -/

/-- An operation that names no class like an array. -/
def Op.PlainlyNamed : Op → Prop
  | .define d => isArrayName d.name = false
  | .declare _ name => isArrayName name = false
  | _ => True

instance : DecidablePred Op.PlainlyNamed
  | .define d => inferInstanceAs (Decidable (isArrayName d.name = false))
  | .declare _ name => inferInstanceAs (Decidable (isArrayName name = false))
  | .newLoader _ | .complete _ _ | .arrayOf _ _ | .unload _ => isTrue trivial

/-- What is named like an array is a loaded array, unless it is the root. -/
def ArraysNamed (t : ClassTable) : Prop :=
  ∀ id entry, t.objectAt id = some entry → isArrayName entry.name = true →
    id = root ∨ ∃ b, entry.body? = some b ∧ b.shape.isArray = true

namespace ArraysNamed

/-- What is found as an array is one, or the root. -/
theorem of_arrayAt? (h : t.ArraysNamed) (hs : t.Sound) {x array : Identity}
    (ha : t.arrayAt? x = some array) :
    array = root ∨ ∃ b, t.bodyAt? array = some b ∧ b.shape.isArray = true := by
  obtain ⟨key, hkey, hk⟩ := Option.bind_eq_some_iff.mp ha
  obtain ⟨element, -, rfl⟩ := Option.map_eq_some_iff.mp hkey
  obtain ⟨entry, he, hname⟩ := (hs.named _ array).mp hk
  obtain ⟨-, hname⟩ := Prod.mk.inj hname
  refine (h array entry he (hname ▸ isArrayName_append _)).imp_right ?_
  rintro ⟨b, hb, hn⟩
  exact ⟨b, bodyAt?_eq_some.mpr ⟨entry, he, hb⟩, hn⟩

theorem add (h : t.ArraysNamed) {entry : ClassObject}
    (hentry : isArrayName entry.name = true → ∃ b, entry.body? = some b ∧ b.shape.isArray = true) :
    (t.add entry).ArraysNamed := by
  intro id e he hname
  rw [objectAt_add] at he
  split at he
  · obtain rfl := Option.some.inj he
    exact Or.inr (hentry hname)
  · exact h id e he hname

/-- A declared class is not named like an array, so completing it makes no difference. -/
theorem complete (h : t.ArraysNamed) {id : Identity} {entry : ClassObject}
    {body : ClassBody} (he : t.objectAt id = some entry) (hnone : entry.body? = none) :
    (t.put id (some { entry with body? := some body })).ArraysNamed := by
  intro other e ho hname
  rw [objectAt_put (index_lt_of_objectAt he)] at ho
  split at ho
  · rename_i hother
    obtain rfl := Option.some.inj ho
    rcases h id entry he hname with hroot | ⟨b, hb, -⟩
    · exact Or.inl (hother.trans hroot)
    · rw [hnone] at hb
      cases hb
  · exact h other e ho hname

theorem without (h : t.ArraysNamed) {id : Identity} {entry : ClassObject}
    (he : t.objectAt id = some entry) : (t.without id entry).ArraysNamed := by
  intro other e ho hname
  rw [objectAt_without he] at ho
  split at ho
  · cases ho
  · exact h other e ho hname

end ArraysNamed

/-! ### Arrays -/

section Makes

variable {element : ElementType} {interfaces chain secondary : List Identity} {plan : ArrayPlan}

/-- Making an array keeps to this: what it lists besides are arrays and interfaces. -/
theorem Makes.listsOwnClasses (hm : t.Makes element interfaces plan chain secondary) (hs : t.Sound)
    (hc : Chronicle A log t) (hnamed : t.ArraysNamed)
    (hall : ∀ id b, A id = some b → A.ListsOwnClasses t.capacity b.ancestry) :
    A.ListsOwnClasses t.capacity (t.arrayBody plan chain secondary).ancestry := by
  obtain ⟨inherited, hi, hmem⟩ := hm.supers
  have hinterface : ∀ s, Archive.Contributes t.bodyAt? interfaces s →
      ∃ b, A s = some b ∧ b.shape ≠ .instanceClass := by
    intro s hcontrib
    obtain ⟨sb, hsb, hshape⟩ := hc.contributes_interface hm.areInterfaces hcontrib
    exact ⟨sb, hsb, by simp [hshape]⟩
  have hspilled : ∀ s ∈ chain.drop t.capacity.slots, s ∈ secondary := fun s hdrop =>
    (hmem s).mpr (Or.inr (Or.inr hdrop))
  generalize plan.lineage? = lineage? at hi
  cases hi with
  | root =>
      obtain ⟨rootBody, hroot, -, hplaced⟩ := hc.coherent.rootAt
      have hempty : rootBody.ancestry.chain = [] := by rw [hplaced]; rfl
      refine (hall root rootBody hroot).below ⟨_, rfl⟩ (by rw [hempty]; rfl) hspilled ?_
      intro s hlist
      rcases (hmem s).mp hlist with hlist | hlist | hlist
      · cases hlist
      · exact Or.inr (Or.inr (hinterface s hlist))
      · exact Or.inl (List.mem_of_mem_drop hlist)
  | @super superElement superArray others arrays superBody hfound hbody hothers =>
      refine (hall superArray superBody (hc.live _ _ hbody)).below ⟨_, rfl⟩ rfl hspilled ?_
      intro s hlist
      rcases (hmem s).mp hlist with hlist | hlist | hlist
      · rcases mem_appendNew.mp hlist with hlist | hlist
        · exact Or.inr (Or.inl hlist)
        · obtain ⟨other, -, harray⟩ := ((mem_arraysOf hothers).2 s).mp hlist
          rcases hnamed.of_arrayAt? hs harray with rfl | ⟨b, hb, hn⟩
          · refine Or.inl ?_
            show root ∈ superBody.ancestry.chain ++ [superArray]
            by_cases hroot : superArray = root
            · simp [hroot]
            · exact List.mem_append_left _ (hc.coherent.root_mem_chain (hc.live _ _ hbody) hroot)
          · refine Or.inr (Or.inr ⟨b, hc.live s b hb, ?_⟩)
            intro hshape
            rw [hshape] at hn
            cases hn
      · exact Or.inr (Or.inr (hinterface s hlist))
      · exact Or.inl (List.mem_of_mem_drop hlist)

end Makes

/-! ### Operations -/

/-- The invariant. -/
structure Classed (A : Archive) (t : ClassTable) : Prop where
  records : ∀ id b, A id = some b → A.ListsOwnClasses t.capacity b.ancestry
  named : t.ArraysNamed

/-- It is enough to look at the records that are new. -/
theorem Classed.gain (h : Classed A t) (hlive : Archive.Within t.bodyAt? A)
    (hA : Archive.Gains A t'.bodyAt? A') (hcap : t'.capacity = t.capacity)
    (hnew : ∀ id b, t'.bodyAt? id = some b →
      t.bodyAt? id = some b ∨ A.ListsOwnClasses t.capacity b.ancestry)
    (hnamed : t'.ArraysNamed) : Classed A' t' := by
  refine ⟨fun id b hb => ?_, hnamed⟩
  rw [hcap]
  rcases hA.only id b hb with hold | hb
  · exact (h.records id b hold).mono hA.keeps
  · rcases hnew id b hb with hold | hr
    · exact (h.records id b (hlive id b hold)).mono hA.keeps
    · exact hr.mono hA.keeps

theorem ArrayMove.classed {interfaces : List Identity} (hm : ArrayMove interfaces t t')
    (hs : t.Sound) (hc : Chronicle A log t) (h : Classed A t) :
    ∃ A', Archive.Gains A t'.bodyAt? A' ∧ Chronicle A' log t' ∧ Classed A' t' := by
  obtain ⟨A', hA, hc'⟩ := hm.chronicle hc
  refine ⟨A', hA, hc', ?_⟩
  obtain ⟨element, hm⟩ := hm
  cases hm with
  | array _ _ plan chain secondary hmakes =>
      refine h.gain hc.live hA rfl ?_ (h.named.add fun _ => ⟨_, rfl, rfl⟩)
      intro id b hb
      rcases bodyAt?_add_cases hb with ⟨-, hb⟩ | ⟨-, hb⟩
      · obtain rfl := Option.some.inj hb
        exact Or.inr (hmakes.listsOwnClasses hs hc h.named h.records)
      · exact Or.inl hb

theorem classed_arrayMoves {interfaces : List Identity}
    (hm : ReflTransGen (ArrayMove interfaces) t t') (hs : t.Sound) (hc : Chronicle A log t)
    (h : Classed A t) :
    ∃ A', Archive.Gains A t'.bodyAt? A' ∧ Chronicle A' log t' ∧ Classed A' t' := by
  induction hm with
  | refl => exact ⟨A, .refl A _, hc, h⟩
  | tail hmoves hmove ih =>
      obtain ⟨A', hA', hc', h'⟩ := ih
      obtain ⟨A'', hA'', hc'', h''⟩ := hmove.classed (hs.arrayMoves hmoves) hc' h'
      exact ⟨A'', hA'.trans hA'' hmove.within, hc'', h''⟩

/-- **Every operation that names no class like an array** keeps records that list no other classes
than those on their chains. -/
theorem Ran.classed {op : Op} {reply : Except TableRefusal Reply} (hr : Ran t op reply t')
    (hnames : op.PlainlyNamed) (hs : t.Sound) (hc : Chronicle A log t) (h : Classed A t) :
    ∃ A', Archive.Gains A t'.bodyAt? A' ∧ Chronicle A' (log ++ op.loads reply) t' ∧
      Classed A' t' := by
  obtain ⟨A', hA, hc'⟩ := hr.chronicle hc
  have hloads : ∀ {d body sb}, Archive.Loads t.bodyAt? t.capacity d body sb →
      A.ListsOwnClasses t.capacity body.ancestry := by
    intro d body sb hl
    have hla := hl.mono hc.live
    exact hla.listsOwnClasses hc.lawful (h.records _ _ hla.superAt)
  cases hr with
  | refused _ e => exact ⟨A, .refl A _, by simpa using hc, h⟩
  | newLoader hm =>
      cases hm with
      | newLoader _ _ => exact ⟨A', hA, hc', h.gain hc.live hA rfl (fun _ _ => Or.inl) h.named⟩
  | define hm =>
      cases hm with
      | define d body sb _ _ hl =>
          refine ⟨A', hA, hc', h.gain hc.live hA rfl ?_ (h.named.add fun hn =>
            absurd hn (by simpa [Op.PlainlyNamed] using hnames))⟩
          intro id b hb
          rcases bodyAt?_add_cases hb with ⟨-, hb⟩ | ⟨-, hb⟩
          · obtain rfl := Option.some.inj hb
            exact Or.inr (hloads hl)
          · exact Or.inl hb
  | declare hm =>
      cases hm with
      | declare loader name _ _ =>
          refine ⟨A', hA, hc', h.gain hc.live hA rfl ?_ (h.named.add fun hn =>
            absurd hn (by simpa [Op.PlainlyNamed] using hnames))⟩
          intro id b hb
          rcases bodyAt?_add_cases hb with ⟨-, hb⟩ | ⟨-, hb⟩
          · cases hb
          · exact Or.inl hb
  | complete hm =>
      cases hm with
      | complete id d entry body sb he hnone hl =>
          refine ⟨A', hA, hc', h.gain hc.live hA rfl ?_ (h.named.complete he hnone)⟩
          intro x b hb
          rcases bodyAt?_put_cases (index_lt_of_objectAt he) hb with ⟨-, rfl⟩ | ⟨-, hb⟩
          · exact Or.inr (hloads hl)
          · exact Or.inl hb
  | unload hm =>
      cases hm with
      | unload id entry he _ =>
          refine ⟨A', hA, hc', h.gain hc.live hA rfl ?_ (h.named.without he)⟩
          exact fun x b hb => Or.inl (bodyAt?_of_without he hb)
  | array hm _ => simpa [Op.loads] using classed_arrayMoves hm hs hc h
  | arrayRefused _ hm => simpa using classed_arrayMoves hm hs hc h

theorem classed_create (rootName : String) (capacity : Display.Capacity) :
    Classed (create rootName capacity).bodyAt? (create rootName capacity) where
  records := by
    intro id b hb
    obtain ⟨-, -, hplaced⟩ := bodyAt?_create hb
    exact ⟨⟨true, by rw [hplaced]; rfl⟩, by rw [hplaced]; simp, by rw [hplaced]; simp⟩
  named := by
    intro id entry he _
    rw [objectAt_create] at he
    split at he
    · exact Or.inl ‹_›
    · cases he

end ClassTable

/-! ### Programs -/

namespace Program

open ClassTable

/-- An event that names no class like an array. -/
def Event.PlainlyNamed : Event → Prop
  | .perform op => op.PlainlyNamed
  | _ => True

instance : DecidablePred Event.PlainlyNamed
  | .perform op => inferInstanceAs (Decidable op.PlainlyNamed)
  | .openSession _ | .request _ _ | .atGate _ => isTrue trivial

variable {p : Program ClassTable} {A : Archive} {log : LoadLog}

/-- The table has a chronicle, and its records list no other classes than those on their chains. -/
structure Classified (p : Program ClassTable) (A : Archive) (log : LoadLog) : Prop where
  recorded : p.Recorded A log
  classed : Classed A p.heap.store

theorem Classified.step (h : p.Classified A log) {e : Event} (hnames : e.PlainlyNamed) :
    ∃ A', Archive.Within A A' ∧ (p.step e).Classified A' (log ++ Event.loads p e) := by
  obtain ⟨hp, hcl⟩ := h
  by_cases he : ∃ op, e = .perform op
  · obtain ⟨op, rfl⟩ := he
    obtain ⟨A', hA, hc, hcl'⟩ :=
      (p.perform_ran hp.sound op).1.classed hnames hp.sound hp.chronicle hcl
    exact ⟨A', hA.keeps, hp.performed hA.keeps hc, hcl'⟩
  · obtain ⟨hstore, hrecorded⟩ := hp.idle fun op hop => he ⟨op, hop⟩
    rw [Event.loads_eq_nil fun op hop => he ⟨op, hop⟩, List.append_nil]
    exact ⟨A, .refl A, hrecorded, hstore ▸ hcl⟩

theorem Classified.after (h : p.Classified A log) {events : List Event}
    (hnames : ∀ e ∈ events, e.PlainlyNamed) :
    ∃ A', Archive.Within A A' ∧ (p.after events).Classified A' (log ++ p.loads events) := by
  refine logged_after (G := fun _ events => ∀ e ∈ events, e.PlainlyNamed) ?_ hnames h
  intro p A log e rest h hnames
  exact ⟨fun e' he' => hnames e' (List.mem_cons_of_mem e he'), h.step (hnames e List.mem_cons_self)⟩

/-- **The two ancestor tests agree on classes** in every session, if no event has named a class like an
array: about an ordinary class they give the same answer whatever the other type is, and a subclass
test of an interface tells no more than whether the two types are one. -/
theorem isSubclass_agrees (rootName : String) (capacity : Display.Capacity) {events : List Event}
    (hnames : ∀ e ∈ events, e.PlainlyNamed) {i : Nat} {s : Session} {a b : HandleRef}
    {ca cb : Snapshot}
    (hs : ((start (create rootName capacity)).after events).sessions[i]? = some s)
    (ha : s.Holds a ca) (hb : s.Holds b cb) :
    (cb.shape = .instanceClass →
      ∃ answer, s.isSubclass a b = .ok answer ∧ s.isSubtype a b = .ok answer) ∧
    (cb.shape = .interface → s.isSubclass a b = .ok (decide (a = b))) := by
  obtain ⟨A, -, h, hcl⟩ := Classified.after
    ⟨recorded_start rootName capacity, classed_create rootName capacity⟩ hnames
  have hf := h.faithful i s hs
  refine ⟨fun hshape => ⟨ca.isSubclass cb, ha.isSubclass hb, ?_⟩, hf.isSubclass_interface ha hb⟩
  obtain ⟨ba, hba, hca⟩ := hf.trueTo ha
  obtain ⟨bb, hbb, hcb⟩ := hf.trueTo hb
  have hlaw := h.chronicle.lawful _ _ hbb (by rw [← hcb.shape, hshape]; rfl)
  rw [ha.isSubtype hb, Snapshot.isSubtype_eq_isSubclass h.chronicle.coherent hca hcb hba hbb
    (hcl.records _ _ hba) hlaw hshape]

/-- Three classes below each other, the last of which implements an interface and has an array; the
first is removed.  A session has resolved the last class, the second and the interface, and the array
of the last. -/
def deepClasses : List Event :=
  [.perform (.define (.ordinary "A")),
    .perform (.define { ClassFile.ordinary "B" with superclass := some (Identity.ofIndex 1) }),
    .perform (.define (.interface "I")),
    .perform (.define
      { (ClassFile.ordinary "C").implementing [Identity.ofIndex 3] with
        superclass := some (Identity.ofIndex 2) }),
    .perform (.arrayOf (.ofClass (Identity.ofIndex 4)) []),
    .perform (.unload (Identity.ofIndex 1)),
    .openSession {},
    .request 0 (.resolve (Identity.ofIndex 4)),
    .request 0 (.resolve (Identity.ofIndex 2)),
    .request 0 (.resolve (Identity.ofIndex 3)),
    .request 0 (.resolve (Identity.ofIndex 9))]

/-- With two slots the second class has none, so the subtype test of it looks at the list.  The
interface is a supertype of the last class and no ancestor class of it. -/
theorem isSubclass_agrees_deepClasses :
    (∀ e ∈ deepClasses, e.PlainlyNamed) ∧ ∃ s last second interface array,
      ((start (create "Object" twoSlots)).after deepClasses).sessions[0]? = some s ∧
        s.Holds ⟨0, 0⟩ last ∧ s.Holds ⟨0, 1⟩ second ∧ s.Holds ⟨0, 2⟩ interface ∧
        s.Holds ⟨0, 3⟩ array ∧ second.shape = .instanceClass ∧ interface.shape = .interface ∧
        array.shape = .array .object ∧ second.ancestry.ownsSlot = false ∧
        s.isSubclass ⟨0, 0⟩ ⟨0, 1⟩ = .ok true ∧
        (∃ answer, s.isSubclass ⟨0, 0⟩ ⟨0, 1⟩ = .ok answer ∧ s.isSubtype ⟨0, 0⟩ ⟨0, 1⟩ = .ok answer) ∧
        (∃ answer, s.isSubclass ⟨0, 3⟩ ⟨0, 1⟩ = .ok answer ∧ s.isSubtype ⟨0, 3⟩ ⟨0, 1⟩ = .ok answer) ∧
        s.isSubclass ⟨0, 0⟩ ⟨0, 2⟩ = .ok false ∧ s.isSubtype ⟨0, 0⟩ ⟨0, 2⟩ = .ok true := by
  have hnames : ∀ e ∈ deepClasses, e.PlainlyNamed := by decide
  refine ⟨hnames, _, _, _, _, _, rfl, ⟨_, rfl, rfl⟩, ⟨_, rfl, rfl⟩, ⟨_, rfl, rfl⟩, ⟨_, rfl, rfl⟩, rfl,
    rfl, rfl, rfl, rfl, ?_, ?_, ?_, rfl⟩
  · exact (isSubclass_agrees "Object" twoSlots hnames (i := 0) rfl (a := ⟨0, 0⟩) (b := ⟨0, 1⟩)
      ⟨_, rfl, rfl⟩ ⟨_, rfl, rfl⟩).1 rfl
  · exact (isSubclass_agrees "Object" twoSlots hnames (i := 0) rfl (a := ⟨0, 3⟩) (b := ⟨0, 1⟩)
      ⟨_, rfl, rfl⟩ ⟨_, rfl, rfl⟩).1 rfl
  · exact (isSubclass_agrees "Object" twoSlots hnames (i := 0) rfl (a := ⟨0, 0⟩) (b := ⟨0, 2⟩)
      ⟨_, rfl, rfl⟩ ⟨_, rfl, rfl⟩).2 rfl

/-- A class that has been defined under the name of the interface's array is listed by an array whose
chain it is not on. -/
example :
    let p := (start (create "Object" ⟨1, by decide, by decide⟩)).after
      [.perform (.define (.interface "I")),
        .perform (.define (.ordinary "[LI;")),
        .perform (.define ((ClassFile.ordinary "A").implementing [Identity.ofIndex 1])),
        .perform (.arrayOf (.ofClass (Identity.ofIndex 3)) []),
        .openSession {},
        .request 0 (.resolve (Identity.ofIndex 5)),
        .request 0 (.resolve (Identity.ofIndex 2))]
    ∃ s, p.sessions[0]? = some s ∧ s.isSubtype ⟨0, 0⟩ ⟨0, 1⟩ = .ok true ∧
      s.isSubclass ⟨0, 0⟩ ⟨0, 1⟩ = .ok false :=
  ⟨_, rfl, rfl, rfl⟩

end Program

end RuntimeTypes
