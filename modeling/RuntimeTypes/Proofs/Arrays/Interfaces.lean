/-
The interfaces of a request for an array.

A request makes the array of its element and, on the way, whatever arrays of supertypes are
missing.  All of them are made with the interfaces of the request, and it does not matter
how deep in the request and whether it ends well.  An array that is made lists the interfaces
and everything that they list, and its chain starts at the root.  An interface shows nothing
but the root in its own display, so whatever is found above it is found above the array too.

What was in the table before the request is not touched by it.
-/
import RuntimeTypes.Proofs.Acyclicity
import RuntimeTypes.Proofs.Arrays.Making
import RuntimeTypes.Proofs.CommonAncestor

namespace RuntimeTypes

open Relation

/-! ### Checks that find as much -/

namespace Snapshot

variable {sub mid sup : Snapshot}

/-- Whatever the one type shows in its display and lists, the other does. -/
structure Covers (sub mid : Snapshot) : Prop where
  display : ∀ depth id, mid.ancestry.superAt? depth = some id →
    sub.ancestry.superAt? depth = some id
  listed : ∀ id ∈ mid.ancestry.secondary, id ∈ sub.ancestry.secondary

theorem Covers.isSubtype (h : sub.Covers mid) (hne : mid.identity ≠ sup.identity)
    (hsup : mid.isSubtype sup = true) : sub.isSubtype sup = true := by
  unfold Snapshot.isSubtype at hsup ⊢
  rw [if_neg hne] at hsup
  by_cases hid : sub.identity = sup.identity
  · rw [if_pos hid]
  rw [if_neg hid]
  cases htarget : sup.ancestry.checkTarget with
  | display depth =>
      simp only [htarget, decide_eq_true_eq] at hsup ⊢
      exact h.display depth _ hsup
  | secondary =>
      simp only [htarget, List.contains_iff_mem] at hsup ⊢
      exact h.listed _ hsup

theorem isSubtype_of_listed (htarget : sup.ancestry.checkTarget = .secondary)
    (hmem : sup.identity ∈ sub.ancestry.secondary) : sub.isSubtype sup = true := by
  unfold isSubtype
  split
  · rfl
  · simpa only [htarget, List.contains_iff_mem] using hmem

theorem isSubtype_of_shown {depth : Nat} (htarget : sup.ancestry.checkTarget = .display depth)
    (hat : sub.ancestry.superAt? depth = some sup.identity) : sub.isSubtype sup = true := by
  unfold isSubtype
  split
  · rfl
  · simpa only [htarget, decide_eq_true_eq] using hat

end Snapshot

namespace ClassTable

variable {A B : Archive} {log : LoadLog} {t t' : ClassTable} {interfaces : List Identity}

/-! ### Arrays that are made -/

/-- The body of an array that has been made with these interfaces. -/
structure MadeWith (A : Archive) (capacity : Display.Capacity) (interfaces : List Identity)
    (b : ClassBody) : Prop where
  shape : ∃ element, b.shape = .array element
  placed : ∃ may, b.ancestry = .place capacity may b.ancestry.chain b.ancestry.secondary
  rooted : b.ancestry.chain[0]? = some root
  areInterfaces : ∀ i ∈ interfaces, ∃ ib, A i = some ib ∧ ib.shape = .interface
  listed : ∀ s, A.Contributes interfaces s → s ∈ b.ancestry.secondary

theorem MadeWith.mono (h : Archive.Within A B) {capacity : Display.Capacity} {b : ClassBody}
    (hm : MadeWith A capacity interfaces b) : MadeWith B capacity interfaces b where
  shape := hm.shape
  placed := hm.placed
  rooted := hm.rooted
  areInterfaces := Archive.areInterfaces_mono h hm.areInterfaces
  listed := fun s hs => hm.listed s ((Archive.contributes_iff h hm.areInterfaces s).mp hs)

theorem Makes.madeWith {element : ElementType} {plan : ArrayPlan} {chain secondary : List Identity}
    (hm : t.Makes element interfaces plan chain secondary) (hc : Chronicle A log t) :
    MadeWith t.bodyAt? t.capacity interfaces (t.arrayBody plan chain secondary) where
  shape := ⟨plan.element, rfl⟩
  placed := ⟨_, rfl⟩
  rooted := by
    obtain ⟨inherited, hi, -⟩ := hm.supers
    obtain ⟨p, pb, hp, hchain⟩ := hi.parent hc.coherent hc.live
    show chain[0]? = some root
    rw [hchain]
    exact hc.coherent.head_lineage hp
  areInterfaces := hm.areInterfaces
  listed := fun s hs => by
    obtain ⟨inherited, -, hmem⟩ := hm.supers
    exact (hmem s).mpr (Or.inr (Or.inl hs))

/-- **Every array that is made on the way is made with the interfaces.** -/
theorem madeWith_arrayMoves (hm : ReflTransGen (ArrayMove interfaces) t t')
    (hc : Chronicle A log t) {id : Identity} {entry : ClassObject}
    (hnew : t.objectAt id = none) (he : t'.objectAt id = some entry) :
    ∃ b, entry.body? = some b ∧ MadeWith t'.bodyAt? t'.capacity interfaces b := by
  obtain ⟨t₁, element, plan, chain, secondary, hto, hmakes, hfrom, hbody⟩ :=
    exists_makes_of_new hm hnew he
  obtain ⟨A₁, -, hc₁⟩ := chronicle_arrayMoves hto hc
  have hgrows := grows_arrayMoves hfrom
  exact ⟨_, hbody, hgrows.capacity ▸ (hmakes.madeWith hc₁).mono hgrows.bodies⟩

/-- However a request for an array ends, it has only made arrays. -/
theorem Ran.arrayMoves {element : ElementType} {reply : Except TableRefusal Reply}
    (hr : Ran t (.arrayOf element interfaces) reply t') :
    ReflTransGen (ArrayMove interfaces) t t' := by
  cases hr with
  | refused => exact .refl
  | array hm _ => exact hm
  | arrayRefused _ hm => exact hm

/-! ### What is found above them -/

namespace MadeWith

variable {capacity : Display.Capacity} {b : ClassBody} {array : Snapshot}

theorem superAt?_zero (h : MadeWith A capacity interfaces b) (htrue : array.TrueTo b) :
    array.ancestry.superAt? 0 = some root := by
  have hslots : b.ancestry.capacity = capacity.slots := by
    obtain ⟨may, hplaced⟩ := h.placed
    rw [hplaced]
    rfl
  rw [htrue.superAt? (hslots ▸ capacity.pos), h.rooted]

theorem below_root (h : MadeWith A capacity interfaces b) (htrue : array.TrueTo b)
    {top : Snapshot} {rootBody : ClassBody} (htop : top.TrueTo rootBody)
    (hroot : rootBody.ancestry = .place capacity true [] []) (hid : top.identity = root) :
    array.isSubtype top = true ∧ array.Covers top := by
  have hchain : rootBody.ancestry.chain = [] := by rw [hroot]; rfl
  have hsecondary : rootBody.ancestry.secondary = [] := by rw [hroot]; rfl
  have hplaced : rootBody.ancestry
      = .place capacity true rootBody.ancestry.chain rootBody.ancestry.secondary := by
    rw [hchain, hsecondary, hroot]
  have hshown : array.ancestry.superAt? 0 = some top.identity := hid ▸ h.superAt?_zero htrue
  refine ⟨?_, ?_, ?_⟩
  · refine Snapshot.isSubtype_of_shown ?_ hshown
    obtain ⟨htarget, -⟩ := AncestryRecord.checkTarget_of_place hplaced htop.checkTarget
    have howns : rootBody.ancestry.ownsSlot = true := by
      rw [hroot]
      exact decide_eq_true capacity.pos
    rw [htarget, howns, if_pos rfl, hchain]
    rfl
  · intro depth id hat
    have hmem := List.mem_of_mem_take (List.mem_of_getElem? hat)
    rw [htop.chain, hchain] at hmem
    cases hmem
  · intro id hmem
    rw [htop.secondary, hsecondary] at hmem
    cases hmem

theorem below_interface (h : MadeWith A capacity interfaces b) (htrue : array.TrueTo b)
    {i : Snapshot} {ib : ClassBody} (hi : i.TrueTo ib) (hib : A i.identity = some ib)
    (hlaw : A.Lawful capacity ib) (hshape : ib.shape = .interface) (hmem : i.identity ∈ interfaces) :
    array.isSubtype i = true ∧ array.Covers i := by
  obtain ⟨hchain, -⟩ := hlaw.interfaces hshape
  refine ⟨?_, ?_, ?_⟩
  · obtain ⟨may, hplaced⟩ := hlaw.placed
    obtain ⟨htarget, -⟩ := AncestryRecord.checkTarget_of_place hplaced hi.checkTarget
    rw [hlaw.ownsSlot_interface hshape, if_neg Bool.false_ne_true] at htarget
    refine Snapshot.isSubtype_of_listed htarget ?_
    rw [htrue.secondary]
    exact h.listed _ ⟨i.identity, hmem, ib, hib, Or.inl rfl⟩
  · -- The display of an interface has the root in it and nothing else.
    intro depth id hat
    have hat : i.ancestry.chain[depth]? = some id := by
      unfold Ancestry.superAt? Ancestry.display at hat
      rw [List.getElem?_take] at hat
      split at hat
      · exact hat
      · cases hat
    rw [hi.chain, hchain, List.getElem?_singleton] at hat
    split at hat
    · rename_i hdepth
      rw [hdepth, h.superAt?_zero htrue, hat]
    · cases hat
  · intro id hlist
    rw [hi.secondary] at hlist
    rw [htrue.secondary]
    exact h.listed id ⟨i.identity, hmem, ib, hib, Or.inr hlist⟩

end MadeWith

end ClassTable

/-! ### Programs -/

namespace Program

open ClassTable

variable {p : Program ClassTable} {A : Archive} {log : LoadLog}

/-- Any session that has resolved the two classes, at any time, finds the one to be a subtype of the
other, and of whatever it finds the other to be a subtype of. -/
def Under (p : Program ClassTable) (a b : Identity) : Prop :=
  ∀ (later : List Event) (i : Nat) (s : Session), (p.after later).sessions[i]? = some s →
    ∀ ra rb ca cb, s.Holds ra ca → s.Holds rb cb → ca.identity = a → cb.identity = b →
      s.isSubtype ra rb = .ok true ∧
        ∀ r, s.isSubtype rb r = .ok true → s.isSubtype ra r = .ok true

/-- It is enough that snapshots of the two bodies are to each other in this way. -/
theorem Recorded.under (h : p.Recorded A log) {a b : Identity} {ba bb : ClassBody}
    (hba : A a = some ba) (hbb : A b = some bb)
    (hcovers : ∀ ca cb : Snapshot, ca.TrueTo ba → cb.TrueTo bb → cb.identity = b →
      ca.isSubtype cb = true ∧ ca.Covers cb) : p.Under a b := by
  rintro later i s hs ra rb ca cb ha hb rfl rfl
  obtain ⟨A', hA, h'⟩ := h.after later
  have hf := h'.faithful i s hs
  obtain ⟨ba', hba', hca⟩ := hf.trueTo ha
  obtain ⟨bb', hbb', hcb⟩ := hf.trueTo hb
  obtain rfl := Option.some.inj ((hA _ _ hba).symm.trans hba')
  obtain rfl := Option.some.inj ((hA _ _ hbb).symm.trans hbb')
  obtain ⟨hsub, hcov⟩ := hcovers ca cb hca hcb rfl
  have hab : s.isSubtype ra rb = .ok true := (ha.isSubtype hb).trans (congrArg Except.ok hsub)
  refine ⟨hab, fun r hr => ?_⟩
  obtain ⟨-, cr, -, hcr⟩ := Session.holds_of_isSubtype hr
  by_cases hid : cb.identity = cr.identity
  · rwa [← hf.ref_inj hb hcr hid]
  · rw [hb.isSubtype hcr] at hr
    rw [ha.isSubtype hcr, hcov.isSubtype hid (Except.ok.inj hr)]

/-- An array that has been made is under the root and the interfaces. -/
theorem Recorded.under_of_madeWith (h : p.Recorded A log) {interfaces : List Identity}
    {id b : Identity} {body : ClassBody} (hbody : A id = some body)
    (hmade : MadeWith A p.heap.store.capacity interfaces body) (hb : b ∈ root :: interfaces) :
    p.Under id b := by
  rcases List.mem_cons.mp hb with rfl | hi
  · obtain ⟨rootBody, hroot, -, hplaced⟩ := h.chronicle.coherent.rootAt
    exact h.under hbody hroot fun ca cb hca hcb hid => hmade.below_root hca hcb hplaced hid
  · obtain ⟨ib, hib, hshape⟩ := hmade.areInterfaces b hi
    have hlaw := h.chronicle.lawful b ib hib (by simp [hshape])
    refine h.under hbody hib fun ca cb hca hcb hid => ?_
    subst hid
    exact hmade.below_interface hca hcb hib hlaw hshape hi

/-- **The interfaces of a request reach every array that it makes**, whatever has happened to the
program and however the request ends: the array is loaded, and a subtype of the root, of the interfaces
and of whatever they are subtypes of.  What was there before is as it was. -/
theorem arrayOf_under (rootName : String) (capacity : Display.Capacity) (events : List Event)
    (element : ElementType) (interfaces : List Identity) :
    let p := (start (create rootName capacity)).after events
    let p' := (p.perform (.arrayOf element interfaces)).2
    (∀ id : Identity, id.index < p.heap.store.entries.size →
      p'.heap.store.objectAt id = p.heap.store.objectAt id) ∧
    ∀ id entry, p.heap.store.objectAt id = none → p'.heap.store.objectAt id = some entry →
      (∃ body type, entry.body? = some body ∧ body.shape = .array type) ∧
        ∀ b ∈ root :: interfaces, p'.Under id b := by
  intro p p'
  obtain ⟨A, h⟩ := recorded_after rootName capacity events
  have hmoves := (p.perform_ran h.sound (.arrayOf element interfaces)).1.arrayMoves
  refine ⟨(objectAt_arrayMoves hmoves).2, fun id entry hnew he => ?_⟩
  obtain ⟨A', -, h'⟩ := h.perform (.arrayOf element interfaces)
  obtain ⟨body, hbody, hmade⟩ := madeWith_arrayMoves hmoves h.chronicle hnew he
  obtain ⟨type, hshape⟩ := hmade.shape
  have hlive := h'.chronicle.live id body (bodyAt?_eq_some.mpr ⟨entry, he, hbody⟩)
  exact ⟨⟨body, type, hbody, hshape⟩, fun b hb =>
    h'.under_of_madeWith hlive (hmade.mono h'.chronicle.live) hb⟩

/-- An interface, one that extends it, and a class that implements a third, which is then removed. -/
def interfacesAndClass : List Event :=
  [.perform (.define (.interface "J")),
    .perform (.define ((ClassFile.interface "I").implementing [Identity.ofIndex 1])),
    .perform (.define (.interface "K")),
    .perform (.define ((ClassFile.ordinary "A").implementing [Identity.ofIndex 3])),
    .perform (.unload (Identity.ofIndex 3))]

/-- A session that resolves the array of the root and the first two interfaces. -/
def rootArrayResolved : List Event :=
  [.openSession {}, .request 0 (.resolve (Identity.ofIndex 5)),
    .request 0 (.resolve (Identity.ofIndex 2)), .request 0 (.resolve (Identity.ofIndex 1))]

/-- A request for the array of the class with the second interface is refused, as the third is gone.
The array of the root has been made by then, and it is under both of the others. -/
theorem arrayOf_under_refused :
    let p := (start (create "Object" .standard)).after interfacesAndClass
    let op := Op.arrayOf (.ofClass (Identity.ofIndex 4)) [Identity.ofIndex 2]
    let p' := (p.perform op).2
    (p.perform op).1 = .error (.unknownClass (Identity.ofIndex 3)) ∧
      p.heap.store.objectAt (Identity.ofIndex 5) = none ∧
      p'.Under (Identity.ofIndex 5) root ∧ p'.Under (Identity.ofIndex 5) (Identity.ofIndex 2) ∧
      ∃ s, (p'.after rootArrayResolved).sessions[0]? = some s ∧
        s.isSubtype ⟨0, 0⟩ ⟨0, 1⟩ = .ok true ∧ s.isSubtype ⟨0, 0⟩ ⟨0, 2⟩ = .ok true := by
  have hmade := (arrayOf_under "Object" .standard interfacesAndClass
    (.ofClass (Identity.ofIndex 4)) [Identity.ofIndex 2]).2 (Identity.ofIndex 5) _ rfl rfl
  have hunder := hmade.2 (Identity.ofIndex 2) (by simp)
  have hfound := hunder rootArrayResolved 0 _ rfl ⟨0, 0⟩ ⟨0, 1⟩ _ _ ⟨_, rfl, rfl⟩ ⟨_, rfl, rfl⟩
    rfl rfl
  exact ⟨rfl, rfl, hmade.2 root (by simp), hunder, _, rfl, hfound.1, hfound.2 ⟨0, 2⟩ rfl⟩

end Program

end RuntimeTypes
