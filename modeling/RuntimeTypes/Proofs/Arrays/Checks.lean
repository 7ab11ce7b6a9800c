/-
A check misses nothing.

A snapshot lists every supertype of its class, the superclasses on the chain and the
others beside it, and a check does not read all of that.  It looks at one display slot,
or else at the secondary supertypes alone.  That is enough where records are regular: a
type that owns a slot is in no list but on the chain, at its own depth, and one without a
slot is among the secondary supertypes also where it stands on the chain.

Arrays keep to that as classes do, unless the root is named like an array.  Then the
array of a class can go on from the root although the class is deeper down, and the slots
do not fit the depths any more.
-/
import RuntimeTypes.Proofs.Arrays.Covariance

namespace RuntimeTypes

namespace Snapshot

/-- A check comes to what a scan of everything the snapshot lists would come to. -/
structure ScanAgrees (sub sup : Snapshot) : Prop where
  /-- The check finds what is listed anywhere, and nothing else. -/
  isSubtype_iff : sub.isSubtype sup = true ↔
    sup.identity = sub.identity ∨ sup.identity ∈ sub.ancestry.chain ∨
      sup.identity ∈ sub.ancestry.secondary
  /-- A type that owns a slot is looked for there, and is listed nowhere if it is not there. -/
  conclusive : sup.ancestry.ownsSlot = true → ∃ depth, sup.ancestry.checkTarget = .display depth ∧
    (sub.ancestry.superAt? depth ≠ some sup.identity →
      sup.identity ∉ sub.ancestry.chain ∧ sup.identity ∉ sub.ancestry.secondary)
  /-- A type without a slot is looked for among the secondary supertypes, where it is listed also if
  it is on the chain. -/
  listed : sup.ancestry.ownsSlot = false → sup.ancestry.checkTarget = .secondary ∧
    (sup.identity ∈ sub.ancestry.chain → sup.identity ∈ sub.ancestry.secondary)

/-- Regular records are scanned to no other end. -/
theorem scanAgrees {A : Archive} {capacity : Display.Capacity} {sub sup : Snapshot}
    {b b' : ClassBody} (hsub : sub.TrueTo b) (hsup : sup.TrueTo b')
    (hat : A sup.identity = some b') (hr : A.Regular capacity b.ancestry)
    (hr' : A.Regular capacity b'.ancestry) : sub.ScanAgrees sup := by
  obtain ⟨may, hplaced⟩ := hr'.placed
  obtain ⟨htarget, hlt⟩ := AncestryRecord.checkTarget_of_place hplaced hsup.checkTarget
  have hcapacity : b.ancestry.capacity = capacity.slots := by
    obtain ⟨may, ha⟩ := hr.placed
    rw [ha]
    rfl
  refine ⟨?_, fun howns => ?_, fun howns => ?_⟩
  · rw [isSubtype_iff hsub hsup hat hr hr', AncestryRecord.mem_supers, hsub.chain, hsub.secondary]
    exact or_congr_left eq_comm
  · rw [hsup.ownsSlot] at howns
    refine ⟨b'.ancestry.chain.length, by rw [htarget, if_pos howns], fun hmiss => ?_⟩
    rw [hsub.superAt? (hcapacity ▸ hlt howns)] at hmiss
    have hnone : sup.identity ∉ b.ancestry.supers := fun hmem =>
      hmiss ((hr.chain_getElem?_iff hat howns).mpr hmem)
    rw [hsub.chain, hsub.secondary]
    exact not_or.mp fun hmem => hnone (AncestryRecord.mem_supers.mpr hmem)
  · rw [hsup.ownsSlot] at howns
    refine ⟨by rw [htarget, howns, if_neg Bool.false_ne_true], fun hmem => ?_⟩
    rw [hsub.chain] at hmem
    rw [hsub.secondary]
    exact (hr.mem_secondary_iff hat howns).mpr (AncestryRecord.mem_supers_of_chain hmem)

end Snapshot

namespace Program

open ClassTable

/-- **A check agrees with the scan**, for classes, interfaces and arrays alike, whichever session took
the snapshots and whenever. -/
theorem isSubtype_scanAgrees (rootName : String) (capacity : Display.Capacity)
    (hroot : isArrayName rootName = false) {events : List Event} (hplain : ∀ e ∈ events, e.Plain)
    {i j : Nat} {s s' : Session} {a b : HandleRef} {ca cb : Snapshot}
    (hs : ((start (create rootName capacity)).after events).sessions[i]? = some s)
    (hs' : ((start (create rootName capacity)).after events).sessions[j]? = some s')
    (ha : s.Holds a ca) (hb : s'.Holds b cb) : ca.ScanAgrees cb := by
  have h := kept_after capacity hroot hplain
  obtain ⟨ab, hab, hta⟩ := (h.recorded.faithful i s hs).trueTo ha
  obtain ⟨bb, hbb, htb⟩ := (h.recorded.faithful j s' hs').trueTo hb
  exact Snapshot.scanAgrees hta htb hbb (h.orderly.regular h.recorded.chronicle hab)
    (h.orderly.regular h.recorded.chronicle hbb)

/-- A display of two slots. -/
def twoSlots : Display.Capacity := ⟨2, by decide, by decide⟩

/-- Three classes below one another and the array of the last, and a session that has resolved that
array and the one it goes on from. -/
def arraysTooDeep : List Event :=
  [.perform (.define (ClassFile.ordinary "A")),
    .perform (.define { ClassFile.ordinary "B" with superclass := some (Identity.ofIndex 1) }),
    .perform (.define { ClassFile.ordinary "C" with superclass := some (Identity.ofIndex 2) }),
    .perform (.arrayOf (.ofClass (Identity.ofIndex 3)) []),
    .openSession {},
    .request 0 (.resolve (Identity.ofIndex 7)),
    .request 0 (.resolve (Identity.ofIndex 6))]

/-- The array that has no slot is on the chain and among the secondary supertypes. -/
theorem scanAgrees_arraysTooDeep :
    isArrayName "Object" = false ∧ (∀ e ∈ arraysTooDeep, e.Plain) ∧
      ∃ s ca cb,
        ((start (create "Object" twoSlots)).after arraysTooDeep).sessions[0]? = some s ∧
          s.Holds ⟨0, 0⟩ ca ∧ s.Holds ⟨0, 1⟩ cb ∧ ca.isSubtype cb = true ∧
          cb.ancestry.ownsSlot = false ∧ ca.ScanAgrees cb := by
  have hplain : ∀ e ∈ arraysTooDeep, e.Plain := by decide
  refine ⟨rfl, hplain, _, _, _, rfl, ⟨_, rfl, rfl⟩, ⟨_, rfl, rfl⟩, rfl, rfl, ?_⟩
  exact isSubtype_scanAgrees "Object" twoSlots rfl hplain (i := 0) (j := 0) (a := ⟨0, 0⟩)
    (b := ⟨0, 1⟩) rfl rfl ⟨_, rfl, rfl⟩ ⟨_, rfl, rfl⟩

/-- Three classes below one another, of which the first is asked for its array before the others, and
a session that has resolved the arrays of the others. -/
def arraysPastRoot : List Event :=
  [.perform (.define (ClassFile.ordinary "A")),
    .perform (.arrayOf (.ofClass (Identity.ofIndex 1)) []),
    .perform (.define { ClassFile.ordinary "B" with superclass := some (Identity.ofIndex 1) }),
    .perform (.define { ClassFile.ordinary "C" with superclass := some (Identity.ofIndex 2) }),
    .perform (.arrayOf (.ofClass (Identity.ofIndex 3)) []),
    .openSession {},
    .request 0 (.resolve (Identity.ofIndex 5)),
    .request 0 (.resolve (Identity.ofIndex 4))]

/-- Where the root is called what the array of `A` would be called, the array of `B` goes on from the
root.  It stands where there is a slot and owns none, as `B` is too deep, so a check against it does
not find it although it is on the chain. -/
theorem not_scanAgrees_arraysPastRoot :
    (∀ e ∈ arraysPastRoot, e.Plain) ∧
      ∃ s ca cb,
        ((start (create "[LA;" twoSlots)).after arraysPastRoot).sessions[0]? = some s ∧
          s.Holds ⟨0, 0⟩ ca ∧ s.Holds ⟨0, 1⟩ cb ∧ cb.identity ∈ ca.ancestry.chain ∧
          s.isSubtype ⟨0, 0⟩ ⟨0, 1⟩ = .ok false ∧ ¬ca.ScanAgrees cb := by
  refine ⟨by decide, _, _, _, rfl, ⟨_, rfl, rfl⟩, ⟨_, rfl, rfl⟩, by decide, rfl, fun h => ?_⟩
  have hfound := h.isSubtype_iff.mpr (.inr (.inl (by decide)))
  cases hfound

end Program

end RuntimeTypes
