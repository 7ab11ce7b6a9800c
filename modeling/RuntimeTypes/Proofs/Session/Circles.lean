/-
Circles in what a session holds.

A session that verifies checks each record on its own: no class twice on a chain, the
class itself nowhere above itself, and a slot that agrees with the depth.  So no snapshot
leads in a circle by itself (`Verified`), and a session keeps to that whatever the store
answers, as only building a handle adds a snapshot.

Nothing compares two records, and a store may place each of two classes on the other's
chain.  But it has to misplace one of them to do so: where every class stands at its
depth, depths decrease from step to step, and there is no circle of any length.  Types
that own a slot are only looked for at their depth, so of those no two are subtypes of
each other.
-/
import RuntimeTypes.Store.Records
import RuntimeTypes.Proofs.Acyclicity
import RuntimeTypes.Proofs.Capacity.Answers
import RuntimeTypes.Proofs.Session.Taking

namespace RuntimeTypes

open Relation

/-! ### Snapshots that have been verified -/

/-- What verification makes sure of. -/
structure Snapshot.Verified (c : Snapshot) : Prop where
  /-- The chain names no class twice, and not the class itself. -/
  unrepeated : c.lineage.Nodup
  /-- Neither does the list of the other supertypes name the class. -/
  notSecondary : c.identity ∉ c.ancestry.secondary
  /-- If the type owns a slot, it is looked for at its depth. -/
  target : c.ancestry.ownsSlot = true → c.ancestry.checkTarget = .display c.ancestry.depth

theorem Snapshot.verified_of_ofRecord {record : AncestryRecord} {c : Snapshot} {name : String}
    (h : Ancestry.ofRecord record c.identity name true = .ok c.ancestry) : c.Verified := by
  obtain ⟨-, hshows, hfits⟩ := Ancestry.ofRecord_eq_ok_iff.mp h
  obtain ⟨hunrepeated, hnot, hslot⟩ := AncestryRecord.fits_iff.mp (hfits rfl)
  rw [← hshows.chain] at hunrepeated
  rw [← hshows.secondary] at hnot
  refine ⟨hunrepeated, hnot, fun hown => ?_⟩
  rw [hshows.ownsSlot] at hown
  cases htarget : c.ancestry.checkTarget with
  | display depth =>
      rw [htarget] at hslot
      obtain ⟨-, hdepth, -⟩ := AncestryRecord.slotFits_display.mp hslot
      rw [hdepth, Ancestry.depth, hshows.chain]
  | secondary =>
      rw [htarget] at hslot
      exact absurd hown (by simp [AncestryRecord.slotFits_secondary.mp hslot])

/-! ### Sessions that verify -/

namespace Session

variable {s : Session}

/-- All snapshots of a session that verifies have been verified. -/
def Verifies (s : Session) : Prop :=
  s.options.verifyRecords = true → ∀ r c, s.Holds r c → c.Verified

/-- **Whatever a session that verifies holds has been verified**, whatever it has been asked. -/
theorem through_verifies {σ : Type} [MetadataSource σ] (h : s.Verifies)
    (steps : List (Heap σ × Request)) :
    (s.through steps).options = s.options ∧ (s.through steps).Verifies := by
  have hP : Snapshot.OfRecords fun verify c => verify = true → c.Verified := by
    rintro record c name _ htaken rfl
    exact Snapshot.verified_of_ofRecord htaken
  obtain ⟨hoptions, honly⟩ := HoldsOnly.through hP (fun r c hr hverify => h hverify r c hr) steps
  exact ⟨hoptions, fun hverify r c hr => honly r c hr hverify⟩

end Session

/-! ### Circles -/

namespace Snapshot

/-- The class `sup` is on the chain, and at another depth than its own. -/
def Misplaces (sub sup : Snapshot) : Prop :=
  ∃ place, sub.ancestry.chain[place]? = some sup.identity ∧ place ≠ sup.ancestry.depth

/-- A class on the chain that is not misplaced stands less deep than the class itself. -/
theorem depth_lt_of_mem_chain {sub sup : Snapshot} (hmem : sup.identity ∈ sub.ancestry.chain)
    (hplaced : ¬sub.Misplaces sup) : sup.ancestry.depth < sub.ancestry.depth := by
  obtain ⟨place, hplace⟩ := List.mem_iff_getElem?.mp hmem
  by_cases hdepth : place = sup.ancestry.depth
  · exact hdepth ▸ (List.getElem?_eq_some_iff.mp hplace).1
  · exact absurd ⟨place, hplace, hdepth⟩ hplaced

end Snapshot

namespace Session

variable {s : Session} {a b : HandleRef} {ca cb : Snapshot}

/-- The class of `b` is on the chain of `a`, at its own depth. -/
def StandsBelow (s : Session) (a b : HandleRef) : Prop :=
  ∃ ca cb, s.Holds a ca ∧ s.Holds b cb ∧ cb.identity ∈ ca.ancestry.chain ∧ ¬ca.Misplaces cb

theorem depth_lt_of_transGen (h : TransGen s.StandsBelow a b) (ha : s.Holds a ca)
    (hb : s.Holds b cb) : cb.ancestry.depth < ca.ancestry.depth := by
  induction h generalizing cb with
  | single hstep =>
      obtain ⟨ca', cb', ha', hb', hmem, hplaced⟩ := hstep
      obtain rfl := ha.inj ha'
      obtain rfl := hb.inj hb'
      exact Snapshot.depth_lt_of_mem_chain hmem hplaced
  | tail _ hstep ih =>
      obtain ⟨cm, cb', hm, hb', hmem, hplaced⟩ := hstep
      obtain rfl := hb.inj hb'
      exact Nat.lt_trans (Snapshot.depth_lt_of_mem_chain hmem hplaced) (ih hm)

theorem not_transGen_standsBelow (a : HandleRef) : ¬TransGen s.StandsBelow a a := by
  intro h
  obtain ⟨-, ⟨ca, -, ha, -⟩, -⟩ := TransGen.head'_iff.mp h
  exact Nat.lt_irrefl _ (depth_lt_of_transGen h ha ha)

theorem mem_chain_of_isSubclass (ha : s.Holds a ca) (hb : s.Holds b cb)
    (hne : ca.identity ≠ cb.identity) (h : s.isSubclass a b = .ok true) :
    cb.identity ∈ ca.ancestry.chain := by
  rw [ha.isSubclass hb] at h
  have hmem := Snapshot.mem_lineage_of_isSubclass (Except.ok.inj h)
  rw [Snapshot.lineage, List.mem_append, List.mem_singleton] at hmem
  exact hmem.resolve_right (Ne.symm hne)

/-- A type that owns a slot is found as a supertype at its depth or not at all. -/
theorem depth_lt_of_isSubtype (ha : s.Holds a ca) (hb : s.Holds b cb)
    (hne : ca.identity ≠ cb.identity) (hverified : cb.Verified) (howns : cb.ancestry.ownsSlot = true)
    (h : s.isSubtype a b = .ok true) : cb.ancestry.depth < ca.ancestry.depth := by
  rw [ha.isSubtype hb] at h
  have hcheck : ca.isSubtype cb = true := Except.ok.inj h
  unfold Snapshot.isSubtype at hcheck
  rw [if_neg hne, hverified.target howns] at hcheck
  have hslot : ca.ancestry.display[cb.ancestry.depth]? = some cb.identity :=
    of_decide_eq_true hcheck
  have hlt := (List.getElem?_eq_some_iff.mp hslot).1
  unfold Ancestry.display at hlt
  rw [List.length_take] at hlt
  exact Nat.lt_of_lt_of_le hlt (Nat.min_le_right _ _)

/-- What a session that verifies may see of circles. -/
structure NoCircles (s : Session) : Prop where
  /-- No snapshot leads in a circle by itself. -/
  alone : ∀ r c, s.Holds r c → c.lineage.Nodup ∧ c.identity ∉ c.ancestry.secondary
  /-- There is no circle in which every class stands at its depth. -/
  placed : ∀ a, ¬TransGen s.StandsBelow a a
  /-- Of two types that are above each other, one is misplaced on the other's chain. -/
  isSubclass : ∀ a b ca cb, s.Holds a ca → s.Holds b cb → s.isSubclass a b = .ok true →
    s.isSubclass b a = .ok true → a = b ∨ ca.Misplaces cb ∨ cb.Misplaces ca
  /-- Types that own slots are not subtypes of each other. -/
  isSubtype : ∀ a b ca cb, s.Holds a ca → s.Holds b cb → ca.ancestry.ownsSlot = true →
    cb.ancestry.ownsSlot = true → s.isSubtype a b = .ok true → s.isSubtype b a = .ok true → a = b

theorem NoCircles.of (ho : s.Ordered) (hv : ∀ r c, s.Holds r c → c.Verified) : s.NoCircles where
  alone := fun r c hr => ⟨(hv r c hr).unrepeated, (hv r c hr).notSecondary⟩
  placed := not_transGen_standsBelow
  isSubclass := fun a b ca cb ha hb hab hba => by
    by_cases hid : ca.identity = cb.identity
    · exact .inl (ho.ref_inj ha hb hid)
    · refine .inr ?_
      by_contra hplaced
      obtain ⟨hplaceda, hplacedb⟩ := not_or.mp hplaced
      have hba' := mem_chain_of_isSubclass hb ha (Ne.symm hid) hba
      have hab' := mem_chain_of_isSubclass ha hb hid hab
      exact not_transGen_standsBelow a
        (.tail (.single ⟨ca, cb, ha, hb, hab', hplaceda⟩) ⟨cb, ca, hb, ha, hba', hplacedb⟩)
  isSubtype := fun a b ca cb ha hb howna hownb hab hba => by
    refine ho.ref_inj ha hb ?_
    by_contra hid
    exact Nat.lt_asymm (depth_lt_of_isSubtype ha hb hid (hv b cb hb) hownb hab)
      (depth_lt_of_isSubtype hb ha (Ne.symm hid) (hv a ca ha) howna hba)

/-- **Circles in a session that verifies**: whatever the store has answered, two types are above each
other only if one of them is misplaced on the other's chain. -/
theorem through_noCircles {σ : Type} [MetadataSource σ] (number : Nat) {options : Options}
    (hverify : options.verifyRecords = true) (steps : List (Heap σ × Request)) :
    ((start number options).through steps).NoCircles := by
  have hfresh : (start number options).Verifies := by
    rintro - r c ⟨h, hr, -⟩
    exact absurd (index_lt_size hr) (Nat.not_lt_zero _)
  obtain ⟨hoptions, hverifies⟩ := through_verifies hfresh steps
  exact .of (Moves.keeps (through_moves _ steps)).1 (hverifies (hoptions.symm ▸ hverify))

/-- Two classes that each stand below the other. -/
def mutualRecords : RecordStore := .ofList
  [(Identity.ofIndex 1, .below "A" .instanceClass [Identity.ofIndex 2]),
    (Identity.ofIndex 2, .below "B" .instanceClass [Identity.ofIndex 1])]

/-- Both are resolved. -/
def resolvingMutual : List (Heap RecordStore × Request) :=
  [({ store := mutualRecords }, .resolve (Identity.ofIndex 1)),
    ({ store := mutualRecords }, .resolve (Identity.ofIndex 2))]

/-- One of the two is misplaced: it stands at the top of a chain, and has a depth of one. -/
theorem through_noCircles_mutual :
    ({} : Options).verifyRecords = true ∧ ((start 0 {}).through resolvingMutual).NoCircles ∧
      ∃ ca cb, ((start 0 {}).through resolvingMutual).Holds ⟨0, 0⟩ ca ∧
        ((start 0 {}).through resolvingMutual).Holds ⟨0, 1⟩ cb ∧ ca.Misplaces cb :=
  ⟨rfl, through_noCircles 0 rfl resolvingMutual, _, _, ⟨_, rfl, rfl⟩, ⟨_, rfl, rfl⟩, 0, rfl, by decide⟩

/-- Both records pass verification, and the two classes are above each other. -/
theorem isSubclass_mutual :
    ({} : Options).verifyRecords = true ∧
      ((start 0 {}).through resolvingMutual).isSubclass ⟨0, 0⟩ ⟨0, 1⟩ = .ok true ∧
      ((start 0 {}).through resolvingMutual).isSubclass ⟨0, 1⟩ ⟨0, 0⟩ = .ok true :=
  ⟨rfl, rfl, rfl⟩

end Session

end RuntimeTypes
