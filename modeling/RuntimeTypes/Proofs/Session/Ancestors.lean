/-
The common ancestor in a session whose store may say anything.

Which class the common ancestor is follows from the two chains, so it is on both of them
whatever the store does.  What the handle for it is like is up to the store, which is
asked about that class at the end and may call it an interface, or not loaded, although
two loaded classes stand below it.  Then the handle is no ancestor that a subclass check
would confirm.  `through_commonAncestor` says that nothing else goes wrong.
-/
import RuntimeTypes.Store.Records
import RuntimeTypes.Proofs.Capacity.Answers
import RuntimeTypes.Proofs.Session.Cache

namespace RuntimeTypes

theorem Snapshot.mem_lineage_of_commonAncestor {a b : Snapshot} {c : Identity}
    (h : a.commonAncestor b = .ok c) : c ∈ a.lineage ∧ c ∈ b.lineage := by
  have hspec := lastCommon?_spec a.lineage b.lineage
  rw [Snapshot.lastCommon?_of_commonAncestor h] at hspec
  obtain ⟨k, hka, hkb, -⟩ := hspec
  exact ⟨List.mem_of_getElem? hka, List.mem_of_getElem? hkb⟩

namespace Query

variable {σ : Type} [MetadataSource σ] {w w' : Workspace σ} {a b l : HandleRef} {ca cb : Snapshot}

/-- How a search for the common ancestor comes to an answer. -/
inductive Answers (w : Workspace σ) (a b : HandleRef) (ca cb : Snapshot) (l : HandleRef)
    (w' : Workspace σ) : Prop
  /-- The second type is the first one or above it. -/
  | second : a = b ∨ ca.isSubclass cb = true → l = b → w' = w → Answers w a b ca cb l w'
  /-- The first type is above the second one. -/
  | first : cb.isSubclass ca = true → l = a → w' = w → Answers w a b ca cb l w'
  /-- The chains part at a third class, which is resolved. -/
  | third {c : Identity} : a ≠ b → ca.commonAncestor cb = .ok c → resolve c w = .ok l w' →
      Answers w a b ca cb l w'

theorem commonAncestor_answers (ha : w.session.Holds a ca) (hb : w.session.Holds b cb)
    (h : commonAncestor a b w = .ok l w') : Answers w a b ca cb l w' := by
  rw [commonAncestor_of_holds ha hb] at h
  split at h
  · rename_i hsecond
    cases h
    exact .second hsecond rfl rfl
  · rename_i hnot
    split at h
    · rename_i hfirst
      cases h
      exact .first hfirst rfl rfl
    · split at h
      · rename_i c hc
        exact .third (fun he => hnot (.inl he)) hc h
      · cases h

end Query

namespace Session

variable {s : Session} {a b l : HandleRef} {ca cb cl : Snapshot}

/-- The handle is loaded, and subclass checks find it above both types. -/
def Above (s : Session) (a b l : HandleRef) : Prop :=
  (∃ c, s.Holds l c) ∧ s.isSubclass a l = .ok true ∧ s.isSubclass b l = .ok true

theorem isSubclass_of_mem_lineage (ha : s.Holds a ca) (hl : s.Holds l cl)
    (hshape : cl.shape ≠ .interface) (hmem : cl.identity ∈ ca.lineage) :
    s.isSubclass a l = .ok true := by
  rw [ha.isSubclass hl]
  exact congrArg _ ((Snapshot.isSubclass_iff fun h => absurd h hshape).mpr hmem)

theorem Ordered.eq_of_isSubclass_interface (ho : s.Ordered) (ha : s.Holds a ca) (hl : s.Holds l cl)
    (hshape : cl.shape = .interface) (h : s.isSubclass a l = .ok true) : a = l := by
  rw [ha.isSubclass hl] at h
  have hcheck : ca.isSubclass cl = true := Except.ok.inj h
  unfold Snapshot.isSubclass at hcheck
  split at hcheck
  · rename_i hid
    exact ho.ref_inj ha hl hid
  · cases hcheck

/-- A class on both lineages is above both types exactly if it is no interface. -/
theorem Ordered.above_iff (ho : s.Ordered) (ha : s.Holds a ca) (hb : s.Holds b cb) (hne : a ≠ b)
    (hl : ∀ c, s.Holds l c → c.identity ∈ ca.lineage ∧ c.identity ∈ cb.lineage) :
    s.Above a b l ↔ ∃ c, s.Holds l c ∧ c.shape ≠ .interface := by
  constructor
  · rintro ⟨⟨c, hc⟩, hal, hbl⟩
    refine ⟨c, hc, fun hshape => hne ?_⟩
    exact (ho.eq_of_isSubclass_interface ha hc hshape hal).trans
      (ho.eq_of_isSubclass_interface hb hc hshape hbl).symm
  · rintro ⟨c, hc, hshape⟩
    obtain ⟨hca, hcb⟩ := hl c hc
    exact ⟨⟨c, hc⟩, isSubclass_of_mem_lineage ha hc hshape hca,
      isSubclass_of_mem_lineage hb hc hshape hcb⟩

variable {σ : Type} [MetadataSource σ] {w w' : Workspace σ}

/-- The answer is a handle of a class on both lineages. -/
theorem isOf_of_answers {number : Nat} {options : Options}
    (hmoves : (start number options).Moves w.session) (ha : w.session.Holds a ca)
    (hb : w.session.Holds b cb) (h : Query.Answers w a b ca cb l w') :
    w.session.Moves w'.session ∧
      ∃ id loaded, w'.session.IsOf l id loaded ∧ id ∈ ca.lineage ∧ id ∈ cb.lineage := by
  have hself : ∀ c : Snapshot, c.identity ∈ c.lineage := fun c => by simp [Snapshot.lineage]
  cases h with
  | second hsecond hl hw =>
      subst hl hw
      refine ⟨.refl, cb.identity, true, hb.isOf, ?_, hself cb⟩
      rcases hsecond with rfl | hsub
      · obtain rfl := ha.inj hb
        exact hself ca
      · exact Snapshot.mem_lineage_of_isSubclass hsub
  | first hfirst hl hw =>
      subst hl hw
      exact ⟨.refl, ca.identity, true, ha.isOf, hself ca, Snapshot.mem_lineage_of_isSubclass hfirst⟩
  | @third c _ hc hresolve =>
      obtain ⟨hthen, hcached⟩ := Ends.of_ok (Query.resolve_moving c) hresolve
      obtain ⟨loaded, hof⟩ := (Moves.keeps (hmoves.trans hthen)).1.own hcached
      exact ⟨hthen, c, loaded, hof, Snapshot.mem_lineage_of_commonAncestor hc⟩

/-- **The common ancestor, whatever the store says.**  The answer is a handle of a class on both
lineages, and it is above both types exactly if it is loaded and no interface. -/
theorem through_commonAncestor (number : Nat) (options : Options) (earlier : List (Heap σ × Request))
    (heap : Heap σ) (ha : ((start number options).through earlier).Holds a ca)
    (hb : ((start number options).through earlier).Holds b cb)
    (h : Query.commonAncestor a b { session := (start number options).through earlier, heap := heap }
      = .ok l w) :
    (∃ id loaded, w.session.IsOf l id loaded ∧ id ∈ ca.lineage ∧ id ∈ cb.lineage) ∧
      (w.session.Above a b l ↔ a = b ∨ ∃ c, w.session.Holds l c ∧ c.shape ≠ .interface) := by
  have hmoves := through_moves (start number options) earlier
  have hanswers := Query.commonAncestor_answers
    (w := { session := (start number options).through earlier, heap := heap }) ha hb h
  obtain ⟨hthen, id, loaded, hof, hida, hidb⟩ := isOf_of_answers hmoves ha hb hanswers
  refine ⟨⟨id, loaded, hof, hida, hidb⟩, ?_⟩
  have ha' := (Moves.grows hthen).holds ha
  have hb' := (Moves.grows hthen).holds hb
  by_cases hab : a = b
  · subst hab
    obtain rfl : l = a := by
      cases hanswers with
      | second _ hl _ => exact hl
      | first _ hl _ => exact hl
      | third hne _ _ => exact absurd rfl hne
    have hself : w.session.isSubclass l l = .ok true := by
      simp [ha'.isSubclass ha', Snapshot.isSubclass]
    exact iff_of_true ⟨⟨ca, ha'⟩, hself, hself⟩ (.inl rfl)
  · rw [or_iff_right hab]
    refine (Moves.keeps (hmoves.trans hthen)).1.above_iff ha' hb' hab fun c hc => ?_
    obtain rfl : c.identity = id := by
      obtain ⟨hd, hr, hid, -⟩ := hof
      obtain ⟨hd', hr', hid', -⟩ := hc.isOf
      obtain rfl := Except.ok.inj (hr.symm.trans hr')
      exact Option.some.inj (hid'.symm.trans hid)
    exact ⟨hida, hidb⟩

/-- Two classes below a third, of which the store has this record. -/
def siblingRecords (base : ClassRecord) : RecordStore := .ofList
  [(Identity.ofIndex 0, base),
    (Identity.ofIndex 1, .below "A" .instanceClass [Identity.ofIndex 0]),
    (Identity.ofIndex 2, .below "B" .instanceClass [Identity.ofIndex 0])]

/-- The two classes are resolved. -/
def resolvingSiblings (base : ClassRecord) : List (Heap RecordStore × Request) :=
  [({ store := siblingRecords base }, .resolve (Identity.ofIndex 1)),
    ({ store := siblingRecords base }, .resolve (Identity.ofIndex 2))]

/-- The session that has resolved them, on the same store. -/
def siblingsResolved (base : ClassRecord) : Workspace RecordStore where
  session := (start 0 {}).through (resolvingSiblings base)
  heap := { store := siblingRecords base }

/-- Where the third class is not loaded, or an interface, it is the answer all the same, and is above
neither of the two. -/
theorem through_commonAncestor_siblings :
    (∃ ca cb w, (siblingsResolved (.unloaded "Base")).session.Holds ⟨0, 0⟩ ca ∧
        (siblingsResolved (.unloaded "Base")).session.Holds ⟨0, 1⟩ cb ∧
        Query.commonAncestor ⟨0, 0⟩ ⟨0, 1⟩ (siblingsResolved (.unloaded "Base"))
          = .ok ⟨0, 2⟩ w ∧ ¬w.session.Above ⟨0, 0⟩ ⟨0, 1⟩ ⟨0, 2⟩) ∧
      ∃ ca cb w, (siblingsResolved (.below "Base" .interface [])).session.Holds ⟨0, 0⟩ ca ∧
        (siblingsResolved (.below "Base" .interface [])).session.Holds ⟨0, 1⟩ cb ∧
        Query.commonAncestor ⟨0, 0⟩ ⟨0, 1⟩ (siblingsResolved (.below "Base" .interface []))
          = .ok ⟨0, 2⟩ w ∧ ¬w.session.Above ⟨0, 0⟩ ⟨0, 1⟩ ⟨0, 2⟩ := by
  refine ⟨⟨_, _, _, ⟨_, rfl, rfl⟩, ⟨_, rfl, rfl⟩, rfl, ?_⟩,
    ⟨_, _, _, ⟨_, rfl, rfl⟩, ⟨_, rfl, rfl⟩, rfl, ?_⟩⟩
  · rw [(through_commonAncestor 0 {} (resolvingSiblings (.unloaded "Base"))
      (siblingsResolved (.unloaded "Base")).heap ⟨_, rfl, rfl⟩ ⟨_, rfl, rfl⟩ rfl).2]
    rintro (hab | ⟨c, ⟨h, hr, hc⟩, -⟩)
    · exact absurd hab (by decide)
    · cases hr
      cases hc
  · rw [(through_commonAncestor 0 {} (resolvingSiblings (.below "Base" .interface []))
      (siblingsResolved (.below "Base" .interface [])).heap ⟨_, rfl, rfl⟩ ⟨_, rfl, rfl⟩ rfl).2]
    rintro (hab | ⟨c, ⟨h, hr, hc⟩, hshape⟩)
    · exact absurd hab (by decide)
    · cases hr
      cases hc
      exact hshape rfl

end Session

end RuntimeTypes
