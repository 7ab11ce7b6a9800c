/-
Ancestry records, and how they fit together.

A subtype check looks at one place of the subtype's record, and which one depends on the
supertype's.  So it is right because records fit together, and the three ways in which
they do are named here.

  * `Coherent`: each chain goes on from another.  Then a class stands in every chain at
    its own depth, and the chain in front of it is its own.
  * `Regular`: each class on a chain owns the slot at its depth if there is one, nothing
    else owns a slot, and what has no slot is listed.  Then a check finds exactly what
    the record names.
  * `Lawful`: of classes and interfaces, the record names with each supertype everything
    that is above it.

Loading a class keeps all of this, as `lawful_of_loads` says.
-/
import RuntimeTypes.Proofs.Archive

namespace RuntimeTypes

namespace Archive

/-! ### Chains -/

/-- Each chain is the superclass's chain with the superclass behind it; the root's is empty. -/
structure Coherent (A : Archive) (capacity : Display.Capacity) : Prop where
  rootAt : ∃ b, A ClassTable.root = some b ∧ b.shape = .instanceClass ∧
    b.ancestry = .place capacity true [] []
  parent : ∀ id b, A id = some b → id ≠ ClassTable.root →
    ∃ p pb, A p = some pb ∧ b.ancestry.chain = pb.ancestry.chain ++ [p]

namespace Coherent

variable {A : Archive} {capacity : Display.Capacity}

theorem chain_root (h : A.Coherent capacity) {b : ClassBody} (hb : A ClassTable.root = some b) :
    b.ancestry.chain = [] := by
  obtain ⟨b', hb', -, ha⟩ := h.rootAt
  obtain rfl := Option.some.inj (hb.symm.trans hb')
  rw [ha, AncestryRecord.chain_place]

/-- What stands on a chain has the chain in front of it. -/
theorem chain_take (h : A.Coherent capacity) :
    ∀ (n : Nat) {id : Identity} {b : ClassBody}, A id = some b → b.ancestry.chain.length = n →
      ∀ (i : Nat) (s : Identity), b.ancestry.chain[i]? = some s →
        ∃ sb, A s = some sb ∧ sb.ancestry.chain = b.ancestry.chain.take i := by
  intro n
  induction n with
  | zero =>
      intro id b _ hlen i s hs
      rw [List.length_eq_zero_iff.mp hlen] at hs
      simp at hs
  | succ n ih =>
      intro id b hb hlen i s hs
      by_cases hid : id = ClassTable.root
      · subst hid
        rw [h.chain_root hb] at hlen
        simp at hlen
      · obtain ⟨p, pb, hp, hchain⟩ := h.parent id b hb hid
        rw [hchain] at hs hlen
        have hplen : pb.ancestry.chain.length = n := by simpa using hlen
        rcases Nat.lt_or_ge i n with hi | hi
        · rw [List.getElem?_append_left (by omega)] at hs
          obtain ⟨sb, hsb, htake⟩ := ih hp hplen i s hs
          refine ⟨sb, hsb, ?_⟩
          rw [hchain, List.take_append_of_le_length (by omega), htake]
        · rw [List.getElem?_append_right (by omega)] at hs
          have hin : i = n := by
            rcases Nat.eq_or_lt_of_le hi with he | hlt
            · exact he.symm
            · rw [List.getElem?_eq_none (by simp; omega)] at hs
              cases hs
          subst hin
          obtain rfl : p = s := by simpa [hplen] using hs
          exact ⟨pb, hp, by rw [hchain, ← hplen, List.take_left]⟩

/-- Every chain starts at the root. -/
theorem head_chain (h : A.Coherent capacity) {id : Identity} {b : ClassBody} (hb : A id = some b)
    (hid : id ≠ ClassTable.root) : b.ancestry.chain[0]? = some ClassTable.root := by
  obtain ⟨p, pb, hp, hchain⟩ := h.parent id b hb hid
  cases hc : b.ancestry.chain with
  | nil =>
      rw [hc] at hchain
      simp at hchain
  | cons s rest =>
      obtain ⟨sb, hsb, htake⟩ := h.chain_take _ hb rfl 0 s (by rw [hc]; rfl)
      by_cases hs : s = ClassTable.root
      · rw [hs]
        rfl
      · obtain ⟨q, qb, -, hq⟩ := h.parent s sb hsb hs
        rw [hq] at htake
        simp at htake

theorem root_mem_chain (h : A.Coherent capacity) {id : Identity} {b : ClassBody}
    (hb : A id = some b) (hid : id ≠ ClassTable.root) : ClassTable.root ∈ b.ancestry.chain :=
  List.mem_of_getElem? (h.head_chain hb hid)

/-- A chain that goes on from one that is there. -/
theorem extend (h : A.Coherent capacity) {id : Identity} (hnew : A id = none) {body : ClassBody}
    (hp : ∃ p pb, A p = some pb ∧ body.ancestry.chain = pb.ancestry.chain ++ [p]) :
    (A.extend id body).Coherent capacity where
  rootAt := by
    obtain ⟨b, hb, hrest⟩ := h.rootAt
    exact ⟨b, within_extend hnew body _ b hb, hrest⟩
  parent := by
    have hkeep : ∀ chain, (∃ p pb, A p = some pb ∧ chain = pb.ancestry.chain ++ [p]) →
        ∃ p pb, A.extend id body p = some pb ∧ chain = pb.ancestry.chain ++ [p] := by
      rintro chain ⟨p, pb, hpb, hchain⟩
      exact ⟨p, pb, within_extend hnew body p pb hpb, hchain⟩
    intro x b hb hx
    rcases extend_eq_some.mp hb with ⟨-, rfl⟩ | ⟨-, hb⟩
    · exact hkeep _ hp
    · exact hkeep _ (h.parent x b hb hx)

end Coherent

/-! ### Slots -/

/-- Every supertype that a record names is found where a check looks for it. -/
structure Regular (A : Archive) (capacity : Display.Capacity) (a : AncestryRecord) : Prop where
  placed : ∃ may, a = .place capacity may a.chain a.secondary
  /-- A class on the chain owns the slot at its depth if there is one. -/
  chain : ∀ i s, a.chain[i]? = some s → ∃ b, A s = some b ∧ b.ancestry.chain.length = i ∧
    b.ancestry.ownsSlot = decide (i < capacity.slots)
  /-- No other supertype owns a slot. -/
  secondary : ∀ s ∈ a.secondary, ∃ b, A s = some b ∧ b.ancestry.ownsSlot = false
  /-- Classes on the chain without a slot are listed. -/
  spilled : ∀ s ∈ a.chain.drop capacity.slots, s ∈ a.secondary

/-- The record of a class or interface, as loading works it out. -/
structure Lawful (A : Archive) (capacity : Display.Capacity) (b : ClassBody) : Prop
    extends Regular A capacity b.ancestry where
  /-- Ordinary classes own a slot as long as there are slots, and interfaces never do. -/
  ownsSlot : b.ancestry.ownsSlot
    = (decide (b.shape = .instanceClass) && decide (b.ancestry.chain.length < capacity.slots))
  /-- What is above a supertype is above the class. -/
  closed : ∀ s ∈ b.ancestry.supers, ∃ sb, A s = some sb ∧ sb.shape.isArray = false ∧
    ∀ x ∈ sb.ancestry.supers, x ∈ b.ancestry.supers
  superclasses : ∀ s ∈ b.ancestry.chain, ∃ sb, A s = some sb ∧ sb.shape = .instanceClass
  /-- Above an interface there are the root and interfaces. -/
  interfaces : b.shape = .interface → b.ancestry.chain = [ClassTable.root] ∧
    ∀ s ∈ b.ancestry.secondary, ∃ sb, A s = some sb ∧ sb.shape = .interface

variable {A B : Archive} {capacity : Display.Capacity}

theorem Regular.mono (h : Within A B) {a : AncestryRecord} (hr : A.Regular capacity a) :
    B.Regular capacity a where
  placed := hr.placed
  chain := fun i s hs => by
    obtain ⟨b, hb, hrest⟩ := hr.chain i s hs
    exact ⟨b, h s b hb, hrest⟩
  secondary := fun s hs => by
    obtain ⟨b, hb, hrest⟩ := hr.secondary s hs
    exact ⟨b, h s b hb, hrest⟩
  spilled := hr.spilled

theorem Regular.known {a : AncestryRecord} (hr : A.Regular capacity a) {s : Identity}
    (hs : s ∈ a.supers) : ∃ b, A s = some b := by
  rcases AncestryRecord.mem_supers.mp hs with hs | hs
  · obtain ⟨i, hi⟩ := List.mem_iff_getElem?.mp hs
    obtain ⟨b, hb, -⟩ := hr.chain i s hi
    exact ⟨b, hb⟩
  · obtain ⟨b, hb, -⟩ := hr.secondary s hs
    exact ⟨b, hb⟩

/-- A supertype that owns a slot stands at its depth on the chain. -/
theorem Regular.chain_getElem?_iff {a : AncestryRecord} (hr : A.Regular capacity a) {s : Identity}
    {b : ClassBody} (hb : A s = some b) (howns : b.ancestry.ownsSlot = true) :
    a.chain[b.ancestry.chain.length]? = some s ↔ s ∈ a.supers := by
  constructor
  · intro h
    exact AncestryRecord.mem_supers_of_chain (List.mem_of_getElem? h)
  · intro h
    rcases AncestryRecord.mem_supers.mp h with h | h
    · obtain ⟨i, hi⟩ := List.mem_iff_getElem?.mp h
      obtain ⟨b', hb', hlen, -⟩ := hr.chain i s hi
      obtain rfl := Option.some.inj (hb.symm.trans hb')
      rw [hlen, hi]
    · obtain ⟨b', hb', hno⟩ := hr.secondary s h
      obtain rfl := Option.some.inj (hb.symm.trans hb')
      rw [howns] at hno
      cases hno

/-- A supertype without a slot is listed, also if it stands on the chain. -/
theorem Regular.mem_secondary_iff {a : AncestryRecord} (hr : A.Regular capacity a) {s : Identity}
    {b : ClassBody} (hb : A s = some b) (howns : b.ancestry.ownsSlot = false) :
    s ∈ a.secondary ↔ s ∈ a.supers := by
  constructor
  · intro h
    exact AncestryRecord.mem_supers_of_secondary h
  · intro h
    rcases AncestryRecord.mem_supers.mp h with h | h
    · obtain ⟨i, hi⟩ := List.mem_iff_getElem?.mp h
      obtain ⟨b', hb', -, hslot⟩ := hr.chain i s hi
      obtain rfl := Option.some.inj (hb.symm.trans hb')
      rw [howns] at hslot
      refine hr.spilled s (List.mem_of_getElem? (i := i - capacity.slots) ?_)
      have hge : capacity.slots ≤ i := by simpa using hslot.symm
      rw [List.getElem?_drop, Nat.add_sub_cancel' hge, hi]
    · exact h

/-- A record that goes on from a regular one, of a class that owns the slot at its depth. -/
theorem Regular.below {a : AncestryRecord} {p : Identity} {pb : ClassBody} (hp : A p = some pb)
    (hr : A.Regular capacity pb.ancestry)
    (howns : pb.ancestry.ownsSlot = decide (pb.ancestry.chain.length < capacity.slots))
    (hplaced : ∃ may, a = .place capacity may a.chain a.secondary)
    (hchain : a.chain = pb.ancestry.chain ++ [p])
    (hsecondary : ∀ s ∈ a.secondary, s ∈ a.chain.drop capacity.slots ∨
      ∃ b, A s = some b ∧ b.ancestry.ownsSlot = false)
    (hspilled : ∀ s ∈ a.chain.drop capacity.slots, s ∈ a.secondary) : A.Regular capacity a := by
  have hslots : ∀ i s, a.chain[i]? = some s → ∃ b, A s = some b ∧ b.ancestry.chain.length = i ∧
      b.ancestry.ownsSlot = decide (i < capacity.slots) := by
    intro i s hs
    rw [hchain] at hs
    rcases Nat.lt_or_ge i pb.ancestry.chain.length with hi | hi
    · rw [List.getElem?_append_left hi] at hs
      exact hr.chain i s hs
    · rw [List.getElem?_append_right hi, List.getElem?_singleton] at hs
      split at hs
      · obtain rfl := Option.some.inj hs
        have hlen : pb.ancestry.chain.length = i := by omega
        exact ⟨pb, hp, hlen, by rw [howns, hlen]⟩
      · cases hs
  refine ⟨hplaced, hslots, fun s hs => ?_, hspilled⟩
  rcases hsecondary s hs with hs | hs
  · obtain ⟨i, hi⟩ := List.mem_iff_getElem?.mp hs
    rw [List.getElem?_drop] at hi
    obtain ⟨b, hb, -, howns⟩ := hslots _ s hi
    exact ⟨b, hb, by rw [howns]; simp⟩
  · exact hs

theorem Lawful.mono (h : Within A B) {b : ClassBody} (hl : A.Lawful capacity b) :
    B.Lawful capacity b where
  toRegular := hl.toRegular.mono h
  ownsSlot := hl.ownsSlot
  closed := fun s hs => by
    obtain ⟨sb, hsb, hrest⟩ := hl.closed s hs
    exact ⟨sb, h s sb hsb, hrest⟩
  superclasses := fun s hs => by
    obtain ⟨sb, hsb, hrest⟩ := hl.superclasses s hs
    exact ⟨sb, h s sb hsb, hrest⟩
  interfaces := fun hi => by
    refine ⟨(hl.interfaces hi).1, fun s hs => ?_⟩
    obtain ⟨sb, hsb, hrest⟩ := (hl.interfaces hi).2 s hs
    exact ⟨sb, h s sb hsb, hrest⟩

theorem Lawful.ownsSlot_interface {b : ClassBody} (hl : A.Lawful capacity b)
    (hi : b.shape = .interface) : b.ancestry.ownsSlot = false := by
  rw [hl.ownsSlot, hi]
  rfl

theorem lawful_root {b : ClassBody} (hshape : b.shape = .instanceClass)
    (ha : b.ancestry = .place capacity true [] []) : A.Lawful capacity b where
  placed := ⟨true, by rw [ha]; rfl⟩
  chain := by rw [ha]; simp
  secondary := by rw [ha]; simp
  spilled := by rw [ha]; simp
  ownsSlot := by rw [ha, hshape]; rfl
  closed := by rw [ha]; simp [AncestryRecord.supers]
  superclasses := by rw [ha]; simp
  interfaces := by rw [hshape]; nofun

/-! ### Loading a class -/

/-- The records of all classes and interfaces are lawful. -/
def AllLawful (A : Archive) (capacity : Display.Capacity) : Prop :=
  ∀ id b, A id = some b → b.shape.isArray = false → A.Lawful capacity b

theorem AllLawful.extend (h : A.AllLawful capacity) {id : Identity} (hnew : A id = none)
    {body : ClassBody} (hl : body.shape.isArray = false → A.Lawful capacity body) :
    (A.extend id body).AllLawful capacity := by
  intro x b hb hn
  rcases extend_eq_some.mp hb with ⟨-, rfl⟩ | ⟨-, hb⟩
  · exact (hl hn).mono (within_extend hnew _)
  · exact (h x b hb hn).mono (within_extend hnew _)

section Loads

variable {d : ClassFile} {body superBody : ClassBody}

theorem Loads.lawful_super (hl : A.Loads capacity d body superBody) (hall : A.AllLawful capacity) :
    A.Lawful capacity superBody :=
  hall _ _ hl.superAt (by simp [hl.superShape])

theorem Loads.root_mem_chain (hl : A.Loads capacity d body superBody) (hc : A.Coherent capacity) :
    ClassTable.root ∈ body.ancestry.chain := by
  rw [hl.chain]
  by_cases hs : ClassTable.superclassOf d = ClassTable.root
  · simp [hs]
  · exact List.mem_append_left _ (hc.root_mem_chain hl.superAt hs)

/-- An interface that contributes supertypes, and its record. -/
theorem Loads.contributor (hl : A.Loads capacity d body superBody) (hall : A.AllLawful capacity)
    {s : Identity} (hs : A.Contributes d.interfaces s) :
    ∃ i ∈ d.interfaces, ∃ ib, A i = some ib ∧ ib.shape = .interface ∧ A.Lawful capacity ib ∧
      (s = i ∨ s ∈ ib.ancestry.secondary) := by
  obtain ⟨i, hi, ib, hib, hs⟩ := hs
  obtain ⟨ib', hib', hshape⟩ := hl.areInterfaces i hi
  obtain rfl := Option.some.inj (hib.symm.trans hib')
  exact ⟨i, hi, ib, hib, hshape, hall i ib hib (by simp [hshape]), hs⟩

theorem Loads.regular (hl : A.Loads capacity d body superBody) (hall : A.AllLawful capacity) :
    A.Regular capacity body.ancestry := by
  have hsuper := hl.lawful_super hall
  refine hsuper.toRegular.below hl.superAt ?_ ⟨_, hl.placed⟩ hl.chain ?_ ?_
  · rw [hsuper.ownsSlot, hl.superShape]
    rfl
  · intro s hs
    rcases (hl.mem_secondary s).mp hs with hs | hs | hs
    · exact Or.inl hs
    · exact Or.inr (hsuper.secondary s hs)
    · obtain ⟨i, -, ib, hib, hshape, hlaw, rfl | hs⟩ := hl.contributor hall hs
      · exact Or.inr ⟨ib, hib, hlaw.ownsSlot_interface hshape⟩
      · exact Or.inr (hlaw.secondary s hs)
  · exact fun s hs => (hl.mem_secondary s).mpr (Or.inl hs)

/-- What an interface contributes brings along whatever is above it. -/
theorem Loads.closed_contributes (hl : A.Loads capacity d body superBody)
    (hall : A.AllLawful capacity) (hc : A.Coherent capacity) {s : Identity}
    (hs : A.Contributes d.interfaces s) : ∃ sb, A s = some sb ∧ sb.shape.isArray = false ∧
      ∀ x ∈ sb.ancestry.supers, x ∈ body.ancestry.supers := by
  obtain ⟨i, hi, ib, hib, hshape, hlaw, hs⟩ := hl.contributor hall hs
  -- Everything above the interface itself is above the class.
  have habove : ∀ x ∈ ib.ancestry.supers, x ∈ body.ancestry.supers := by
    intro x hx
    rcases AncestryRecord.mem_supers.mp hx with hx | hx
    · rw [(hlaw.interfaces hshape).1, List.mem_singleton] at hx
      rw [hx]
      exact AncestryRecord.mem_supers_of_chain (hl.root_mem_chain hc)
    · exact AncestryRecord.mem_supers_of_secondary
        ((hl.mem_secondary x).mpr (Or.inr (Or.inr ⟨i, hi, ib, hib, Or.inr hx⟩)))
  rcases hs with rfl | hs
  · exact ⟨ib, hib, by simp [hshape], habove⟩
  · obtain ⟨sb, hsb, hn, hsub⟩ := hlaw.closed s (AncestryRecord.mem_supers_of_secondary hs)
    exact ⟨sb, hsb, hn, fun x hx => habove x (hsub x hx)⟩

theorem Loads.closed (hl : A.Loads capacity d body superBody) (hall : A.AllLawful capacity)
    (hc : A.Coherent capacity) :
    ∀ s ∈ body.ancestry.supers, ∃ sb, A s = some sb ∧ sb.shape.isArray = false ∧
      ∀ x ∈ sb.ancestry.supers, x ∈ body.ancestry.supers := by
  have hsuper := hl.lawful_super hall
  have hinherit : ∀ x ∈ superBody.ancestry.supers, x ∈ body.ancestry.supers := by
    intro x hx
    rcases AncestryRecord.mem_supers.mp hx with hx | hx
    · refine AncestryRecord.mem_supers_of_chain ?_
      rw [hl.chain]
      exact List.mem_append_left _ hx
    · exact AncestryRecord.mem_supers_of_secondary
        ((hl.mem_secondary x).mpr (Or.inr (Or.inl hx)))
  have hbelow : ∀ s ∈ superBody.ancestry.supers, ∃ sb, A s = some sb ∧ sb.shape.isArray = false ∧
      ∀ x ∈ sb.ancestry.supers, x ∈ body.ancestry.supers := by
    intro s hs
    obtain ⟨sb, hsb, hn, hsub⟩ := hsuper.closed s hs
    exact ⟨sb, hsb, hn, fun x hx => hinherit x (hsub x hx)⟩
  have hchain : ∀ s ∈ body.ancestry.chain, ∃ sb, A s = some sb ∧ sb.shape.isArray = false ∧
      ∀ x ∈ sb.ancestry.supers, x ∈ body.ancestry.supers := by
    intro s hs
    rw [hl.chain] at hs
    rcases List.mem_append.mp hs with hs | hs
    · exact hbelow s (AncestryRecord.mem_supers_of_chain hs)
    · obtain rfl := List.mem_singleton.mp hs
      exact ⟨superBody, hl.superAt, by simp [hl.superShape], hinherit⟩
  intro s hs
  rcases AncestryRecord.mem_supers.mp hs with hs | hs
  · exact hchain s hs
  · rcases (hl.mem_secondary s).mp hs with hs | hs | hs
    · exact hchain s (List.mem_of_mem_drop hs)
    · exact hbelow s (AncestryRecord.mem_supers_of_secondary hs)
    · exact hl.closed_contributes hall hc hs

/-- An interface stands directly below the root, and what is listed for it are interfaces. -/
theorem Loads.interfaces (hl : A.Loads capacity d body superBody) (hall : A.AllLawful capacity)
    (hc : A.Coherent capacity) (hi : body.shape = .interface) :
    body.ancestry.chain = [ClassTable.root] ∧
      ∀ s ∈ body.ancestry.secondary, ∃ sb, A s = some sb ∧ sb.shape = .interface := by
  have hd : d.isInterface = true := by
    rw [hl.shape] at hi
    split at hi
    · assumption
    · cases hi
  have hroot : ClassTable.superclassOf d = ClassTable.root := by
    unfold ClassTable.superclassOf
    rw [if_pos hd]
  obtain ⟨rootBody, hb, -, ha⟩ := hc.rootAt
  obtain rfl : superBody = rootBody :=
    Option.some.inj ((hroot ▸ hl.superAt).symm.trans hb)
  have hchain : body.ancestry.chain = [ClassTable.root] := by
    rw [hl.chain, ha, hroot]
    rfl
  refine ⟨hchain, fun s hs => ?_⟩
  rcases (hl.mem_secondary s).mp hs with hs | hs | hs
  · rw [hchain, List.drop_eq_nil_of_le capacity.pos] at hs
    cases hs
  · rw [ha] at hs
    cases hs
  · obtain ⟨i, -, ib, hib, hshape, hlaw, rfl | hs⟩ := hl.contributor hall hs
    · exact ⟨ib, hib, hshape⟩
    · exact (hlaw.interfaces hshape).2 s hs

/-- **Loading makes lawful records** out of lawful ones. -/
theorem Loads.lawful (hl : A.Loads capacity d body superBody) (hall : A.AllLawful capacity)
    (hc : A.Coherent capacity) : A.Lawful capacity body where
  toRegular := hl.regular hall
  ownsSlot := by
    have hshape : (decide (body.shape = .instanceClass)) = !d.isInterface := by
      rw [hl.shape]
      split <;> simp_all
    rw [hshape, hl.placed]
    rfl
  closed := hl.closed hall hc
  superclasses := by
    intro s hs
    rw [hl.chain] at hs
    rcases List.mem_append.mp hs with hs | hs
    · exact (hl.lawful_super hall).superclasses s hs
    · obtain rfl := List.mem_singleton.mp hs
      exact ⟨superBody, hl.superAt, hl.superShape⟩
  interfaces := hl.interfaces hall hc

end Loads

end Archive

end RuntimeTypes
