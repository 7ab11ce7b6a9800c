/-
Subtype checks.

A check of two loaded types looks at one place of one snapshot.  Where the records are
regular that place tells exactly whether the one type is named by the record of the
other (`Snapshot.isSubtype_iff`), and for classes and interfaces a record names what is
reached upwards through the class files.
-/
import RuntimeTypes.Proofs.History

namespace RuntimeTypes

/-! ### What a check looks at -/

/-- A record that was placed is checked at the slot it owns, or else as a secondary supertype. -/
theorem AncestryRecord.decode?_of_place {capacity : Display.Capacity} {may : Bool}
    {a : AncestryRecord} (ha : a = .place capacity may a.chain a.secondary) :
    CheckTarget.decode? a.checkOffset
        = some (if a.ownsSlot then .display a.chain.length else .secondary) ∧
      (a.ownsSlot = true → a.chain.length < capacity.slots) := by
  have howns : a.ownsSlot = (may && decide (a.chain.length < capacity.slots)) := by
    rw [ha]
    rfl
  have hoffset : a.checkOffset
      = if a.ownsSlot then (CheckTarget.display a.chain.length).offset
        else CheckTarget.secondary.offset := by
    rw [ha]
    rfl
  rw [hoffset]
  cases ho : a.ownsSlot with
  | true =>
      have hlt : a.chain.length < capacity.slots := by
        rw [ho] at howns
        simpa using (Bool.and_eq_true_iff.mp howns.symm).2
      rw [if_pos rfl, if_pos rfl, CheckTarget.decode?_offset_display _
        (Nat.lt_of_lt_of_le hlt capacity.le_max)]
      exact ⟨rfl, fun _ => hlt⟩
  | false =>
      rw [if_neg Bool.false_ne_true, if_neg Bool.false_ne_true, CheckTarget.decode?_offset_secondary]
      exact ⟨rfl, nofun⟩

theorem AncestryRecord.checkTarget_of_place {capacity : Display.Capacity} {may : Bool}
    {a : AncestryRecord} (ha : a = .place capacity may a.chain a.secondary) {target : CheckTarget}
    (ht : CheckTarget.decode? a.checkOffset = some target) :
    target = (if a.ownsSlot then .display a.chain.length else .secondary) ∧
      (a.ownsSlot = true → a.chain.length < capacity.slots) := by
  obtain ⟨hdecode, hlt⟩ := AncestryRecord.decode?_of_place ha
  exact ⟨Option.some.inj (ht.symm.trans hdecode), hlt⟩

/-- The display shows the chain as far as there are slots. -/
theorem Snapshot.TrueTo.superAt? {c : Snapshot} {b : ClassBody} (h : c.TrueTo b) {depth : Nat}
    (hd : depth < b.ancestry.capacity) :
    c.ancestry.superAt? depth = b.ancestry.chain[depth]? := by
  rw [Ancestry.superAt?_eq (h.chain ▸ h.displayLength), if_pos hd, h.chain]

/-- **A check tells what the record names.** -/
theorem Snapshot.isSubtype_iff {A : Archive} {capacity : Display.Capacity} {sub sup : Snapshot}
    {b b' : ClassBody} (hsub : sub.TrueTo b) (hsup : sup.TrueTo b')
    (hat : A sup.identity = some b') (hr : A.Regular capacity b.ancestry)
    (hr' : A.Regular capacity b'.ancestry) :
    sub.isSubtype sup = true ↔
      sub.identity = sup.identity ∨ sup.identity ∈ b.ancestry.supers := by
  unfold Snapshot.isSubtype
  by_cases hid : sub.identity = sup.identity
  · simp [hid]
  rw [if_neg hid]
  have hcapacity : b.ancestry.capacity = capacity.slots := by
    obtain ⟨may, ha⟩ := hr.placed
    rw [ha]
    rfl
  obtain ⟨may, hplaced⟩ := hr'.placed
  obtain ⟨htarget, hlt⟩ := AncestryRecord.checkTarget_of_place hplaced hsup.checkTarget
  simp only [hid, false_or, htarget]
  cases howns : b'.ancestry.ownsSlot with
  | true =>
      simp only [if_true]
      rw [hsub.superAt? (hcapacity ▸ hlt howns), decide_eq_true_eq, hr.chain_getElem?_iff hat howns]
  | false =>
      simp only [Bool.false_eq_true, if_false]
      rw [hsub.secondary, List.contains_iff_mem, hr.mem_secondary_iff hat howns]

theorem Session.Holds.isSubtype {s : Session} {a b : HandleRef} {ca cb : Snapshot}
    (ha : s.Holds a ca) (hb : s.Holds b cb) : s.isSubtype a b = .ok (ca.isSubtype cb) := by
  unfold Session.isSubtype
  simp only [ha.snapshot, hb.snapshot, bind, Except.bind]
  by_cases hab : a = b
  · subst hab
    obtain rfl := ha.inj hb
    simp [Snapshot.isSubtype]
  · simp [hab]

/-! ### Classes and interfaces -/

namespace Program

open ClassTable

variable {p : Program ClassTable} {A : Archive} {log : LoadLog}

theorem Recorded.isSubtype_iff (h : p.Recorded A log) {ca cb : Snapshot} {ba bb : ClassBody}
    (ha : A ca.identity = some ba) (hca : ca.TrueTo ba) (hb : A cb.identity = some bb)
    (hcb : cb.TrueTo bb) (hna : ca.shape.isArray = false) (hnb : cb.shape.isArray = false) :
    ca.isSubtype cb = true ↔ Reaches log ca.identity cb.identity := by
  have hna' : ba.shape.isArray = false := hca.shape ▸ hna
  have hnb' : bb.shape.isArray = false := hcb.shape ▸ hnb
  rw [Snapshot.isSubtype_iff hca hcb hb (h.chronicle.lawful _ _ ha hna').toRegular
    (h.chronicle.lawful _ _ hb hnb').toRegular, h.chronicle.reaches_iff ha hna']

/-- **A subtype check of classes and interfaces is reachability** through the class files that have
been loaded, whatever has happened to the program. -/
theorem isSubtype_iff_reaches (rootName : String) (capacity : Display.Capacity)
    (events : List Event) {i : Nat} {s : Session} {a b : HandleRef} {ca cb : Snapshot}
    (hs : ((start (create rootName capacity)).after events).sessions[i]? = some s)
    (ha : s.Holds a ca) (hb : s.Holds b cb) (hna : ca.shape.isArray = false)
    (hnb : cb.shape.isArray = false) :
    (s.isSubtype a b = .ok true ↔
        Reaches ((start (create rootName capacity)).loads events) ca.identity cb.identity) ∧
      (s.isSubtype a b = .ok false ↔
        ¬Reaches ((start (create rootName capacity)).loads events) ca.identity cb.identity) := by
  obtain ⟨A, h⟩ := recorded_after rootName capacity events
  obtain ⟨ba, hba, hca⟩ := (h.faithful i s hs).trueTo ha
  obtain ⟨bb, hbb, hcb⟩ := (h.faithful i s hs).trueTo hb
  have hiff := h.isSubtype_iff hba hca hbb hcb hna hnb
  rw [ha.isSubtype hb, ← hiff]
  cases ca.isSubtype cb <;> simp

/-- An interface, a class that implements it, a class below that one, and a session that has
resolved the last class and the interface. -/
def inheritance : List Event :=
  [.perform (.define (.interface "I")),
    .perform (.define ((ClassFile.ordinary "A").implementing [Identity.ofIndex 1])),
    .perform (.define { ClassFile.ordinary "B" with superclass := some (Identity.ofIndex 2) }),
    .openSession {},
    .request 0 (.resolve (Identity.ofIndex 3)),
    .request 0 (.resolve (Identity.ofIndex 1))]

/-- A class reaches an interface that its superclass implements, and the interface does not reach
the class. -/
theorem isSubtype_inheritance :
    ∃ s ca cb,
      ((start (create "Object" Display.Capacity.standard)).after inheritance).sessions[0]?
          = some s ∧
        s.Holds ⟨0, 0⟩ ca ∧ s.Holds ⟨0, 1⟩ cb ∧ ca.shape.isArray = false ∧
        cb.shape.isArray = false ∧ s.isSubtype ⟨0, 0⟩ ⟨0, 1⟩ = .ok true ∧
        s.isSubtype ⟨0, 1⟩ ⟨0, 0⟩ = .ok false ∧
        Reaches ((start (create "Object" Display.Capacity.standard)).loads inheritance)
          ca.identity cb.identity := by
  refine ⟨_, _, _, rfl, ⟨_, rfl, rfl⟩, ⟨_, rfl, rfl⟩, rfl, rfl, rfl, rfl, ?_⟩
  have h := isSubtype_iff_reaches "Object" Display.Capacity.standard inheritance (i := 0)
    (a := ⟨0, 0⟩) (b := ⟨0, 1⟩) rfl ⟨_, rfl, rfl⟩ ⟨_, rfl, rfl⟩ rfl rfl
  exact h.1.mp rfl

end Program

end RuntimeTypes
