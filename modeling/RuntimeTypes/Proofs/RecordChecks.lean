/-
Which records are taken over.

`Ancestry.ofRecord` looks at a record in steps: it decodes the check offset, compares the
capacity with the room there is, and verifies if it is told to.  All the steps fail alike,
so what matters is which records come through.  `ofRecord_eq_ok_iff` says it of the steps,
and the rest of the file says what the steps amount to.

Decoding an offset takes it apart in 32-bit arithmetic: it subtracts, divides, and looks at
the remainder.  The slots end far below the bound of that arithmetic, so the offsets that
decode are the ones that some place in a class record has, and encoding leads back.
-/
import RuntimeTypes.Ancestry

namespace RuntimeTypes

/-! ### Offsets -/

namespace CheckTarget

open Display

/-- There is such a place in a class record. -/
def InRecord : CheckTarget → Prop
  | display depth => depth < maxCapacity
  | secondary => True

theorem toNat_slotOffset {depth : Nat} (h : depth < maxCapacity) :
    (slotOffset depth).toNat = firstSlotOffset.toNat + depth * slotSize.toNat := by
  have hlt : depth < 16 := h
  have hsmall : (UInt32.ofNat depth).toNat = depth := UInt32.toNat_ofNat_of_lt' (by
    show depth < 4294967296
    omega)
  have hsize : slotSize.toNat = 8 := rfl
  have hfirst : firstSlotOffset.toNat = 40 := rfl
  unfold slotOffset
  rw [UInt32.toNat_add, UInt32.toNat_mul, hsmall, hsize, hfirst]
  omega

/-- An offset that has been taken apart without remainder is put together again. -/
theorem slotOffset_of_relative {offset : UInt32} (hle : firstSlotOffset ≤ offset)
    (hwhole : (offset - firstSlotOffset) % slotSize = 0)
    (hlt : ((offset - firstSlotOffset) / slotSize).toNat < maxCapacity) :
    slotOffset ((offset - firstSlotOffset) / slotSize).toNat = offset := by
  have hfrom : (offset - firstSlotOffset).toNat = offset.toNat - firstSlotOffset.toNat :=
    UInt32.toNat_sub_of_le offset firstSlotOffset hle
  have hdvd : slotSize.toNat ∣ (offset - firstSlotOffset).toNat := by
    refine Nat.dvd_of_mod_eq_zero ?_
    rw [← UInt32.toNat_mod, hwhole]
    rfl
  refine UInt32.toNat_inj.mp ?_
  rw [toNat_slotOffset hlt, UInt32.toNat_div, Nat.div_mul_cancel hdvd, hfrom]
  exact Nat.add_sub_cancel' (UInt32.le_iff_toNat_le.mp hle)

/-- **An offset decodes exactly if it is that of a place in a class record**, and to that place. -/
theorem decode?_eq_some_iff {offset : UInt32} {target : CheckTarget} :
    decode? offset = some target ↔ target.InRecord ∧ target.offset = offset := by
  constructor
  · intro h
    unfold decode? at h
    split at h
    · rename_i hcache
      obtain rfl := Option.some.inj h
      exact ⟨trivial, hcache.symm⟩
    · split at h
      · cases h
      · rename_i hle
        simp only at h
        split at h
        · rename_i hslot
          obtain rfl := Option.some.inj h
          exact ⟨hslot.2, slotOffset_of_relative (UInt32.not_lt.mp hle) hslot.1 hslot.2⟩
        · cases h
  · rintro ⟨hin, rfl⟩
    cases target with
    | display depth => exact decode?_offset_display depth hin
    | secondary => exact decode?_offset_secondary

end CheckTarget

/-! ### Records -/

namespace AncestryRecord

variable {record : AncestryRecord} {this : Identity} {slot : CheckTarget}

/-- A class record has room for the slots in use, and there are some. -/
structure InRange (record : AncestryRecord) : Prop where
  pos : 0 < record.capacity
  le_max : record.capacity ≤ Display.maxCapacity

/-- The check offset is that of a slot or of the cache, whether or not it fits the rest. -/
structure Readable (record : AncestryRecord) : Prop extends record.InRange where
  addressed : record.checkOffset = Display.secondaryOffset ∨
    ∃ depth < Display.maxCapacity, record.checkOffset = Display.slotOffset depth

/-- The record makes sense as that of the class `this`. -/
structure WellFormed (record : AncestryRecord) (this : Identity) : Prop extends record.InRange where
  /-- The chain, with the class itself behind it, names no class twice. -/
  unrepeated : (record.chain ++ [this]).Nodup
  /-- The class is not above itself by the other way either. -/
  notSecondary : this ∉ record.secondary
  /-- A class that owns a slot is checked at the one at its depth, which is in use; one that owns none
  is looked for among the secondary supertypes. -/
  placed : record.ownsSlot = true ∧ record.chain.length < record.capacity ∧
      record.checkOffset = Display.slotOffset record.chain.length ∨
    record.ownsSlot = false ∧ record.checkOffset = Display.secondaryOffset

theorem readable_iff :
    record.Readable ↔ record.InRange ∧ ∃ slot, CheckTarget.decode? record.checkOffset = some slot := by
  simp only [CheckTarget.decode?_eq_some_iff]
  constructor
  · intro h
    refine ⟨h.toInRange, ?_⟩
    rcases h.addressed with hcache | ⟨depth, hlt, hslot⟩
    · exact ⟨.secondary, trivial, hcache.symm⟩
    · exact ⟨.display depth, hlt, hslot.symm⟩
  · rintro ⟨hrange, slot, hin, hoffset⟩
    refine ⟨hrange, ?_⟩
    cases slot with
    | display depth => exact .inr ⟨depth, hin, hoffset.symm⟩
    | secondary => exact .inl hoffset.symm

theorem slotFits_display {depth : Nat} :
    record.slotFits (.display depth) = true ↔
      record.ownsSlot = true ∧ depth = record.chain.length ∧ depth < record.capacity := by
  simp [slotFits, and_assoc]

theorem slotFits_secondary : record.slotFits .secondary = true ↔ record.ownsSlot = false := by
  simp [slotFits]

theorem fits_iff :
    record.fits this slot = true ↔ (record.chain ++ [this]).Nodup ∧ this ∉ record.secondary ∧
      record.slotFits slot = true := by
  simp only [fits, Bool.and_eq_true, Bool.not_eq_true', hasRepeat_eq_false_iff, and_assoc,
    List.contains_eq_mem, decide_eq_false_iff_not]

/-- Within the range, what fits has a place in a class record, so its offset need not be asked for
that. -/
theorem wellFormed_iff :
    record.WellFormed this ↔ record.InRange ∧
      ∃ slot, CheckTarget.decode? record.checkOffset = some slot ∧ record.fits this slot = true := by
  simp only [CheckTarget.decode?_eq_some_iff, fits_iff]
  constructor
  · intro h
    refine ⟨h.toInRange, ?_⟩
    rcases h.placed with ⟨howns, hlt, hslot⟩ | ⟨howns, hcache⟩
    · exact ⟨.display record.chain.length, ⟨Nat.lt_of_lt_of_le hlt h.le_max, hslot.symm⟩, h.unrepeated,
        h.notSecondary, slotFits_display.mpr ⟨howns, rfl, hlt⟩⟩
    · exact ⟨.secondary, ⟨trivial, hcache.symm⟩, h.unrepeated, h.notSecondary,
        slotFits_secondary.mpr howns⟩
  · rintro ⟨hrange, slot, ⟨-, hoffset⟩, hunrepeated, hnot, hfits⟩
    refine ⟨hrange, hunrepeated, hnot, ?_⟩
    cases slot with
    | display depth =>
        obtain ⟨howns, rfl, hlt⟩ := slotFits_display.mp hfits
        exact .inl ⟨howns, hlt, hoffset.symm⟩
    | secondary => exact .inr ⟨slotFits_secondary.mp hfits, hoffset.symm⟩

end AncestryRecord

/-! ### Taking a record over -/

namespace Ancestry

variable {record : AncestryRecord} {this : Identity} {name : String} {verify : Bool} {a : Ancestry}

/-- The ancestry says what the record says. -/
structure Shows (a : Ancestry) (record : AncestryRecord) : Prop where
  chain : a.chain = record.chain
  secondary : a.secondary = record.secondary
  ownsSlot : a.ownsSlot = record.ownsSlot
  displayLength : a.displayLength = min record.chain.length record.capacity
  checkOffset : a.checkOffset = record.checkOffset
  checkTarget : CheckTarget.decode? record.checkOffset = some a.checkTarget

theorem Shows.eq {a' : Ancestry} (h : a.Shows record) (h' : a'.Shows record) : a = a' := by
  obtain ⟨hchain, hsecondary, howns, hlength, hoffset, htarget⟩ := h
  obtain ⟨hchain', hsecondary', howns', hlength', hoffset', htarget'⟩ := h'
  have hsame := Option.some.inj (htarget.symm.trans htarget')
  cases a
  cases a'
  simp_all

theorem ofRecord_eq_ok_iff :
    ofRecord record this name verify = .ok a ↔ record.InRange ∧ a.Shows record ∧
      (verify = true → record.fits this a.checkTarget = true) := by
  constructor
  · intro h
    unfold ofRecord at h
    split at h
    · cases h
    · rename_i slot hslot
      split at h
      · cases h
      · rename_i hrange
        split at h
        · cases h
        · rename_i hfits
          obtain rfl := Except.ok.inj h
          refine ⟨⟨by omega, by omega⟩, ⟨rfl, rfl, rfl, rfl, rfl, hslot⟩, fun hverify => ?_⟩
          simpa [hverify] using hfits
  · rintro ⟨hrange, hshows, hfits⟩
    have hin : ¬(record.capacity = 0 ∨ Display.maxCapacity < record.capacity) := by
      have hpos := hrange.pos
      have hmax := hrange.le_max
      omega
    have hpasses : ¬(verify && !record.fits this a.checkTarget) = true := by
      cases verify with
      | false => simp
      | true => simp [hfits rfl]
    unfold ofRecord
    simp only [hshows.checkTarget, if_neg hin, if_neg hpasses, Except.ok.injEq]
    exact Shows.eq ⟨rfl, rfl, rfl, rfl, rfl, hshows.checkTarget⟩ hshows

theorem exists_shows {slot : CheckTarget}
    (hslot : CheckTarget.decode? record.checkOffset = some slot) :
    ∃ a : Ancestry, a.Shows record ∧ a.checkTarget = slot :=
  ⟨⟨record.chain, min record.chain.length record.capacity, record.secondary, record.ownsSlot,
    record.checkOffset, slot⟩, ⟨rfl, rfl, rfl, rfl, rfl, hslot⟩, rfl⟩

theorem exists_ofRecord_iff :
    (∃ a, ofRecord record this name verify = .ok a) ↔ record.InRange ∧
      ∃ slot, CheckTarget.decode? record.checkOffset = some slot ∧
        (verify = true → record.fits this slot = true) := by
  simp only [ofRecord_eq_ok_iff]
  constructor
  · rintro ⟨a, hrange, hshows, hfits⟩
    exact ⟨hrange, a.checkTarget, hshows.checkTarget, hfits⟩
  · rintro ⟨hrange, slot, hslot, hfits⟩
    obtain ⟨a, hshows, rfl⟩ := exists_shows hslot
    exact ⟨a, hrange, hshows, hfits⟩

theorem ofRecord_eq_error {e : HeapFailure} (h : ofRecord record this name verify = .error e) :
    e = .cyclicHierarchy name := by
  unfold ofRecord at h
  split at h
  · exact (Except.error.inj h).symm
  · split at h
    · exact (Except.error.inj h).symm
    · split at h
      · exact (Except.error.inj h).symm
      · cases h

/-! ### The display -/

theorem superAt?_eq {slots : Nat} (h : a.displayLength = min a.chain.length slots) (depth : Nat) :
    a.superAt? depth = if depth < slots then a.chain[depth]? else none := by
  unfold superAt? display
  rw [h, List.getElem?_take]
  by_cases hd : depth < slots
  · rw [if_pos hd]
    by_cases hc : depth < a.chain.length
    · rw [if_pos (Nat.lt_min.mpr ⟨hc, hd⟩)]
    · rw [List.getElem?_eq_none (Nat.le_of_not_lt hc), ite_self]
  · rw [if_neg hd, if_neg fun hlt => hd (Nat.lt_min.mp hlt).2]

theorem superAt?_eq_none_iff {slots : Nat} (h : a.displayLength = min a.chain.length slots)
    (depth : Nat) : a.superAt? depth = none ↔ min a.depth slots ≤ depth := by
  rw [superAt?_eq h, Ancestry.depth]
  split
  · rw [List.getElem?_eq_none_iff]
    omega
  · simp only [true_iff]
    omega

/-! ### What comes of it -/

/-- What there is to be seen of a record in the ancestry that has been made of it. -/
structure TakenFrom (a : Ancestry) (record : AncestryRecord) : Prop where
  chain : a.chain = record.chain
  secondary : a.secondary = record.secondary
  /-- The display shows the chain, as far as there are slots, -/
  shown : ∀ (i : Nat) (h : i < record.chain.length), i < record.capacity →
    a.superAt? i = some record.chain[i]
  /-- and nothing beyond. -/
  beyond : ∀ i, min record.chain.length record.capacity ≤ i → a.superAt? i = none
  /-- The place that a check looks at has the offset of the record. -/
  offset : a.checkTarget.offset = record.checkOffset

theorem Shows.takenFrom (h : a.Shows record) : a.TakenFrom record where
  chain := h.chain
  secondary := h.secondary
  shown := fun i hchain hslot => by
    have hlength : a.displayLength = min a.chain.length record.capacity := h.chain ▸ h.displayLength
    rw [superAt?_eq hlength, if_pos hslot, h.chain, List.getElem?_eq_getElem hchain]
  beyond := fun i hi => by
    have hlength : a.displayLength = min a.chain.length record.capacity := h.chain ▸ h.displayLength
    rw [superAt?_eq_none_iff hlength, depth, h.chain]
    exact hi
  offset := (CheckTarget.decode?_eq_some_iff.mp h.checkTarget).2

/-- **A session that verifies takes over exactly the well-formed records**, and one that does not
exactly those with a capacity and an offset that mean something.  All others are refused under the
name of the class. -/
theorem ofRecord_accepts (record : AncestryRecord) (this : Identity) (name : String) :
    ((∃ a, ofRecord record this name true = .ok a) ↔ record.WellFormed this) ∧
    ((∃ a, ofRecord record this name false = .ok a) ↔ record.Readable) ∧
    ∀ verify,
      (∀ e, ofRecord record this name verify = .error e → e = .cyclicHierarchy name) ∧
      ∀ a, ofRecord record this name verify = .ok a → a.TakenFrom record := by
  refine ⟨?_, ?_, fun verify => ⟨fun e => ofRecord_eq_error, fun a h => ?_⟩⟩
  · rw [exists_ofRecord_iff, AncestryRecord.wellFormed_iff]
    simp only [true_imp_iff]
  · rw [exists_ofRecord_iff, AncestryRecord.readable_iff]
    simp only [Bool.false_eq_true, false_imp_iff, and_true]
  · obtain ⟨-, hshows, -⟩ := ofRecord_eq_ok_iff.mp h
    exact hshows.takenFrom

end Ancestry

end RuntimeTypes
