/-
Records that pass verification.

A session that verifies takes a record over only if no ancestor occurs twice, the class
is not above itself, and the check slot agrees with the depth.  The first follows from
chains that go on from one another, the second from acyclicity, and the last is how
records are placed.
-/
import Mathlib.Data.List.Nodup
import RuntimeTypes.Proofs.CommonAncestor
import RuntimeTypes.Proofs.Subtyping

namespace RuntimeTypes

/-- A record that was placed is taken over if it names no type twice on the chain, nor the class
itself. -/
theorem Ancestry.ofRecord_of_place {capacity : Display.Capacity} {may : Bool} {a : AncestryRecord}
    (ha : a = .place capacity may a.chain a.secondary) {id : Identity}
    (hnodup : (a.chain ++ [id]).Nodup) (hself : id ∉ a.secondary) (name : String) (verify : Bool) :
    ∃ ancestry, Ancestry.ofRecord a id name verify = .ok ancestry := by
  obtain ⟨hdecode, hlt⟩ := AncestryRecord.decode?_of_place ha
  have hcapacity : a.capacity = capacity.slots := by
    rw [ha]
    rfl
  have hslot : a.slotFits (if a.ownsSlot then .display a.chain.length else .secondary) = true := by
    cases ho : a.ownsSlot with
    | true => exact AncestryRecord.slotFits_display.mpr ⟨ho, rfl, hcapacity ▸ hlt ho⟩
    | false => exact AncestryRecord.slotFits_secondary.mpr ho
  refine exists_ofRecord_iff.mpr ⟨⟨?_, ?_⟩, _, hdecode, fun _ => ?_⟩
  · exact hcapacity ▸ capacity.pos
  · exact hcapacity ▸ capacity.le_max
  · exact AncestryRecord.fits_iff.mpr ⟨hnodup, hself, hslot⟩

/-- No class occurs twice in a lineage. -/
theorem Archive.Coherent.nodup_lineage {A : Archive} {capacity : Display.Capacity}
    (h : A.Coherent capacity) {id : Identity} {b : ClassBody} (hb : A id = some b) :
    (b.ancestry.chain ++ [id]).Nodup := by
  refine List.nodup_iff_getElem?_ne_getElem?.mpr fun i j hij hj heq => ?_
  have hs := List.getElem?_eq_getElem hj
  have := (h.take_eq hb hb (heq.trans hs) hs).1
  omega

namespace ClassTable

/-- The record of a loaded class passes, if it was placed. -/
theorem Chronicle.ofRecord_ok {A : Archive} {log : LoadLog} {t : ClassTable} (hc : Chronicle A log t)
    (hs : t.Sound) {id : Identity} {b : ClassBody} (hb : t.bodyAt? id = some b)
    {capacity : Display.Capacity} {may : Bool}
    (hplaced : b.ancestry = .place capacity may b.ancestry.chain b.ancestry.secondary)
    (name : String) (verify : Bool) :
    ∃ ancestry, Ancestry.ofRecord b.ancestry id name verify = .ok ancestry := by
  refine Ancestry.ofRecord_of_place hplaced (hc.coherent.nodup_lineage (hc.live id b hb)) ?_ name
    verify
  intro hself
  exact hs.acyclic id (.single ⟨b, hb, AncestryRecord.mem_supers_of_secondary hself⟩)

end ClassTable

end RuntimeTypes
