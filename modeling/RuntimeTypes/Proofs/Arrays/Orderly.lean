/-
Array classes where nothing but an array is named like one, and nothing is removed.

Then the array of a class is its image one level up.  `Mirrors` says how: its record
names the arrays of exactly the types that the element's record names, and beyond those
only the root and interfaces.  Which interfaces is not up to the element but to the
requests that made the array and the superclass arrays, so `Provided` looks at those.

`Orderly` is the invariant.  A further class or interface keeps it, as there is nothing
new about arrays then; how a further array keeps it is shown in the next file.
-/
import RuntimeTypes.Proofs.Arrays.Named

namespace RuntimeTypes

namespace ClassTable

/-! ### Plain names -/

/-- An operation that removes nothing and names no class like an array. -/
def Op.Plain : Op → Prop
  | .define d => isArrayName d.name = false
  | .declare _ name => isArrayName name = false
  | .unload _ => False
  | _ => True

instance : DecidablePred Op.Plain
  | .define d => inferInstanceAs (Decidable (isArrayName d.name = false))
  | .declare _ name => inferInstanceAs (Decidable (isArrayName name = false))
  | .unload _ => isFalse id
  | .newLoader _ | .complete _ _ | .arrayOf _ _ => isTrue trivial

/-! ### Records of arrays -/

/-- The arrays that requests have made, each with the interfaces of its request. -/
abbrev ArrayLog := List (Identity × List Identity)

/-- A type is contributed by the interfaces with which one of some arrays was made. -/
def Provided (t : ClassTable) (made : ArrayLog) (arrays : List Identity) (s : Identity) : Prop :=
  ∃ array ∈ arrays, ∃ interfaces, (array, interfaces) ∈ made ∧
    Archive.Contributes t.bodyAt? interfaces s

/-- An array stands one deeper than its element, and owns a slot if the element does and there is
one. -/
structure OneDeeper (t : ClassTable) (element array : ClassBody) : Prop where
  depth : array.ancestry.chain.length = element.ancestry.chain.length + 1
  ownsSlot : array.ancestry.ownsSlot
    = (element.ancestry.ownsSlot && decide (array.ancestry.chain.length < t.capacity.slots))

/-- How the record of an array goes with that of its element. -/
structure Mirrors (t : ClassTable) (element array : ClassBody) : Prop
    extends OneDeeper t element array where
  /-- Above an array there are arrays of what is above its element, and what is no array. -/
  fromElement : ∀ s ∈ array.ancestry.supers,
    (∃ x ∈ element.ancestry.supers, t.arrayAt? x = some s) ∨
      ∃ b, t.bodyAt? s = some b ∧ b.shape.isArray = false
  /-- What is above the element has an array above the array. -/
  toArray : ∀ x ∈ element.ancestry.supers, ∃ s ∈ array.ancestry.supers, t.arrayAt? x = some s

/-- An array of primitive values, which has nothing above it that is an array. -/
structure OfPrimitive (t : ClassTable) (id : Identity) (b : ClassBody) : Prop where
  named : t.NamedAfterPrimitive id
  noArrays : ∀ s ∈ b.ancestry.supers, ∃ sb, t.bodyAt? s = some sb ∧ sb.shape.isArray = false

/-- The record of an array. -/
structure ArrayRecord (t : ClassTable) (made : ArrayLog) (id : Identity) (b : ClassBody) :
    Prop where
  regular : Archive.Regular t.bodyAt? t.capacity b.ancestry
  /-- The array stands below the root or another array, and inherits everything from there. -/
  superclass : ∃ p pb, t.bodyAt? p = some pb ∧ b.ancestry.chain = pb.ancestry.chain ++ [p] ∧
    ∀ s ∈ pb.ancestry.supers, s ∈ b.ancestry.supers
  chainArrays : ∀ s ∈ b.ancestry.chain,
    s = root ∨ ∃ sb, t.bodyAt? s = some sb ∧ sb.shape.isArray = true
  /-- What is above an array is the root, an array, or comes with a request. -/
  sorted : ∀ s ∈ b.ancestry.supers,
    s = root ∨ (∃ sb, t.bodyAt? s = some sb ∧ sb.shape.isArray = true) ∨
      t.Provided made (b.ancestry.chain ++ [id]) s
  provided : ∀ s, t.Provided made (b.ancestry.chain ++ [id]) s → s ∈ b.ancestry.supers
  element : (∃ x, t.arrayAt? x = some id) ∨ t.OfPrimitive id b

/-- The invariant. -/
structure Orderly (t : ClassTable) (made : ArrayLog) : Prop where
  /-- Whatever is named like an array is a loaded array. -/
  named : ∀ id entry, t.objectAt id = some entry → isArrayName entry.name = true →
    ∃ b, entry.body? = some b ∧ b.shape.isArray = true
  /-- What is found as the array of a class mirrors it, and came later. -/
  mirrors : ∀ x array, t.arrayAt? x = some array → x.index < array.index ∧
    ∃ xb ab, t.bodyAt? x = some xb ∧ t.bodyAt? array = some ab ∧ ab.shape.isArray = true ∧
      t.Mirrors xb ab
  records : ∀ id b, t.bodyAt? id = some b → b.shape.isArray = true → t.ArrayRecord made id b
  log : ∀ id interfaces, (id, interfaces) ∈ made →
    (∃ b, t.bodyAt? id = some b ∧ b.shape.isArray = true) ∧
      ∀ i ∈ interfaces, ∃ ib, t.bodyAt? i = some ib ∧ ib.shape = .interface

/-! ### Tables that grow -/

section

variable {t t' : ClassTable} {made made' : ArrayLog}

theorem Mirrors.grow (hg : Grows t t') {xb ab : ClassBody} (h : t.Mirrors xb ab) :
    t'.Mirrors xb ab where
  depth := h.depth
  ownsSlot := by rw [hg.capacity, h.ownsSlot]
  fromElement := fun s hs => by
    rcases h.fromElement s hs with ⟨x, hx, ha⟩ | ⟨b, hb, hn⟩
    · exact Or.inl ⟨x, hx, hg.arrayAt? ha⟩
    · exact Or.inr ⟨b, hg.bodies s b hb, hn⟩
  toArray := fun x hx => by
    obtain ⟨s, hs, ha⟩ := h.toArray x hx
    exact ⟨s, hs, hg.arrayAt? ha⟩

theorem OfPrimitive.grow (hg : Grows t t') {id : Identity} {b : ClassBody}
    (h : t.OfPrimitive id b) : t'.OfPrimitive id b where
  named := h.named.grow hg
  noArrays := fun s hs => by
    obtain ⟨sb, hsb, hn⟩ := h.noArrays s hs
    exact ⟨sb, hg.bodies s sb hsb, hn⟩

theorem Provided.mono (hbodies : Archive.Within t.bodyAt? t'.bodyAt?)
    (hmade : ∀ e ∈ made, e ∈ made') {arrays : List Identity} {s : Identity}
    (h : t.Provided made arrays s) :
    t'.Provided made' arrays s := by
  obtain ⟨array, ha, interfaces, hm, hc⟩ := h
  exact ⟨array, ha, interfaces, hmade _ hm, hc.mono hbodies⟩

/-- The requests that made loaded arrays are known, and provide no more than they did. -/
theorem Orderly.provided_back (h : t.Orderly made) (hbodies : Archive.Within t.bodyAt? t'.bodyAt?)
    (hback : ∀ id b interfaces, t.bodyAt? id = some b → (id, interfaces) ∈ made' →
      (id, interfaces) ∈ made)
    {arrays : List Identity} (harrays : ∀ a ∈ arrays, ∃ b, t.bodyAt? a = some b) {s : Identity}
    (hp : t'.Provided made' arrays s) : t.Provided made arrays s := by
  obtain ⟨array, ha, interfaces, hm, hc⟩ := hp
  obtain ⟨b, hb⟩ := harrays array ha
  have hm' := hback array b interfaces hb hm
  exact ⟨array, ha, interfaces, hm',
    (Archive.contributes_iff hbodies (h.log array interfaces hm').2 s).mp hc⟩

theorem ArrayRecord.grow (h : t.Orderly made) (hg : Grows t t') (hmade : ∀ e ∈ made, e ∈ made')
    (hback : ∀ id b interfaces, t.bodyAt? id = some b → (id, interfaces) ∈ made' →
      (id, interfaces) ∈ made)
    {id : Identity} {b : ClassBody} (hb : t.bodyAt? id = some b) (hr : t.ArrayRecord made id b) :
    t'.ArrayRecord made' id b where
  regular := hg.capacity ▸ hr.regular.mono hg.bodies
  superclass := by
    obtain ⟨p, pb, hp, hrest⟩ := hr.superclass
    exact ⟨p, pb, hg.bodies p pb hp, hrest⟩
  chainArrays := fun s hs => (hr.chainArrays s hs).imp_right fun ⟨sb, hsb, ha⟩ =>
    ⟨sb, hg.bodies s sb hsb, ha⟩
  sorted := fun s hs => by
    rcases hr.sorted s hs with hs | ⟨sb, hsb, ha⟩ | hp
    · exact Or.inl hs
    · exact Or.inr (Or.inl ⟨sb, hg.bodies s sb hsb, ha⟩)
    · exact Or.inr (Or.inr (hp.mono hg.bodies hmade))
  provided := fun s hp => by
    refine hr.provided s (h.provided_back hg.bodies hback ?_ hp)
    intro a ha
    rcases List.mem_append.mp ha with ha | ha
    · obtain ⟨i, hi⟩ := List.mem_iff_getElem?.mp ha
      obtain ⟨ab, hab, -⟩ := hr.regular.chain i a hi
      exact ⟨ab, hab⟩
    · exact ⟨b, List.mem_singleton.mp ha ▸ hb⟩
  element := hr.element.imp (fun ⟨x, hx⟩ => ⟨x, hg.arrayAt? hx⟩) fun hp => hp.grow hg

theorem Orderly.grow (h : t.Orderly made) (hk : SameArrays t t') : t'.Orderly made where
  named := hk.named
  mirrors := fun x array ha => by
    obtain ⟨hlt, xb, ab, hxb, hab, hn, hm⟩ := h.mirrors x array (hk.found x array ha)
    exact ⟨hlt, xb, ab, hk.grows.bodies x xb hxb, hk.grows.bodies array ab hab, hn,
      hm.grow hk.grows⟩
  records := fun id b hb hn =>
    (h.records id b (hk.bodies id b hb hn) hn).grow h hk.grows (fun _ he => he)
      (fun _ _ _ _ hm => hm) (hk.bodies id b hb hn)
  log := fun id interfaces hm => by
    obtain ⟨⟨b, hb, hn⟩, hi⟩ := h.log id interfaces hm
    exact ⟨⟨b, hk.grows.bodies id b hb, hn⟩, Archive.areInterfaces_mono hk.grows.bodies hi⟩

theorem Orderly.neat (h : t.Orderly made) : t.Neat where
  named := h.named
  found := fun x array ha => by
    obtain ⟨hlt, xb, -, hx, -⟩ := h.mirrors x array ha
    exact ⟨hlt, xb, hx⟩
  element := fun id b hb hn => (h.records id b hb hn).element.imp_right fun hp => hp.named

end

end ClassTable

end RuntimeTypes
