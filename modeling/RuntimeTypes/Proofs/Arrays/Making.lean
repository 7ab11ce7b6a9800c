/-
A further array keeps a table orderly.

An array goes on from the root or from the array of its element's superclass, and adds
the arrays of the element's other supertypes and what the request's interfaces
contribute: `Founded` says so, of an array that is about to be added.  Its record and
the way it mirrors its element follow from the same facts about the superclass array.

What an array is founded on takes less than an orderly table.  `Raised` has what is
needed of the arrays that are found, and removed classes do no harm to it.
-/
import RuntimeTypes.Proofs.Arrays.Orderly

namespace RuntimeTypes

namespace ClassTable

variable {t : ClassTable} {A : Archive} {made : ArrayLog} {log : LoadLog}

/-! ### Loaded types of an orderly table -/

/-- All records are regular. -/
theorem Orderly.regular (h : t.Orderly made) (hc : Chronicle t.bodyAt? log t) {id : Identity}
    {b : ClassBody} (hb : t.bodyAt? id = some b) :
    Archive.Regular t.bodyAt? t.capacity b.ancestry := by
  cases hn : b.shape.isArray with
  | true => exact (h.records id b hb hn).regular
  | false => exact (hc.lawful id b hb hn).toRegular

/-- All types below the root inherit what is above their superclass. -/
theorem Orderly.inherits (h : t.Orderly made) (hc : Chronicle t.bodyAt? log t) {id p : Identity}
    {b pb : ClassBody} (hb : t.bodyAt? id = some b) (hp : t.bodyAt? p = some pb)
    (hchain : b.ancestry.chain = pb.ancestry.chain ++ [p]) :
    ∀ s ∈ pb.ancestry.supers, s ∈ b.ancestry.supers := by
  cases hn : b.shape.isArray with
  | true =>
      obtain ⟨p', pb', hp', hchain', hsub⟩ := (h.records id b hb hn).superclass
      obtain ⟨-, heq⟩ := List.append_inj' (hchain.symm.trans hchain') rfl
      obtain rfl := List.singleton_inj.mp heq
      obtain rfl := Option.some.inj (hp.symm.trans hp')
      exact hsub
  | false =>
      have hmem : p ∈ b.ancestry.supers := by
        refine AncestryRecord.mem_supers_of_chain ?_
        rw [hchain]
        simp
      obtain ⟨pb', hp', -, hsub⟩ := (hc.lawful id b hb hn).closed p hmem
      obtain rfl := Option.some.inj (hp.symm.trans hp')
      exact hsub

/-- What interfaces contribute are interfaces. -/
theorem Chronicle.contributes_interface (hc : Chronicle A log t) {interfaces : List Identity}
    (hall : ∀ i ∈ interfaces, ∃ b, t.bodyAt? i = some b ∧ b.shape = .interface) {s : Identity}
    (hs : Archive.Contributes t.bodyAt? interfaces s) :
    ∃ sb, A s = some sb ∧ sb.shape = .interface := by
  obtain ⟨i, hi, ib, hib, hs⟩ := hs
  obtain ⟨ib', hib', hshape⟩ := hall i hi
  obtain rfl := Option.some.inj (hib.symm.trans hib')
  rcases hs with rfl | hs
  · exact ⟨ib, hc.live _ ib hib, hshape⟩
  · exact ((hc.lawful i ib (hc.live i ib hib) (by simp [hshape])).interfaces hshape).2 s hs

/-- What has had a body and is still there is loaded. -/
theorem Chronicle.bodyAt?_of_objectAt (hc : Chronicle A log t) {x : Identity} {b : ClassBody}
    (hb : A x = some b) {entry : ClassObject} (he : t.objectAt x = some entry) :
    t.bodyAt? x = some b := by
  cases hbody : entry.body? with
  | none => exact absurd ⟨entry, he, hbody⟩ (hc.past x b hb).2
  | some b' =>
      have hlive : t.bodyAt? x = some b' := bodyAt?_eq_some.mpr ⟨entry, he, hbody⟩
      rw [hlive, ← hc.live x b' hlive, hb]

theorem Chronicle.bodyAt?_of_arrayAt? (hc : Chronicle A log t) {x array : Identity} {b : ClassBody}
    (hb : A x = some b) (ha : t.arrayAt? x = some array) : t.bodyAt? x = some b := by
  obtain ⟨key, hkey, -⟩ := Option.bind_eq_some_iff.mp ha
  obtain ⟨entry, he, -⟩ := Option.map_eq_some_iff.mp hkey
  exact hc.bodyAt?_of_objectAt hb he

theorem Chronicle.rootAt (hc : Chronicle A log t) (hs : t.Sound) :
    ∃ b, t.bodyAt? root = some b ∧ b.shape = .instanceClass ∧
      b.ancestry = .place t.capacity true [] [] := by
  obtain ⟨b, hb, -⟩ := hs.rootLoaded
  obtain ⟨b', hb', hrest⟩ := hc.coherent.rootAt
  obtain rfl := Option.some.inj ((hc.live root b hb).symm.trans hb')
  exact ⟨b, hb, hrest⟩

/-! ### What an array is made from -/

/-- The chain and the secondary supertypes of an array that goes on from `p`, where `others` are the
arrays of the further supertypes of its element. -/
structure Founded (t : ClassTable) (interfaces chain secondary : List Identity) (p : Identity)
    (pb : ClassBody) (others : Identity → Prop) : Prop where
  superAt : t.bodyAt? p = some pb
  superKind : p = root ∨ pb.shape.isArray = true
  superSlot : pb.ancestry.ownsSlot = decide (pb.ancestry.chain.length < t.capacity.slots)
  chain_eq : chain = pb.ancestry.chain ++ [p]
  areArrays : ∀ s, others s → ∃ sb, t.bodyAt? s = some sb ∧ sb.shape.isArray = true ∧
    sb.ancestry.ownsSlot = false
  areInterfaces : ∀ i ∈ interfaces, ∃ b, t.bodyAt? i = some b ∧ b.shape = .interface
  mem_secondary : ∀ s, s ∈ secondary ↔ s ∈ pb.ancestry.secondary ∨ others s ∨
    Archive.Contributes t.bodyAt? interfaces s ∨ s ∈ chain.drop t.capacity.slots

namespace Founded

variable {interfaces chain secondary : List Identity} {p : Identity} {pb : ClassBody}
  {others : Identity → Prop}

/-- What is above the array. -/
theorem mem_supers (hf : t.Founded interfaces chain secondary p pb others) (plan : ArrayPlan)
    (s : Identity) : s ∈ (t.arrayBody plan chain secondary).ancestry.supers ↔
      s ∈ pb.ancestry.supers ∨ s = p ∨ others s ∨ Archive.Contributes t.bodyAt? interfaces s := by
  have hmem : s ∈ (t.arrayBody plan chain secondary).ancestry.supers ↔ s ∈ chain ∨ s ∈ secondary :=
    AncestryRecord.mem_supers
  have hchain : s ∈ chain ↔ s ∈ pb.ancestry.chain ∨ s = p := by rw [hf.chain_eq]; simp
  rw [hmem, hf.mem_secondary, hchain, AncestryRecord.mem_supers]
  constructor
  · rintro ((hs | hs) | hs | hs | hs | hs)
    · exact Or.inl (Or.inl hs)
    · exact Or.inr (Or.inl hs)
    · exact Or.inl (Or.inr hs)
    · exact Or.inr (Or.inr (Or.inl hs))
    · exact Or.inr (Or.inr (Or.inr hs))
    · exact (hchain.mp (List.mem_of_mem_drop hs)).imp Or.inl Or.inl
  · rintro ((hs | hs) | hs | hs | hs)
    · exact Or.inl (Or.inl hs)
    · exact Or.inr (Or.inl hs)
    · exact Or.inl (Or.inr hs)
    · exact Or.inr (Or.inr (Or.inl hs))
    · exact Or.inr (Or.inr (Or.inr (Or.inl hs)))

theorem regular (hf : t.Founded interfaces chain secondary p pb others) (hc : Chronicle A log t)
    (hsuper : A.Regular t.capacity pb.ancestry) (plan : ArrayPlan) :
    A.Regular t.capacity (t.arrayBody plan chain secondary).ancestry := by
  refine hsuper.below (hc.live p pb hf.superAt) hf.superSlot ⟨plan.mayOwnSlot, rfl⟩ hf.chain_eq ?_ ?_
  · intro s hs
    rcases (hf.mem_secondary s).mp hs with hs | hs | hs | hs
    · exact Or.inr (hsuper.secondary s hs)
    · obtain ⟨sb, hsb, -, howns⟩ := hf.areArrays s hs
      exact Or.inr ⟨sb, hc.live s sb hsb, howns⟩
    · obtain ⟨sb, hsb, hshape⟩ := hc.contributes_interface hf.areInterfaces hs
      have hlaw := hc.lawful s sb hsb (by simp [hshape])
      exact Or.inr ⟨sb, hsb, hlaw.ownsSlot_interface hshape⟩
    · exact Or.inl hs
  · exact fun s hs => (hf.mem_secondary s).mpr (Or.inr (Or.inr (Or.inr hs)))

/-- The arrays on the chain, and the root. -/
theorem chainArrays (hf : t.Founded interfaces chain secondary p pb others) (h : t.Orderly made)
    (hc : Chronicle t.bodyAt? log t) :
    ∀ s ∈ chain, s = root ∨ ∃ sb, t.bodyAt? s = some sb ∧ sb.shape.isArray = true := by
  intro s hs
  rw [hf.chain_eq, List.mem_append] at hs
  rcases hs with hs | hs
  · rcases hf.superKind with rfl | hn
    · rw [hc.coherent.chain_root hf.superAt] at hs
      cases hs
    · exact (h.records p pb hf.superAt hn).chainArrays s hs
  · obtain rfl := List.mem_singleton.mp hs
    exact hf.superKind.imp_right fun hn => ⟨pb, hf.superAt, hn⟩

/-- What is above the array is the root, an array, or comes with a request. -/
theorem sorted (hf : t.Founded interfaces chain secondary p pb others) (h : t.Orderly made)
    (hc : Chronicle t.bodyAt? log t) (plan : ArrayPlan) {s : Identity}
    (hs : s ∈ (t.arrayBody plan chain secondary).ancestry.supers) :
    s = root ∨ (∃ sb, t.bodyAt? s = some sb ∧ sb.shape.isArray = true) ∨
      t.Provided made chain s ∨ Archive.Contributes t.bodyAt? interfaces s := by
  rcases (hf.mem_supers plan s).mp hs with hs | hs | hs | hs
  · rcases hf.superKind with rfl | hn
    · obtain ⟨rootBody, hb, -, ha⟩ := hc.coherent.rootAt
      obtain rfl := Option.some.inj (hf.superAt.symm.trans hb)
      rw [ha] at hs
      cases hs
    · have hsuper := (h.records p pb hf.superAt hn).sorted s hs
      rw [← hf.chain_eq] at hsuper
      exact hsuper.imp_right fun hs => hs.imp_right Or.inl
  · subst hs
    exact hf.superKind.imp_right fun hn => Or.inl ⟨pb, hf.superAt, hn⟩
  · obtain ⟨sb, hsb, hn, -⟩ := hf.areArrays s hs
    exact Or.inr (Or.inl ⟨sb, hsb, hn⟩)
  · exact Or.inr (Or.inr (Or.inr hs))

/-- What has come with the requests for the arrays on the chain is above the array. -/
theorem provided (hf : t.Founded interfaces chain secondary p pb others) (h : t.Orderly made)
    (hc : Chronicle t.bodyAt? log t) (plan : ArrayPlan) {s : Identity}
    (hp : t.Provided made chain s) : s ∈ (t.arrayBody plan chain secondary).ancestry.supers := by
  refine (hf.mem_supers plan s).mpr (Or.inl ?_)
  rcases hf.superKind with hroot | hn
  · -- No request has made the root.
    subst hroot
    obtain ⟨rootBody, hb, hshape, -⟩ := hc.coherent.rootAt
    obtain ⟨array, ha, is, hm, -⟩ := hp
    rw [hf.chain_eq, hc.coherent.chain_root hf.superAt] at ha
    obtain rfl := List.mem_singleton.mp ha
    obtain ⟨⟨ab, hab, hna⟩, -⟩ := h.log _ is hm
    obtain rfl := Option.some.inj (hb.symm.trans hab)
    simp [hshape] at hna
  · exact (h.records p pb hf.superAt hn).provided s (hf.chain_eq ▸ hp)

/-- The record of the array, once it has been added. -/
theorem record (hf : t.Founded interfaces chain secondary p pb others) (h : t.Orderly made)
    (hc : Chronicle t.bodyAt? log t) {plan : ArrayPlan} {t' : ClassTable} (hg : Grows t t')
    {id : Identity} (hid : t.bodyAt? id = none)
    (hid' : t'.bodyAt? id = some (t.arrayBody plan chain secondary))
    (helement : (∃ x, t'.arrayAt? x = some id) ∨
      t'.OfPrimitive id (t.arrayBody plan chain secondary)) :
    t'.ArrayRecord (made ++ [(id, interfaces)]) id (t.arrayBody plan chain secondary) where
  regular := hg.capacity ▸ (hf.regular hc (h.regular hc hf.superAt) plan).mono hg.bodies
  superclass := by
    refine ⟨p, pb, hg.bodies p pb hf.superAt, hf.chain_eq, fun s hs => ?_⟩
    exact (hf.mem_supers plan s).mpr (Or.inl hs)
  chainArrays := fun s hs => (hf.chainArrays h hc s hs).imp_right fun ⟨sb, hsb, hn⟩ =>
    ⟨sb, hg.bodies s sb hsb, hn⟩
  sorted := by
    intro s hs
    rcases hf.sorted h hc plan hs with hroot | ⟨sb, hsb, hn⟩ | hp | hcontrib
    · exact Or.inl hroot
    · exact Or.inr (Or.inl ⟨sb, hg.bodies s sb hsb, hn⟩)
    · obtain ⟨array, ha, is, hm, hcontrib⟩ := hp
      exact Or.inr (Or.inr ⟨array, List.mem_append_left _ ha, is, List.mem_append_left _ hm,
        hcontrib.mono hg.bodies⟩)
    · exact Or.inr (Or.inr ⟨id, by simp, interfaces, by simp, hcontrib.mono hg.bodies⟩)
  provided := by
    rintro s ⟨array, ha, is, hm, hcontrib⟩
    -- Either the request for this array provides the type, or one for an array on the chain.
    rcases List.mem_append.mp hm with hm | hm
    · obtain ⟨⟨ab, hab, -⟩, hall⟩ := h.log array is hm
      have hcontrib' := (Archive.contributes_iff hg.bodies hall s).mp hcontrib
      have hchain : array ∈ chain := by
        rcases List.mem_append.mp ha with ha | ha
        · exact ha
        · rw [List.mem_singleton.mp ha, hid] at hab
          cases hab
      exact hf.provided h hc plan ⟨array, hchain, is, hm, hcontrib'⟩
    · obtain ⟨rfl, rfl⟩ := Prod.mk.inj (List.mem_singleton.mp hm)
      exact (hf.mem_supers plan s).mpr (Or.inr (Or.inr (Or.inr
        ((Archive.contributes_iff hg.bodies hf.areInterfaces s).mp hcontrib))))
  element := helement

end Founded

/-! ### The two kinds of lineage -/

/-- What is needed of the records, and of the arrays that are found, when another one is made. -/
structure Raised (A : Archive) (t : ClassTable) : Prop where
  regular : ∀ id b, A id = some b → A.Regular t.capacity b.ancestry
  arrays : ∀ x xb array, t.bodyAt? x = some xb → t.arrayAt? x = some array →
    ∃ ab, t.bodyAt? array = some ab ∧ ab.shape.isArray = true ∧ t.OneDeeper xb ab

theorem Orderly.raised (h : t.Orderly made) (hc : Chronicle t.bodyAt? log t) :
    Raised t.bodyAt? t where
  regular := fun _ _ => h.regular hc
  arrays := fun x xb array hx ha => by
    obtain ⟨-, xb', ab, hx', hab, hn, hmirrors⟩ := h.mirrors x array ha
    obtain rfl := Option.some.inj (hx.symm.trans hx')
    exact ⟨ab, hab, hn, hmirrors.toOneDeeper⟩

section

variable {element : ElementType} {interfaces chain secondary : List Identity} {plan : ArrayPlan}

/-- An array without a lineage stands directly below the root. -/
theorem Makes.founded_none (hm : t.Makes element interfaces plan chain secondary) (hs : t.Sound)
    (hc : Chronicle A log t) (hl : plan.lineage? = none) :
    ∃ rootBody, t.Founded interfaces chain secondary root rootBody fun _ => False := by
  obtain ⟨rootBody, hb, -, ha⟩ := hc.rootAt hs
  obtain ⟨inherited, hi, hmem⟩ := hm.supers
  rw [hl] at hi
  cases hi
  refine ⟨rootBody, hb, Or.inl rfl, ?_, ?_, nofun, hm.areInterfaces, ?_⟩
  · rw [ha]
    rfl
  · rw [ha]
    rfl
  · intro s
    rw [hmem, ha]
    simp [or_comm]

/-- What the array of a class below the root is made from. -/
structure FoundedOn (t : ClassTable) (interfaces chain secondary : List Identity) (xb : ClassBody)
    (p : Identity) (pb : ClassBody) (array : Identity) (ab : ClassBody) : Prop where
  superAt : t.bodyAt? p = some pb
  chain_super : xb.ancestry.chain = pb.ancestry.chain ++ [p]
  arrayOf : t.arrayAt? p = some array
  oneDeeper : t.OneDeeper pb ab
  others : ∀ o ∈ xb.ancestry.secondary, o ∉ xb.ancestry.chain → ∃ s, t.arrayAt? o = some s
  founded : t.Founded interfaces chain secondary array ab fun s =>
    ∃ o ∈ xb.ancestry.secondary, o ∉ xb.ancestry.chain ∧ t.arrayAt? o = some s

theorem Makes.foundedOn (hm : t.Makes element interfaces plan chain secondary)
    (hr : Raised A t) (hc : Chronicle A log t) {x : Identity} {xb : ClassBody}
    (hx : t.bodyAt? x = some xb) (hroot : x ≠ root)
    (hl : plan.lineage? = some (lineageOf xb.ancestry)) :
    ∃ p pb array ab, t.FoundedOn interfaces chain secondary xb p pb array ab := by
  have hxA := hc.live x xb hx
  have hregular := hr.regular x xb hxA
  obtain ⟨p, pb, hp, hchain⟩ := hc.coherent.parent x xb hxA hroot
  obtain ⟨inherited, hi, hmem⟩ := hm.supers
  have hlineage : lineageOf xb.ancestry
      = (p, xb.ancestry.secondary.filter fun s => !xb.ancestry.chain.contains s) := by
    simp [lineageOf, hchain]
  rw [hl, hlineage] at hi
  cases hi with
  | @super _ array _ _ ab harray hab harrays =>
      obtain ⟨hothers, hmemArrays⟩ := mem_arraysOf harrays
      have hlive := hc.bodyAt?_of_arrayAt? hp harray
      obtain ⟨ab', hab', hn, hdeeper⟩ := hr.arrays p pb array hlive harray
      obtain rfl := Option.some.inj (hab.symm.trans hab')
      have hother : ∀ o, (o ∈ xb.ancestry.secondary.filter fun s => !xb.ancestry.chain.contains s) ↔
          o ∈ xb.ancestry.secondary ∧ o ∉ xb.ancestry.chain := by
        intro o
        simp [List.mem_filter]
      refine ⟨p, pb, array, ab, hlive, hchain, harray, hdeeper, ?_, ?_⟩
      · exact fun o ho hno => hothers o ((hother o).mpr ⟨ho, hno⟩)
      · refine ⟨hab, Or.inr hn, ?_, rfl, ?_, hm.areInterfaces, ?_⟩
        · obtain ⟨pb', hp', -, howns⟩ := hregular.chain pb.ancestry.chain.length p
            (by rw [hchain]; simp)
          obtain rfl := Option.some.inj (hp.symm.trans hp')
          rw [hdeeper.ownsSlot, howns, hdeeper.depth, ← Bool.decide_and]
          -- A slot for the array is a slot for the superclass all the more.
          exact decide_eq_decide.mpr ⟨And.right, fun hlt => ⟨by omega, hlt⟩⟩
        · rintro s ⟨o, ho, -, hs⟩
          obtain ⟨ob, hob, howns⟩ := hregular.secondary o ho
          obtain ⟨sb, hsb, hsn, hso⟩ := hr.arrays o ob s (hc.bodyAt?_of_arrayAt? hob hs) hs
          exact ⟨sb, hsb, hsn, by rw [hso.ownsSlot, howns, Bool.false_and]⟩
        · intro s
          rw [hmem, mem_appendNew, hmemArrays, or_assoc]
          simp only [hother, and_assoc]

/-- Whatever its element is, an array goes on from the root or another array. -/
theorem Makes.founded (hm : t.Makes element interfaces plan chain secondary) (hs : t.Sound)
    (hr : Raised A t) (hc : Chronicle A log t) :
    ∃ p pb others, t.Founded interfaces chain secondary p pb others := by
  cases element with
  | primitive type =>
      obtain ⟨rootBody, hf⟩ := hm.founded_none hs hc (lineage?_primitive hm.planned)
      exact ⟨root, rootBody, _, hf⟩
  | ofClass x =>
      obtain ⟨entry, xb, he, hb, hplan⟩ := arrayPlan_ofClass_eq_ok hm.planned
      by_cases hroot : x = root
      · obtain ⟨rootBody, hf⟩ := hm.founded_none hs hc (by rw [hplan]; simp [hroot])
        exact ⟨root, rootBody, _, hf⟩
      · obtain ⟨p, pb, array, ab, hf⟩ := hm.foundedOn hr hc
          (bodyAt?_eq_some.mpr ⟨entry, he, hb⟩) hroot (by rw [hplan]; simp [hroot])
        exact ⟨array, ab, _, hf.founded⟩

/-! ### The array and its element -/

/-- What interfaces contribute is no array. -/
theorem Makes.contributes_notArray (hm : t.Makes element interfaces plan chain secondary)
    (hc : Chronicle t.bodyAt? log t) {s : Identity}
    (hs : Archive.Contributes t.bodyAt? interfaces s) :
    ∃ sb, t.bodyAt? s = some sb ∧ sb.shape.isArray = false := by
  obtain ⟨sb, hsb, hshape⟩ := hc.contributes_interface hm.areInterfaces hs
  exact ⟨sb, hsb, by simp [hshape]⟩

/-- Above an array that stands directly below the root there is no other array. -/
theorem Makes.noArrays (hm : t.Makes element interfaces plan chain secondary) (hs : t.Sound)
    (hc : Chronicle t.bodyAt? log t) (hl : plan.lineage? = none) :
    ∀ s ∈ (t.arrayBody plan chain secondary).ancestry.supers,
      ∃ sb, t.bodyAt? s = some sb ∧ sb.shape.isArray = false := by
  obtain ⟨rootBody, hf⟩ := hm.founded_none hs hc hl
  obtain ⟨rootBody', hb, hshape, ha⟩ := hc.coherent.rootAt
  obtain rfl := Option.some.inj (hf.superAt.symm.trans hb)
  intro s hmem
  rcases (hf.mem_supers plan s).mp hmem with hmem | rfl | hmem | hmem
  · rw [ha] at hmem
    cases hmem
  · exact ⟨rootBody, hb, by simp [hshape]⟩
  · exact hmem.elim
  · exact hm.contributes_notArray hc hmem

/-- The array of the root stands directly below it. -/
theorem Makes.oneDeeper_root (hm : t.Makes element interfaces plan chain secondary) (hs : t.Sound)
    (hc : Chronicle A log t) (hl : plan.lineage? = none) {rootBody : ClassBody}
    (hb : t.bodyAt? root = some rootBody) (hmay : plan.mayOwnSlot = rootBody.ancestry.ownsSlot) :
    t.OneDeeper rootBody (t.arrayBody plan chain secondary) := by
  obtain ⟨rootBody', hf⟩ := hm.founded_none hs hc hl
  obtain rfl := Option.some.inj (hb.symm.trans hf.superAt)
  refine ⟨?_, ?_⟩
  · show chain.length = _
    rw [hf.chain_eq]
    simp
  · rw [← hmay]
    rfl

/-- The array of the root mirrors it. -/
theorem Makes.mirrors_root (hm : t.Makes element interfaces plan chain secondary) (hs : t.Sound)
    (hc : Chronicle t.bodyAt? log t) (hl : plan.lineage? = none) {rootBody : ClassBody}
    (hb : t.bodyAt? root = some rootBody) (hmay : plan.mayOwnSlot = rootBody.ancestry.ownsSlot) :
    t.Mirrors rootBody (t.arrayBody plan chain secondary) where
  toOneDeeper := hm.oneDeeper_root hs hc hl hb hmay
  fromElement := fun s hmem => Or.inr (hm.noArrays hs hc hl s hmem)
  toArray := by
    obtain ⟨rootBody', hb', -, ha⟩ := hc.coherent.rootAt
    obtain rfl := Option.some.inj (hb.symm.trans hb')
    intro x hx
    rw [ha] at hx
    cases hx

namespace FoundedOn

variable {xb pb ab : ClassBody} {p array : Identity}

/-- The array of a class below the root stands one deeper than the class. -/
theorem oneDeeper_element (hf : t.FoundedOn interfaces chain secondary xb p pb array ab)
    (hmay : plan.mayOwnSlot = xb.ancestry.ownsSlot) :
    t.OneDeeper xb (t.arrayBody plan chain secondary) := by
  refine ⟨?_, ?_⟩
  · show chain.length = _
    rw [hf.founded.chain_eq, hf.chain_super]
    simp [hf.oneDeeper.depth]
  · rw [← hmay]
    rfl

/-- What is above the element has an array above the array, if that is so of the superclass. -/
theorem toArray (hf : t.FoundedOn interfaces chain secondary xb p pb array ab) {x : Identity}
    (hx : x ∈ xb.ancestry.supers)
    (hsuper : x ∈ pb.ancestry.supers → ∃ s ∈ ab.ancestry.supers, t.arrayAt? x = some s) :
    ∃ s ∈ (t.arrayBody plan chain secondary).ancestry.supers, t.arrayAt? x = some s := by
  have hmem := hf.founded.mem_supers plan
  by_cases hchain : x ∈ xb.ancestry.chain
  · rw [hf.chain_super, List.mem_append] at hchain
    rcases hchain with hchain | hchain
    · obtain ⟨s, hs, ha⟩ := hsuper (AncestryRecord.mem_supers_of_chain hchain)
      exact ⟨s, (hmem s).mpr (Or.inl hs), ha⟩
    · obtain rfl := List.mem_singleton.mp hchain
      exact ⟨array, (hmem array).mpr (Or.inr (Or.inl rfl)), hf.arrayOf⟩
  · have hsecondary := (AncestryRecord.mem_supers.mp hx).resolve_left hchain
    obtain ⟨s, ha⟩ := hf.others x hsecondary hchain
    exact ⟨s, (hmem s).mpr (Or.inr (Or.inr (Or.inl ⟨x, hsecondary, hchain, ha⟩))), ha⟩

/-- The array of a class below the root mirrors it. -/
theorem mirrors_element (hf : t.FoundedOn interfaces chain secondary xb p pb array ab)
    (hmirrors : t.Mirrors pb ab) (hinherits : ∀ s ∈ pb.ancestry.supers, s ∈ xb.ancestry.supers)
    (hm : t.Makes element interfaces plan chain secondary) (hc : Chronicle t.bodyAt? log t)
    (hmay : plan.mayOwnSlot = xb.ancestry.ownsSlot) :
    t.Mirrors xb (t.arrayBody plan chain secondary) where
  toOneDeeper := hf.oneDeeper_element hmay
  fromElement := by
    have hp : p ∈ xb.ancestry.supers := by
      refine AncestryRecord.mem_supers_of_chain ?_
      rw [hf.chain_super]
      simp
    intro s hs
    rcases (hf.founded.mem_supers plan s).mp hs with hs | rfl | ⟨o, ho, -, ha⟩ | hs
    · exact (hmirrors.fromElement s hs).imp_left fun ⟨x, hx, ha⟩ => ⟨x, hinherits x hx, ha⟩
    · exact Or.inl ⟨p, hp, hf.arrayOf⟩
    · exact Or.inl ⟨o, AncestryRecord.mem_supers_of_secondary ho, ha⟩
    · exact Or.inr (hm.contributes_notArray hc hs)
  toArray := fun x hx => hf.toArray hx (hmirrors.toArray x)

end FoundedOn

/-- **The array of a class mirrors it.** -/
theorem Makes.mirrors {x : Identity} (hm : t.Makes (.ofClass x) interfaces plan chain secondary)
    (hs : t.Sound) (h : t.Orderly made) (hc : Chronicle t.bodyAt? log t) :
    ∃ xb, t.bodyAt? x = some xb ∧ t.Mirrors xb (t.arrayBody plan chain secondary) := by
  obtain ⟨entry, xb, he, hb, hplan⟩ := arrayPlan_ofClass_eq_ok hm.planned
  have hx : t.bodyAt? x = some xb := bodyAt?_eq_some.mpr ⟨entry, he, hb⟩
  have hmay : plan.mayOwnSlot = xb.ancestry.ownsSlot := by rw [hplan]
  refine ⟨xb, hx, ?_⟩
  by_cases hroot : x = root
  · subst hroot
    exact hm.mirrors_root hs hc (by rw [hplan]; simp) hx hmay
  · obtain ⟨p, pb, array, ab, hf⟩ := hm.foundedOn (h.raised hc) hc hx hroot
      (by rw [hplan]; simp [hroot])
    obtain ⟨-, pb', ab', hp, hab, -, hmirrors⟩ := h.mirrors p array hf.arrayOf
    obtain rfl := Option.some.inj (hf.superAt.symm.trans hp)
    obtain rfl := Option.some.inj (hf.founded.superAt.symm.trans hab)
    exact hf.mirrors_element hmirrors (h.inherits hc hx hp hf.chain_super) hm hc hmay

/-! ### The step -/

theorem Makes.elementOf (hm : t.Makes element interfaces plan chain secondary) (hs : t.Sound)
    (hc : Chronicle t.bodyAt? log t) :
    (∃ x, (t.add
        { name := plan.name
          loader := plan.loader
          body? := some (t.arrayBody plan chain secondary) }).arrayAt? x = some t.freshId) ∨
      (t.add
        { name := plan.name
          loader := plan.loader
          body? := some (t.arrayBody plan chain secondary) }).OfPrimitive t.freshId
        (t.arrayBody plan chain secondary) := by
  cases element with
  | primitive type =>
      refine Or.inr ⟨hm.namedAfterPrimitive, fun s hmem => ?_⟩
      obtain ⟨sb, hsb, hn⟩ := hm.noArrays hs hc (lineage?_primitive hm.planned) s hmem
      exact ⟨sb, within_add _ s sb hsb, hn⟩
  | ofClass x => exact Or.inl ⟨x, hm.arrayAt?_element⟩

theorem bodyAt?_freshId (t : ClassTable) : t.bodyAt? t.freshId = none := by
  simp [bodyAt?, objectAt_freshId]

/-- The new array is none of those that were loaded. -/
theorem mem_made_of_loaded {id : Identity} {b : ClassBody} {is : List Identity}
    (hb : t.bodyAt? id = some b) (hmem : (id, is) ∈ made ++ [(t.freshId, interfaces)]) :
    (id, is) ∈ made := by
  rcases List.mem_append.mp hmem with hmem | hmem
  · exact hmem
  · rw [(Prod.mk.inj (List.mem_singleton.mp hmem)).1, bodyAt?_freshId] at hb
    cases hb

/-- **A further array keeps the table orderly.** -/
theorem Makes.orderly (hm : t.Makes element interfaces plan chain secondary) (hs : t.Sound)
    (h : t.Orderly made) (hc : Chronicle t.bodyAt? log t) :
    (t.add
      { name := plan.name
        loader := plan.loader
        body? := some (t.arrayBody plan chain secondary) }).Orderly
      (made ++ [(t.freshId, interfaces)]) := by
  have hg := Grows.add (t := t)
    { name := plan.name
      loader := plan.loader
      body? := some (t.arrayBody plan chain secondary) } hm.unused
  refine ⟨(hm.neat hs h.neat).named, ?_, ?_, ?_⟩
  · intro x array ha
    rcases h.neat.arrayAt?_add hs hm.unused ha with ⟨rfl, hkey⟩ | ha
    · obtain rfl := hm.arrayAt?_freshId hs hkey
      obtain ⟨xb, hx, hmirrors⟩ := hm.mirrors hs h hc
      exact ⟨Sound.index_lt hx, xb, _, hg.bodies x xb hx, by rw [bodyAt?_add, if_pos rfl], rfl,
        hmirrors.grow hg⟩
    · obtain ⟨hlt, xb, ab, hx, hab, hn, hmirrors⟩ := h.mirrors x array ha
      exact ⟨hlt, xb, ab, hg.bodies x xb hx, hg.bodies array ab hab, hn, hmirrors.grow hg⟩
  · intro id b hb hn
    rcases bodyAt?_add_cases hb with ⟨rfl, hbody⟩ | ⟨-, hb⟩
    · obtain rfl := Option.some.inj hbody
      obtain ⟨p, pb, others, hf⟩ := hm.founded hs (h.raised hc) hc
      exact hf.record h hc hg (bodyAt?_freshId t) (by rw [bodyAt?_add, if_pos rfl])
        (hm.elementOf hs hc)
    · exact (h.records id b hb hn).grow h hg (fun _ => List.mem_append_left _)
        (fun _ _ _ => mem_made_of_loaded) hb
  · intro id is hmem
    rcases List.mem_append.mp hmem with hmem | hmem
    · obtain ⟨⟨b, hb, hn⟩, hall⟩ := h.log id is hmem
      exact ⟨⟨b, hg.bodies id b hb, hn⟩, Archive.areInterfaces_mono hg.bodies hall⟩
    · obtain ⟨rfl, rfl⟩ := Prod.mk.inj (List.mem_singleton.mp hmem)
      exact ⟨⟨_, by rw [bodyAt?_add, if_pos rfl], rfl⟩,
        Archive.areInterfaces_mono hg.bodies hm.areInterfaces⟩

end

end ClassTable

end RuntimeTypes
