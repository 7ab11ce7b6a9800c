/-
Two tables that have grown out of one by requests for arrays.

The requests may have come in different orders, so an array need not have the same identity
in both.  It has the same name, though, and `Twins` are entries that stand under one name.

What is shown here is that twins are alike: one body is the other with every supertype
replaced by its twin.  A name tells the element, and everything about an array follows from
its element and from the arrays that are found for the element's supertypes.  Element and
superclass array come before the array itself (`Derived`), so this is an induction on the
position of an entry.
-/
import Mathlib.Data.List.Forall2
import RuntimeTypes.Proofs.Arrays.Readiness

namespace RuntimeTypes

/-! ### Bodies that correspond -/

section

variable {R : Identity → Identity → Prop}

/-- Two bodies are the same up to a relation between the identities in their records. -/
structure ClassBody.Corresponds (R : Identity → Identity → Prop) (b b' : ClassBody) : Prop where
  shape : b'.shape = b.shape
  flags : b'.flags = b.flags
  layout : b'.layout = b.layout
  chain : List.Forall₂ R b.ancestry.chain b'.ancestry.chain
  secondary : List.Forall₂ R b.ancestry.secondary b'.ancestry.secondary
  ownsSlot : b'.ancestry.ownsSlot = b.ancestry.ownsSlot
  checkOffset : b'.ancestry.checkOffset = b.ancestry.checkOffset
  capacity : b'.ancestry.capacity = b.ancestry.capacity

/-- Two entries have the same name and loader, and bodies that correspond. -/
structure ClassObject.Corresponds (R : Identity → Identity → Prop) (e e' : ClassObject) : Prop where
  name : e'.name = e.name
  loader : e'.loader = e.loader
  body : Option.Rel (ClassBody.Corresponds R) e.body? e'.body?

theorem ClassBody.Corresponds.of_supers {b : ClassBody} (h : ∀ s ∈ b.ancestry.supers, R s s) :
    b.Corresponds R b where
  shape := rfl
  flags := rfl
  layout := rfl
  chain := List.forall₂_same.mpr fun s hs => h s (AncestryRecord.mem_supers_of_chain hs)
  secondary := List.forall₂_same.mpr fun s hs => h s (AncestryRecord.mem_supers_of_secondary hs)
  ownsSlot := rfl
  checkOffset := rfl
  capacity := rfl

theorem ClassObject.Corresponds.bodies {e e' : ClassObject} {b b' : ClassBody}
    (h : e.Corresponds R e') (hb : e.body? = some b) (hb' : e'.body? = some b') :
    b.Corresponds R b' := by
  have hbody := h.body
  rw [hb, hb'] at hbody
  cases hbody with
  | some hbody => exact hbody

/-! ### Lists that correspond -/

theorem forall₂_appendNew (hR : Relator.BiUnique R) {ids ids' more more' : List Identity}
    (h : List.Forall₂ R ids ids') (hmore : List.Forall₂ R more more') :
    List.Forall₂ R (ClassTable.appendNew ids more) (ClassTable.appendNew ids' more') := by
  refine List.rel_foldl (P := List.Forall₂ R) ?_ h hmore
  intro l l' hl x x' hx
  have hmem : l.contains x = l'.contains x' := by
    simp only [List.contains_eq_mem, List.rel_mem hR hx hl]
  simp only [hmem]
  split
  · exact hl
  · exact List.rel_append hl (.cons hx .nil)

theorem getLast?_of_forall₂ {ids ids' : List Identity} (h : List.Forall₂ R ids ids') :
    Option.Rel R ids.getLast? ids'.getLast? := by
  have hreverse := List.forall₂_reverse_iff.mpr h
  rw [List.getLast?_eq_head?_reverse, List.getLast?_eq_head?_reverse]
  generalize ids.reverse = rev at hreverse ⊢
  generalize ids'.reverse = rev' at hreverse ⊢
  cases hreverse with
  | nil => exact .none
  | cons hx _ => exact .some hx

/-- Records at the same place, with lists that correspond. -/
theorem corresponds_place {capacity : Display.Capacity} {may : Bool}
    {chain chain' secondary secondary' : List Identity} {shape : ClassShape} {flags : ClassAccess}
    {layout : Layout} (hchain : List.Forall₂ R chain chain')
    (hsecondary : List.Forall₂ R secondary secondary') :
    ClassBody.Corresponds R
      { shape := shape, flags := flags, layout := layout
        ancestry := .place capacity may chain secondary }
      { shape := shape, flags := flags, layout := layout
        ancestry := .place capacity may chain' secondary' } := by
  have hlength := hchain.length_eq
  refine ⟨rfl, rfl, rfl, hchain, hsecondary, ?_, ?_, rfl⟩
  · simp only [AncestryRecord.place, hlength]
  · simp only [AncestryRecord.place, hlength]

/-- The supertypes whose arrays an array needs correspond if the elements do. -/
theorem corresponds_lineage (hR : Relator.BiUnique R)
    (hroot : R ClassTable.root ClassTable.root) {b b' : ClassBody} (h : b.Corresponds R b') :
    R (ClassTable.lineageOf b.ancestry).1 (ClassTable.lineageOf b'.ancestry).1 ∧
      List.Forall₂ R (ClassTable.lineageOf b.ancestry).2 (ClassTable.lineageOf b'.ancestry).2 := by
  constructor
  · have hlast := getLast?_of_forall₂ h.chain
    unfold ClassTable.lineageOf
    revert hlast
    generalize b.ancestry.chain.getLast? = last
    generalize b'.ancestry.chain.getLast? = last'
    intro hlast
    cases hlast with
    | none => exact hroot
    | some hlast => exact hlast
  · refine List.rel_filter ?_ h.secondary
    intro s s' hs
    simp [List.contains_eq_mem, List.rel_mem hR hs h.chain]

end

namespace ClassTable

open Relation

variable {t t' u u' : ClassTable} {interfaces : List Identity}

/-! ### Where an array comes from -/

/-- The names and bodies that an array's ancestry is worked out from last. -/
theorem Added.inherits {K : Loader × String → Prop} (h : t.Added K interfaces t')
    {lineage? : Option (Identity × List Identity)} {chain inherited : List Identity}
    (hi : t.Inherits lineage? chain inherited) : t'.Inherits lineage? chain inherited := by
  cases hi with
  | root => exact .root
  | super ha hb hothers =>
      refine .super (h.arrayAt? ha) ?_ (hothers.imp fun _ _ => h.arrayAt?)
      rw [h.bodyAt? (Sound.index_lt hb), hb]

/-- Interfaces that were there contribute what they did. -/
theorem Added.addInterfaces {K : Loader × String → Prop} {more : List Identity}
    (h : t.Added K more t') {supers out : List Identity}
    (ha : t.addInterfaces supers interfaces = .ok out) :
    t'.addInterfaces supers interfaces = .ok out := by
  induction interfaces generalizing supers with
  | nil => exact ha
  | cons i rest ih =>
      unfold ClassTable.addInterfaces at ha ⊢
      rw [List.foldlM_cons] at ha ⊢
      cases hi : t.addInterface supers i with
      | error e => simp [hi, bind, Except.bind] at ha
      | ok next =>
          obtain ⟨body, hb, -⟩ := addInterface_eq_ok hi
          have hi' : t'.addInterface supers i = .ok next := by
            rw [← hi]
            unfold addInterface
            rw [h.loaded (Sound.index_lt hb)]
          rw [hi] at ha
          rw [hi']
          exact ih ha

theorem Added.arrayAncestry {K : Loader × String → Prop} (h : t.Added K interfaces t')
    {lineage? : Option (Identity × List Identity)} {chain secondary : List Identity}
    (ha : t.ArrayAncestry interfaces lineage? chain secondary) :
    t'.ArrayAncestry interfaces lineage? chain secondary := by
  obtain ⟨inherited, supers, hi, hsupers, rfl⟩ := ha
  exact ⟨inherited, supers, h.inherits hi, h.addInterfaces hsupers, by rw [h.capacity]⟩

/-- An array of the table, and what its body has been worked out from. -/
structure Derived (t : ClassTable) (interfaces : List Identity) (id : Identity)
    (element : ElementType) (plan : ArrayPlan) (chain secondary : List Identity) : Prop where
  planned : t.arrayPlan element = .ok plan
  entry : t.objectAt id = some
    { name := plan.name
      loader := plan.loader
      body? := some (t.arrayBody plan chain secondary) }
  ancestry : t.ArrayAncestry interfaces plan.lineage? chain secondary
  /-- The element was there before the array. -/
  elementFirst : ∀ x, element = .ofClass x → x.index < id.index
  /-- The superclass arrays were there before the array. -/
  chainFirst : ∀ s ∈ chain, s.index < id.index

section

variable {id : Identity} {element : ElementType} {plan : ArrayPlan} {chain secondary : List Identity}

theorem Derived.added {K : Loader × String → Prop} (h : t.Added K interfaces t')
    (hd : t.Derived interfaces id element plan chain secondary) :
    t'.Derived interfaces id element plan chain secondary where
  planned := h.arrayPlan hd.planned
  entry := by
    rw [h.old id (index_lt_of_objectAt hd.entry), hd.entry]
    simp only [arrayBody, h.capacity]
  ancestry := h.arrayAncestry hd.ancestry
  elementFirst := hd.elementFirst
  chainFirst := hd.chainFirst

theorem Makes.derived (hs : t.Sound) (hm : t.Makes element interfaces plan chain secondary) :
    (t.add
      { name := plan.name
        loader := plan.loader
        body? := some (t.arrayBody plan chain secondary) }).Derived
      interfaces t.freshId element plan chain secondary := by
  have hadd := hm.added (K := fun _ => True) trivial
  refine ⟨hadd.arrayPlan hm.planned, by rw [objectAt_add, if_pos rfl]; rfl,
    hadd.arrayAncestry hm.ancestry, ?_, ?_⟩
  · rintro x rfl
    obtain ⟨entry, body, he, -⟩ := arrayPlan_ofClass_eq_ok hm.planned
    exact index_lt_of_objectAt he
  · obtain ⟨inherited, supers, hi, -⟩ := hm.ancestry
    exact (hi.known hs).2.1

end

/-- Every entry that has come by requests for arrays is an array that can be told where it comes
from. -/
theorem derived_of_arrayMoves (hs : t.Sound) (hm : ReflTransGen (ArrayMove interfaces) t u)
    {id : Identity} (hnew : t.entries.size ≤ id.index) (hid : id.index < u.entries.size) :
    ∃ element plan chain secondary, u.Derived interfaces id element plan chain secondary := by
  induction hm with
  | refl => omega
  | @tail s u hmoves hmove ih =>
      have hsound := hs.arrayMoves hmoves
      obtain ⟨element, hmove⟩ := hmove
      cases hmove with
      | array _ _ plan chain secondary hmakes =>
          by_cases hlast : id.index < s.entries.size
          · obtain ⟨element', plan', chain', secondary', hd⟩ := ih hlast
            exact ⟨element', plan', chain', secondary',
              hd.added (hmakes.added (K := fun _ => True) trivial)⟩
          · obtain rfl : id = s.freshId := by
              rw [← Identity.index_inj, index_freshId]
              rw [size_add] at hid
              omega
            exact ⟨element, plan, chain, secondary, hmakes.derived hsound⟩

/-! ### Twins -/

/-- Two entries stand under one name, each in its table. -/
def Twins (u u' : ClassTable) (a a' : Identity) : Prop :=
  ∃ key, u.names.get? key = some a ∧ u'.names.get? key = some a'

theorem Twins.symm {a a' : Identity} (h : Twins u u' a a') : Twins u' u a' a := by
  obtain ⟨key, ha, ha'⟩ := h
  exact ⟨key, ha', ha⟩

theorem Sound.eq_of_twins (h : u'.Sound) {a b c : Identity} (ha : Twins u u' a c)
    (hb : Twins u u' b c) : a = b := by
  obtain ⟨key, ha, hc⟩ := ha
  obtain ⟨key', hb, hc'⟩ := hb
  obtain ⟨e, he, rfl⟩ := (h.named key c).mp hc
  obtain ⟨e', he', rfl⟩ := (h.named key' c).mp hc'
  obtain rfl := Option.some.inj (he.symm.trans he')
  exact Option.some.inj (ha.symm.trans hb)

theorem Sound.biUnique_twins (h : u.Sound) (h' : u'.Sound) : Relator.BiUnique (Twins u u') :=
  ⟨fun _ _ _ ha hb => h'.eq_of_twins ha hb, fun _ _ _ ha hb => h.eq_of_twins ha.symm hb.symm⟩

/-- The arrays of twins are twins. -/
theorem twins_of_arrayKey? {x x' array array' : Identity} {key : Loader × String}
    (hk : u.arrayKey? x = some key) (hk' : u'.arrayKey? x' = some key)
    (ha : u.arrayAt? x = some array) (ha' : u'.arrayAt? x' = some array') :
    Twins u u' array array' := by
  unfold arrayAt? at ha ha'
  rw [hk] at ha
  rw [hk'] at ha'
  exact ⟨key, ha, ha'⟩

theorem arrayKey?_of_twins (h : u.Sound) (h' : u'.Sound) {x x' : Identity} (hx : Twins u u' x x') :
    ∃ key, u.arrayKey? x = some key ∧ u'.arrayKey? x' = some key := by
  obtain ⟨key, hk, hk'⟩ := hx
  obtain ⟨e, he, rfl⟩ := (h.named key x).mp hk
  obtain ⟨e', he', hkey⟩ := (h'.named _ x').mp hk'
  obtain ⟨hloader, hname⟩ := Prod.mk.inj hkey
  exact ⟨_, arrayKey?_of_objectAt he, by rw [arrayKey?_of_objectAt he', hloader, hname]⟩

theorem twins_of_arrayAt? (h : u.Sound) (h' : u'.Sound) {x x' array array' : Identity}
    (hx : Twins u u' x x') (ha : u.arrayAt? x = some array) (ha' : u'.arrayAt? x' = some array') :
    Twins u u' array array' := by
  obtain ⟨key, hk, hk'⟩ := arrayKey?_of_twins h h' hx
  exact twins_of_arrayKey? hk hk' ha ha'

/-- Two elements are the same primitive type, or twins. -/
inductive SameElement (u u' : ClassTable) : ElementType → ElementType → Prop
  | primitive (type : BasicType) : SameElement u u' (.primitive type) (.primitive type)
  | ofClass {x x' : Identity} : Twins u u' x x' → SameElement u u' (.ofClass x) (.ofClass x')

/-- The name of an array tells its element. -/
theorem sameElement_of_name (h : u.Sound) (h' : u'.Sound) {element element' : ElementType}
    {plan plan' : ArrayPlan} (hp : u.arrayPlan element = .ok plan)
    (hp' : u'.arrayPlan element' = .ok plan') (hname : plan'.name = plan.name)
    (hloader : plan'.loader = plan.loader) : SameElement u u' element element' := by
  cases element with
  | primitive type =>
      obtain ⟨ht, hn⟩ := arrayPlan_primitive_eq_ok hp
      cases element' with
      | primitive type' =>
          obtain ⟨-, hn'⟩ := arrayPlan_primitive_eq_ok hp'
          rw [hn, hn', String.append_right_inj] at hname
          have hd : type'.descriptor = type.descriptor := by
            simpa using congrArg String.toList hname
          have htype := BasicType.ofDescriptor?_descriptor type'
          rw [hd, BasicType.ofDescriptor?_descriptor] at htype
          obtain rfl := Option.some.inj htype
          exact .primitive _
      | ofClass x' =>
          obtain ⟨e', b', -, -, rfl⟩ := arrayPlan_ofClass_eq_ok hp'
          rw [hn, String.append_right_inj] at hname
          exact absurd hname (elementDescriptor_ne ht)
  | ofClass x =>
      obtain ⟨e, b, he, -, rfl⟩ := arrayPlan_ofClass_eq_ok hp
      cases element' with
      | primitive type' =>
          obtain ⟨ht, hn'⟩ := arrayPlan_primitive_eq_ok hp'
          rw [hn', String.append_right_inj] at hname
          exact absurd hname.symm (elementDescriptor_ne ht)
      | ofClass x' =>
          obtain ⟨e', b', he', -, rfl⟩ := arrayPlan_ofClass_eq_ok hp'
          rw [String.append_right_inj] at hname
          have hsame : e'.name = e.name := elementDescriptor_inj hname
          refine .ofClass ⟨(e.loader, e.name), (h.named _ x).mpr ⟨e, he, rfl⟩,
            (h'.named _ x').mpr ⟨e', he', ?_⟩⟩
          exact Prod.ext hloader hsame

/-! ### Twins are alike -/

/-- Two tables that have come from one by requests with the same interfaces. -/
structure Siblings (t : ClassTable) (interfaces : List Identity) (u u' : ClassTable) : Prop where
  ready : t.Ready interfaces
  left : t.Added (fun _ => True) interfaces u
  right : t.Added (fun _ => True) interfaces u'

namespace Siblings

theorem symm (h : Siblings t interfaces u u') : Siblings t interfaces u' u :=
  ⟨h.ready, h.right, h.left⟩

theorem sound_left (h : Siblings t interfaces u u') : u.Sound :=
  h.ready.sound.arrayMoves h.left.moves

theorem sound_right (h : Siblings t interfaces u u') : u'.Sound := h.symm.sound_left

theorem biUnique (h : Siblings t interfaces u u') : Relator.BiUnique (Twins u u') :=
  h.sound_left.biUnique_twins h.sound_right

theorem twins_old (h : Siblings t interfaces u u') {a : Identity} {e : ClassObject}
    (he : t.objectAt a = some e) : Twins u u' a a := by
  have hk := (h.ready.sound.named (e.loader, e.name) a).mpr ⟨e, he, rfl⟩
  exact ⟨_, h.left.kept _ _ hk, h.right.kept _ _ hk⟩

theorem twins_loaded (h : Siblings t interfaces u u') {a : Identity} {b : ClassBody}
    (hb : t.bodyAt? a = some b) : Twins u u' a a := by
  obtain ⟨e, he, -⟩ := bodyAt?_eq_some.mp hb
  exact h.twins_old he

theorem twins_root (h : Siblings t interfaces u u') : Twins u u' root root := by
  obtain ⟨b, hb, -⟩ := h.ready.sound.rootLoaded
  exact h.twins_loaded hb

theorem eq_of_old (h : Siblings t interfaces u u') {a a' : Identity} (ht : Twins u u' a a')
    (hold : a.index < t.entries.size) : a' = a := by
  have hfound := ht
  obtain ⟨key, hk, -⟩ := hfound
  obtain ⟨e, he, -⟩ := (h.sound_left.named key a).mp hk
  rw [h.left.old a hold] at he
  exact h.sound_left.eq_of_twins ht.symm (h.twins_old he).symm

theorem new_iff (h : Siblings t interfaces u u') {a a' : Identity} (ht : Twins u u' a a') :
    t.entries.size ≤ a'.index ↔ t.entries.size ≤ a.index := by
  rw [← Nat.not_lt, ← Nat.not_lt, not_iff_not]
  constructor
  · intro hold
    rwa [h.symm.eq_of_old ht.symm hold]
  · intro hold
    rwa [h.eq_of_old ht hold]

/-- Interfaces that were there add the same to lists that correspond. -/
theorem addInterfaces (h : Siblings t interfaces u u') {more : List Identity}
    (hmore : ∀ i ∈ more, ∃ b, t.bodyAt? i = some b) {ids ids' out out' : List Identity}
    (hids : List.Forall₂ (Twins u u') ids ids') (ha : u.addInterfaces ids more = .ok out)
    (ha' : u'.addInterfaces ids' more = .ok out') : List.Forall₂ (Twins u u') out out' := by
  induction more generalizing ids ids' with
  | nil =>
      obtain rfl := Except.ok.inj ha
      obtain rfl := Except.ok.inj ha'
      exact hids
  | cons i rest ih =>
      unfold ClassTable.addInterfaces at ha ha'
      rw [List.foldlM_cons] at ha ha'
      cases hi : u.addInterface ids i with
      | error e => simp [hi, bind, Except.bind] at ha
      | ok next =>
          cases hi' : u'.addInterface ids' i with
          | error e => simp [hi', bind, Except.bind] at ha'
          | ok next' =>
              rw [hi] at ha
              rw [hi'] at ha'
              refine ih (fun j hj => hmore j (by simp [hj])) ?_ ha ha'
              obtain ⟨b, hb, -, rfl⟩ := addInterface_eq_ok hi
              obtain ⟨b', hb', -, rfl⟩ := addInterface_eq_ok hi'
              -- The interface was there, so it is its own twin, and so is all that it extends.
              obtain ⟨tb, htb⟩ := hmore i (by simp)
              rw [h.left.bodyAt? (Sound.index_lt htb), htb] at hb
              rw [h.right.bodyAt? (Sound.index_lt htb), htb] at hb'
              obtain rfl := Option.some.inj hb
              obtain rfl := Option.some.inj hb'
              refine forall₂_appendNew h.biUnique hids (.cons (h.twins_loaded htb) ?_)
              refine List.forall₂_same.mpr fun s hs => ?_
              obtain ⟨sb, hsb⟩ := h.ready.above i s
                ⟨tb, htb, AncestryRecord.mem_supers_of_secondary hs⟩
              exact h.twins_loaded hsb

end Siblings

/-- Two entries are there, and they correspond. -/
def AlikeAt (u u' : ClassTable) (a a' : Identity) : Prop :=
  ∃ e e', u.objectAt a = some e ∧ u'.objectAt a' = some e' ∧ e.Corresponds (Twins u u') e'

theorem AlikeAt.bodies {a a' : Identity} (h : AlikeAt u u' a a') {b b' : ClassBody}
    (hb : u.bodyAt? a = some b) (hb' : u'.bodyAt? a' = some b') :
    b.Corresponds (Twins u u') b' := by
  obtain ⟨e, e', he, he', hc⟩ := h
  obtain ⟨f, hf, hfb⟩ := bodyAt?_eq_some.mp hb
  obtain ⟨f', hf', hfb'⟩ := bodyAt?_eq_some.mp hb'
  obtain rfl := Option.some.inj (he.symm.trans hf)
  obtain rfl := Option.some.inj (he'.symm.trans hf')
  exact hc.bodies hfb hfb'

/-- Two lineages name twins. -/
def SameLineage (u u' : ClassTable) :
    Option (Identity × List Identity) → Option (Identity × List Identity) → Prop :=
  Option.Rel fun p p' => Twins u u' p.1 p'.1 ∧ List.Forall₂ (Twins u u') p.2 p'.2

/-- Two plans differ by twins at most. -/
structure SamePlan (u u' : ClassTable) (plan plan' : ArrayPlan) : Prop where
  name : plan'.name = plan.name
  loader : plan'.loader = plan.loader
  element : plan'.element = plan.element
  mayOwnSlot : plan'.mayOwnSlot = plan.mayOwnSlot
  access : plan'.access = plan.access
  lineage : SameLineage u u' plan.lineage? plan'.lineage?

namespace Siblings

/-- What elements that are alike decide about their arrays. -/
theorem samePlan (h : Siblings t interfaces u u') {element element' : ElementType}
    {plan plan' : ArrayPlan} (hs : SameElement u u' element element')
    (hp : u.arrayPlan element = .ok plan) (hp' : u'.arrayPlan element' = .ok plan')
    (halike : ∀ x x', element = .ofClass x → Twins u u' x x' → AlikeAt u u' x x') :
    SamePlan u u' plan plan' := by
  cases hs with
  | primitive type =>
      obtain rfl : plan = plan' := Except.ok.inj (hp.symm.trans hp')
      refine ⟨rfl, rfl, rfl, rfl, rfl, ?_⟩
      rw [lineage?_primitive hp]
      exact .none
  | @ofClass x x' hx =>
      obtain ⟨e, b, he, hb, rfl⟩ := arrayPlan_ofClass_eq_ok hp
      obtain ⟨e', b', he', hb', rfl⟩ := arrayPlan_ofClass_eq_ok hp'
      obtain ⟨f, f', hf, hf', hc⟩ := halike x x' rfl hx
      obtain rfl := Option.some.inj (he.symm.trans hf)
      obtain rfl := Option.some.inj (he'.symm.trans hf')
      have hbody := hc.bodies hb hb'
      have hroot : x' = root ↔ x = root := by
        constructor
        · rintro rfl
          exact h.biUnique.1 hx h.twins_root
        · rintro rfl
          exact h.biUnique.2 hx h.twins_root
      refine ⟨by simp only [hc.name], hc.loader, rfl, hbody.ownsSlot, by simp only [hbody.flags], ?_⟩
      simp only [hroot]
      split
      · exact .none
      · exact .some (corresponds_lineage h.biUnique h.twins_root hbody)

/-- The arrays that are found for twins are twins. -/
theorem arrays (h : Siblings t interfaces u u') {others others' arrays arrays' : List Identity}
    (ho : List.Forall₂ (Twins u u') others others')
    (ha : List.Forall₂ (fun other array => u.arrayAt? other = some array) others arrays)
    (ha' : List.Forall₂ (fun other array => u'.arrayAt? other = some array) others' arrays') :
    List.Forall₂ (Twins u u') arrays arrays' := by
  induction ho generalizing arrays arrays' with
  | nil =>
      cases ha
      cases ha'
      exact .nil
  | cons hx _ ih =>
      cases ha with
      | cons hfound ha =>
          cases ha' with
          | cons hfound' ha' =>
              exact .cons (twins_of_arrayAt? h.sound_left h.sound_right hx hfound hfound')
                (ih ha ha')

/-- What is inherited from supertypes that are twins. -/
theorem inherits (h : Siblings t interfaces u u')
    {lineage? lineage?' : Option (Identity × List Identity)}
    {chain chain' inherited inherited' : List Identity} (hl : SameLineage u u' lineage? lineage?')
    (hi : u.Inherits lineage? chain inherited) (hi' : u'.Inherits lineage?' chain' inherited')
    (halike : ∀ s s', s ∈ chain → Twins u u' s s' → AlikeAt u u' s s') :
    List.Forall₂ (Twins u u') chain chain' ∧
      List.Forall₂ (Twins u u') inherited inherited' := by
  cases hi with
  | root =>
      cases hl
      cases hi'
      exact ⟨.cons h.twins_root .nil, .nil⟩
  | super ha hb ho =>
      cases hl with
      | some hl =>
          cases hi' with
          | super ha' hb' ho' =>
              obtain ⟨hsuper, hothers⟩ := hl
              have harray := twins_of_arrayAt? h.sound_left h.sound_right hsuper ha ha'
              have hbody := (halike _ _ (by simp) harray).bodies hb hb'
              exact ⟨List.rel_append hbody.chain (.cons harray .nil),
                forall₂_appendNew h.biUnique hbody.secondary (h.arrays hothers ho ho')⟩

theorem ancestry (h : Siblings t interfaces u u')
    {lineage? lineage?' : Option (Identity × List Identity)}
    {chain chain' secondary secondary' : List Identity} (hl : SameLineage u u' lineage? lineage?')
    (ha : u.ArrayAncestry interfaces lineage? chain secondary)
    (ha' : u'.ArrayAncestry interfaces lineage?' chain' secondary')
    (halike : ∀ s s', s ∈ chain → Twins u u' s s' → AlikeAt u u' s s') :
    List.Forall₂ (Twins u u') chain chain' ∧
      List.Forall₂ (Twins u u') secondary secondary' := by
  obtain ⟨inherited, supers, hi, hsupers, rfl⟩ := ha
  obtain ⟨inherited', supers', hi', hsupers', rfl⟩ := ha'
  obtain ⟨hchain, hinherited⟩ := h.inherits hl hi hi' halike
  refine ⟨hchain, forall₂_appendNew h.biUnique ?_ ?_⟩
  · refine h.addInterfaces (fun i hi => ?_) hinherited hsupers hsupers'
    obtain ⟨b, hb, -⟩ := h.ready.areInterfaces i hi
    exact ⟨b, hb⟩
  · rw [h.left.capacity, h.right.capacity]
    exact List.forall₂_drop _ hchain

theorem alike_old (h : Siblings t interfaces u u') {a a' : Identity} (ht : Twins u u' a a')
    (hold : a.index < t.entries.size) : AlikeAt u u' a a' := by
  obtain rfl := h.eq_of_old ht hold
  obtain ⟨key, hk, -⟩ := ht
  obtain ⟨e, he, -⟩ := (h.sound_left.named key a').mp hk
  have hbase : t.objectAt a' = some e := by rw [← h.left.old a' hold, he]
  refine ⟨e, e, he, by rw [h.right.old a' hold, hbase], rfl, rfl, ?_⟩
  cases hb : e.body? with
  | none => exact .none
  | some b =>
      refine .some (.of_supers fun s hs => ?_)
      obtain ⟨sb, hsb⟩ := h.ready.above a' s ⟨b, bodyAt?_eq_some.mpr ⟨e, hbase, hb⟩, hs⟩
      exact h.twins_loaded hsb

/-- Twins that have been made are alike if their elements and their superclass arrays are. -/
theorem alike_derived (h : Siblings t interfaces u u') {a a' : Identity} (ht : Twins u u' a a')
    {element element' : ElementType} {plan plan' : ArrayPlan}
    {chain chain' secondary secondary' : List Identity}
    (hd : u.Derived interfaces a element plan chain secondary)
    (hd' : u'.Derived interfaces a' element' plan' chain' secondary')
    (halike : ∀ s s', s.index < a.index → Twins u u' s s' → AlikeAt u u' s s') :
    AlikeAt u u' a a' := by
  obtain ⟨key, hk, hk'⟩ := ht
  obtain ⟨e, he, rfl⟩ := (h.sound_left.named key a).mp hk
  obtain ⟨e', he', hkey⟩ := (h.sound_right.named _ a').mp hk'
  obtain rfl := Option.some.inj (hd.entry.symm.trans he)
  obtain rfl := Option.some.inj (hd'.entry.symm.trans he')
  obtain ⟨hloader, hname⟩ := Prod.mk.inj hkey
  have hsame := sameElement_of_name h.sound_left h.sound_right hd.planned hd'.planned hname hloader
  have hplan := h.samePlan hsame hd.planned hd'.planned
    fun x x' hx htwin => halike x x' (hd.elementFirst x hx) htwin
  obtain ⟨hchain, hsecondary⟩ := h.ancestry hplan.lineage hd.ancestry hd'.ancestry
    fun s s' hs htwin => halike s s' (hd.chainFirst s hs) htwin
  refine ⟨_, _, he, he', hname, hloader, .some ?_⟩
  have hcapacity : u'.capacity = u.capacity := by rw [h.left.capacity, h.right.capacity]
  unfold arrayBody
  rw [hplan.element, hplan.mayOwnSlot, hplan.access, hcapacity]
  exact corresponds_place hchain hsecondary

/-- **Twins are alike**, in whatever order the arrays have been made. -/
theorem alike (h : Siblings t interfaces u u') {a a' : Identity} (ht : Twins u u' a a') :
    AlikeAt u u' a a' := by
  induction hn : a.index using Nat.strong_induction_on generalizing a a' with
  | _ n ih =>
      subst hn
      by_cases hold : a.index < t.entries.size
      · exact h.alike_old ht hold
      · have hnew := Nat.le_of_not_lt hold
        have hnew' := (h.new_iff ht).mpr hnew
        obtain ⟨key, hk, hk'⟩ := id ht
        obtain ⟨e, he, -⟩ := (h.sound_left.named key a).mp hk
        obtain ⟨e', he', -⟩ := (h.sound_right.named key a').mp hk'
        obtain ⟨element, plan, chain, secondary, hd⟩ :=
          derived_of_arrayMoves h.ready.sound h.left.moves hnew (index_lt_of_objectAt he)
        obtain ⟨element', plan', chain', secondary', hd'⟩ :=
          derived_of_arrayMoves h.ready.sound h.right.moves hnew' (index_lt_of_objectAt he')
        exact h.alike_derived ht hd hd' fun s s' hs htwin => ih s.index hs htwin rfl

end Siblings

end ClassTable

end RuntimeTypes
