/-
Subtyping is transitive except for the interfaces of arrays.

Every record of a class or interface is closed upwards.  That of an array is closed as
far as the root and arrays go, since those follow the element.  But the interfaces of an
array come with the requests that made it and the arrays it extends, and the arrays that
stand above it on account of the element's interfaces may have been made by others.  What
those implement is not passed on.

`Gap` says where that happens: at an interface above two arrays, or at the arrays of
three types where it happens.  `Orderly.mem_supers_trans_iff` shows that it happens
nowhere else.
-/
import RuntimeTypes.Proofs.Arrays.Covariance

namespace RuntimeTypes

namespace ClassTable

/-! ### Where an interface is not passed on -/

/-- The interface comes with a request that has made the array or one that it extends. -/
def Brings (t : ClassTable) (log : LoadLog) (made : ArrayLog) (array i : Identity) : Prop :=
  ∃ b, t.bodyAt? array = some b ∧ ∃ s ∈ b.ancestry.chain ++ [array],
    ∃ interfaces, (s, interfaces) ∈ made ∧ ∃ j ∈ interfaces, Reaches log j i

/-- How a type can fail to stand above the first although it stands above the second, and the second
above the first. -/
inductive Gap (t : ClassTable) (log : LoadLog) (made : ArrayLog) :
    Identity → Identity → Identity → Prop
  /-- The interface comes with the second array and not with the first. -/
  | interface {a b i : Identity} {ab bb ib : ClassBody} :
      t.bodyAt? a = some ab → ab.shape.isArray = true →
      t.bodyAt? b = some bb → bb.shape.isArray = true →
      t.bodyAt? i = some ib → ib.shape = .interface →
      t.Brings log made b i → ¬t.Brings log made a i → Gap t log made a b i
  /-- One level up. -/
  | arrays {x y z a b c : Identity} : t.arrayAt? x = some a → t.arrayAt? y = some b →
      t.arrayAt? z = some c → Gap t log made x y z → Gap t log made a b c

section

variable {t : ClassTable} {made : ArrayLog} {log : LoadLog}

/-- A type is an array. -/
def IsArrayAt (t : ClassTable) (id : Identity) : Prop :=
  ∃ b, t.bodyAt? id = some b ∧ b.shape.isArray = true

theorem Orderly.isArrayAt_of_arrayAt? (h : t.Orderly made) {x array : Identity}
    (hx : t.arrayAt? x = some array) : t.IsArrayAt array := by
  obtain ⟨-, -, b, -, hb, hn, -⟩ := h.mirrors x array hx
  exact ⟨b, hb, hn⟩

theorem not_isArrayAt {id : Identity} {b : ClassBody} (hb : t.bodyAt? id = some b)
    (hn : b.shape.isArray = false) : ¬t.IsArrayAt id := by
  rintro ⟨b', hb', hn'⟩
  obtain rfl := Option.some.inj (hb.symm.trans hb')
  rw [hn] at hn'
  cases hn'

theorem Chronicle.not_isArrayAt_root (hc : Chronicle t.bodyAt? log t) : ¬t.IsArrayAt root := by
  obtain ⟨rootBody, hb, hshape, -⟩ := hc.coherent.rootAt
  exact not_isArrayAt hb (by simp [hshape])

theorem Gap.areArrays (h : t.Orderly made) {a b c : Identity} (hgap : t.Gap log made a b c) :
    t.IsArrayAt a ∧ t.IsArrayAt b := by
  cases hgap with
  | interface ha hna hb hnb => exact ⟨⟨_, ha, hna⟩, ⟨_, hb, hnb⟩⟩
  | arrays hx hy => exact ⟨h.isArrayAt_of_arrayAt? hx, h.isArrayAt_of_arrayAt? hy⟩

theorem Gap.distinct (hs : t.Sound) {a b c : Identity} (hgap : t.Gap log made a b c) :
    a ≠ b ∧ b ≠ c ∧ a ≠ c := by
  induction hgap with
  | interface ha hna hb hnb hi hshape hbrings hnot =>
      have hni : ¬t.IsArrayAt _ := not_isArrayAt hi (by simp [hshape])
      refine ⟨?_, ?_, ?_⟩
      · rintro rfl
        exact hnot hbrings
      · rintro rfl
        exact hni ⟨_, hb, hnb⟩
      · rintro rfl
        exact hni ⟨_, ha, hna⟩
  | arrays hx hy hz _ ih =>
      refine ⟨?_, ?_, ?_⟩
      · rintro rfl
        exact ih.1 (hs.arrayAt?_inj hx hy)
      · rintro rfl
        exact ih.2.1 (hs.arrayAt?_inj hy hz)
      · rintro rfl
        exact ih.2.2 (hs.arrayAt?_inj hx hz)

/-- A gap between three arrays is one between their elements. -/
theorem Gap.arrays_iff (hs : t.Sound) (h : t.Orderly made) {x y z a b c : Identity}
    (hx : t.arrayAt? x = some a) (hy : t.arrayAt? y = some b) (hz : t.arrayAt? z = some c) :
    t.Gap log made a b c ↔ t.Gap log made x y z := by
  refine ⟨fun hgap => ?_, .arrays hx hy hz⟩
  cases hgap with
  | interface _ _ _ _ hi hshape =>
      exact absurd (h.isArrayAt_of_arrayAt? hz) (not_isArrayAt hi (by simp [hshape]))
  | arrays hx' hy' hz' hgap =>
      rw [hs.arrayAt?_inj hx hx', hs.arrayAt?_inj hy hy', hs.arrayAt?_inj hz hz']
      exact hgap

/-- A gap at an interface. -/
theorem Gap.interface_iff (h : t.Orderly made) {a b i : Identity} (ha : t.IsArrayAt a)
    (hb : t.IsArrayAt b) {ib : ClassBody} (hi : t.bodyAt? i = some ib)
    (hshape : ib.shape = .interface) :
    t.Gap log made a b i ↔ t.Brings log made b i ∧ ¬t.Brings log made a i := by
  constructor
  · intro hgap
    cases hgap with
    | interface _ _ _ _ _ _ hbrings hnot => exact ⟨hbrings, hnot⟩
    | arrays _ _ hz =>
        exact absurd (h.isArrayAt_of_arrayAt? hz) (not_isArrayAt hi (by simp [hshape]))
  · rintro ⟨hbrings, hnot⟩
    obtain ⟨ab, ha, hna⟩ := ha
    obtain ⟨bb, hb, hnb⟩ := hb
    exact .interface ha hna hb hnb hi hshape hbrings hnot

/-! ### What requests provide -/

theorem Chronicle.ne_root (hc : Chronicle t.bodyAt? log t) {i : Identity} {ib : ClassBody}
    (hi : t.bodyAt? i = some ib) (hshape : ib.shape = .interface) : i ≠ root := by
  rintro rfl
  obtain ⟨rootBody, hb, hroot, -⟩ := hc.coherent.rootAt
  obtain rfl := Option.some.inj (hi.symm.trans hb)
  rw [hshape] at hroot
  cases hroot

/-- What interfaces contribute is what is reached from them, short of the root. -/
theorem Chronicle.contributes_iff_reaches (hc : Chronicle t.bodyAt? log t)
    {interfaces : List Identity}
    (hall : ∀ j ∈ interfaces, ∃ b, t.bodyAt? j = some b ∧ b.shape = .interface) {i : Identity}
    (hi : i ≠ root) :
    Archive.Contributes t.bodyAt? interfaces i ↔ ∃ j ∈ interfaces, Reaches log j i := by
  constructor
  · rintro ⟨j, hj, jb, hjb, hs⟩
    obtain ⟨jb', hjb', hshape⟩ := hall j hj
    obtain rfl := Option.some.inj (hjb.symm.trans hjb')
    refine ⟨j, hj, (hc.reaches_iff hjb (by simp [hshape])).mpr ?_⟩
    exact hs.imp Eq.symm AncestryRecord.mem_supers_of_secondary
  · rintro ⟨j, hj, hr⟩
    obtain ⟨jb, hjb, hshape⟩ := hall j hj
    have hn : jb.shape.isArray = false := by simp [hshape]
    refine ⟨j, hj, jb, hjb, ?_⟩
    rcases (hc.reaches_iff hjb hn).mp hr with rfl | hs
    · exact Or.inl rfl
    · rcases AncestryRecord.mem_supers.mp hs with hs | hs
      · -- The chain of an interface is the root.
        rw [((hc.lawful j jb hjb hn).interfaces hshape).1, List.mem_singleton] at hs
        exact absurd hs hi
      · exact Or.inr hs

theorem Orderly.provided_iff_brings (h : t.Orderly made) (hc : Chronicle t.bodyAt? log t)
    {array i : Identity} {b : ClassBody} (hb : t.bodyAt? array = some b) (hi : i ≠ root) :
    t.Provided made (b.ancestry.chain ++ [array]) i ↔ t.Brings log made array i := by
  constructor
  · rintro ⟨s, hs, interfaces, hm, hcontrib⟩
    exact ⟨b, hb, s, hs, interfaces, hm,
      (hc.contributes_iff_reaches (h.log s interfaces hm).2 hi).mp hcontrib⟩
  · rintro ⟨b', hb', s, hs, interfaces, hm, hr⟩
    obtain rfl := Option.some.inj (hb.symm.trans hb')
    exact ⟨s, hs, interfaces, hm,
      (hc.contributes_iff_reaches (h.log s interfaces hm).2 hi).mpr hr⟩

/-- The interfaces above an array are those that come with it. -/
theorem Orderly.mem_supers_iff_brings (h : t.Orderly made) (hc : Chronicle t.bodyAt? log t)
    {a i : Identity} {ab ib : ClassBody} (ha : t.bodyAt? a = some ab)
    (hna : ab.shape.isArray = true) (hi : t.bodyAt? i = some ib) (hshape : ib.shape = .interface) :
    i ∈ ab.ancestry.supers ↔ t.Brings log made a i := by
  have hne := hc.ne_root hi hshape
  have hrecord := h.records a ab ha hna
  rw [← h.provided_iff_brings hc ha hne]
  constructor
  · intro hmem
    rcases hrecord.sorted i hmem with hroot | harray | hp
    · exact absurd hroot hne
    · exact absurd harray (not_isArrayAt hi (by simp [hshape]))
    · exact hp
  · exact hrecord.provided i

/-- What stands above a provided type is the root or provided as well. -/
theorem Orderly.provided_above (h : t.Orderly made) (hc : Chronicle t.bodyAt? log t)
    {arrays : List Identity} {b c : Identity} {bb : ClassBody} (hp : t.Provided made arrays b)
    (hb : t.bodyAt? b = some bb) (hmem : c ∈ bb.ancestry.supers) :
    c = root ∨ t.Provided made arrays c := by
  obtain ⟨array, harray, interfaces, hm, j, hj, jb, hjb, hbj⟩ := hp
  obtain ⟨jb', hjb', hshape⟩ := (h.log array interfaces hm).2 j hj
  obtain rfl := Option.some.inj (hjb.symm.trans hjb')
  have hlaw := hc.lawful j jb hjb (by simp [hshape])
  -- The type is above the interface that contributes it, and so is what is above the type.
  have hcj : c ∈ jb.ancestry.supers := by
    rcases hbj with rfl | hbj
    · obtain rfl := Option.some.inj (hb.symm.trans hjb)
      exact hmem
    · obtain ⟨bb', hb', -, hsub⟩ := hlaw.closed b (AncestryRecord.mem_supers_of_secondary hbj)
      obtain rfl := Option.some.inj (hb.symm.trans hb')
      exact hsub c hmem
  rcases AncestryRecord.mem_supers.mp hcj with hcj | hcj
  · rw [(hlaw.interfaces hshape).1] at hcj
    exact Or.inl (List.mem_singleton.mp hcj)
  · exact Or.inr ⟨array, harray, interfaces, hm, j, hj, jb, hjb, Or.inr hcj⟩

/-! ### Transitivity -/

/-- Two arrays, one above the other, are those of two classes, one above the other. -/
theorem Orderly.elements (h : t.Orderly made) {a b : Identity} {ab : ClassBody}
    (ha : t.bodyAt? a = some ab) (hna : ab.shape.isArray = true) (hb : t.IsArrayAt b)
    (hmem : b ∈ ab.ancestry.supers) : ∃ x y xb, t.arrayAt? x = some a ∧ t.arrayAt? y = some b ∧
      t.bodyAt? x = some xb ∧ x.index < a.index ∧ y ∈ xb.ancestry.supers := by
  rcases (h.records a ab ha hna).element with ⟨x, hx⟩ | hprimitive
  · obtain ⟨hlt, xb, ab', hxb, ha', -, hmirrors⟩ := h.mirrors x a hx
    obtain rfl := Option.some.inj (ha.symm.trans ha')
    rcases hmirrors.fromElement b hmem with ⟨y, hy, hyb⟩ | ⟨b', hb', hn⟩
    · exact ⟨x, y, xb, hx, hyb, hxb, hlt, hy⟩
    · exact absurd hb (not_isArrayAt hb' hn)
  · obtain ⟨b', hb', hn⟩ := hprimitive.noArrays b hmem
    exact absurd hb (not_isArrayAt hb' hn)

theorem Gap.ne_root (h : t.Orderly made) (hc : Chronicle t.bodyAt? log t) {a b c : Identity}
    (hgap : t.Gap log made a b c) : c ≠ root := by
  cases hgap with
  | interface _ _ _ _ hi hshape => exact hc.ne_root hi hshape
  | arrays _ _ hz =>
      intro hroot
      subst hroot
      exact hc.not_isArrayAt_root (h.isArrayAt_of_arrayAt? hz)

/-- The root stands above every array. -/
theorem Chronicle.root_above (hc : Chronicle t.bodyAt? log t) {a : Identity} {ab : ClassBody}
    (ha : t.bodyAt? a = some ab) (hna : ab.shape.isArray = true) :
    root ∈ ab.ancestry.supers := by
  refine AncestryRecord.mem_supers_of_chain (hc.coherent.root_mem_chain ha ?_)
  intro hroot
  subst hroot
  exact hc.not_isArrayAt_root ⟨ab, ha, hna⟩

/-- Unless two arrays are involved, what stands above a supertype stands above the type. -/
theorem Orderly.above_of_notArray (h : t.Orderly made) (hs : t.Sound)
    (hc : Chronicle t.bodyAt? log t) {a b c : Identity} {ab bb : ClassBody}
    (ha : t.bodyAt? a = some ab) (hb : t.bodyAt? b = some bb) (hab : b ∈ ab.ancestry.supers)
    (hbc : c ∈ bb.ancestry.supers)
    (hn : ab.shape.isArray = false ∨ bb.shape.isArray = false) : c ∈ ab.ancestry.supers := by
  cases hna : ab.shape.isArray with
  | false =>
      obtain ⟨bb', hb', -, hsub⟩ := (hc.lawful a ab ha hna).closed b hab
      obtain rfl := Option.some.inj (hb.symm.trans hb')
      exact hsub c hbc
  | true =>
      have hnb : bb.shape.isArray = false := hn.resolve_left (by simp [hna])
      rcases (h.records a ab ha hna).sorted b hab with hroot | hba | hp
      · subst hroot
        obtain ⟨rootBody, hb', -, hnone⟩ := hs.rootLoaded
        obtain rfl := Option.some.inj (hb.symm.trans hb')
        rw [hnone] at hbc
        cases hbc
      · exact absurd hba (not_isArrayAt hb hnb)
      · rcases h.provided_above hc hp hb hbc with hroot | hp
        · rw [hroot]
          exact hc.root_above ha hna
        · exact (h.records a ab ha hna).provided c hp

/-- An interface that stands above one of two arrays. -/
theorem Orderly.interface_above_iff (h : t.Orderly made) (hc : Chronicle t.bodyAt? log t)
    {a b i : Identity} {ab bb ib : ClassBody} (ha : t.bodyAt? a = some ab)
    (hna : ab.shape.isArray = true) (hb : t.bodyAt? b = some bb) (hnb : bb.shape.isArray = true)
    (hi : t.bodyAt? i = some ib) (hshape : ib.shape = .interface) (hbi : i ∈ bb.ancestry.supers) :
    i ∈ ab.ancestry.supers ↔ ¬t.Gap log made a b i := by
  have hbrings := (h.mem_supers_iff_brings hc hb hnb hi hshape).mp hbi
  rw [h.mem_supers_iff_brings hc ha hna hi hshape,
    Gap.interface_iff h ⟨ab, ha, hna⟩ ⟨bb, hb, hnb⟩ hi hshape]
  simp [hbrings]

/-- **What stands above a supertype stands above the type, but for the gaps.** -/
theorem Orderly.mem_supers_trans_iff (h : t.Orderly made) (hs : t.Sound)
    (hc : Chronicle t.bodyAt? log t) {a b c : Identity} {ab bb : ClassBody}
    (ha : t.bodyAt? a = some ab) (hb : t.bodyAt? b = some bb) (hab : b ∈ ab.ancestry.supers)
    (hbc : c ∈ bb.ancestry.supers) : c ∈ ab.ancestry.supers ↔ ¬t.Gap log made a b c := by
  -- Elements come before their arrays, so the induction is on the first type.
  induction hn : a.index using Nat.strongRecOn generalizing a b c ab bb with
  | ind n ih =>
      subst hn
      by_cases harrays : ab.shape.isArray = false ∨ bb.shape.isArray = false
      · refine iff_of_true (h.above_of_notArray hs hc ha hb hab hbc harrays) ?_
        intro hgap
        obtain ⟨haa, hba⟩ := hgap.areArrays h
        exact harrays.elim (fun hna => not_isArrayAt ha hna haa) fun hnb => not_isArrayAt hb hnb hba
      · obtain ⟨hna, hnb⟩ : ab.shape.isArray = true ∧ bb.shape.isArray = true := by
          simpa using harrays
        rcases (h.records b bb hb hnb).sorted c hbc with hroot | hca | hp
        · subst hroot
          exact iff_of_true (hc.root_above ha hna) fun hgap => hgap.ne_root h hc rfl
        · -- Three arrays go with their elements.
          obtain ⟨x, y, xb, hx, hy, hxb, hlt, hyx⟩ := h.elements ha hna ⟨bb, hb, hnb⟩ hab
          obtain ⟨y', z, yb, hy', hz, hyb, -, hzy⟩ := h.elements hb hnb hca hbc
          obtain rfl := hs.arrayAt?_inj hy hy'
          rw [h.mem_supers_iff hs hx hz hxb ha, Gap.arrays_iff hs h hx hy hz]
          exact ih x.index hlt hxb hyb hyx hzy rfl
        · obtain ⟨_, -, interfaces, hm, hcontrib⟩ := hp
          obtain ⟨ib, hi, hshape⟩ := hc.contributes_interface (h.log _ interfaces hm).2 hcontrib
          exact h.interface_above_iff hc ha hna hb hnb hi hshape hbc

end

end ClassTable

/-! ### Checks -/

namespace Program

open ClassTable

variable {p : Program ClassTable} {log : LoadLog} {made : ArrayLog}
  {found : List (Identity × Identity)}

theorem Kept.transitive_iff (h : p.Kept log made found) {a b c : Snapshot}
    {ab bb cb : ClassBody} (ha : p.heap.store.bodyAt? a.identity = some ab) (hta : a.TrueTo ab)
    (hb : p.heap.store.bodyAt? b.identity = some bb) (htb : b.TrueTo bb)
    (hc : p.heap.store.bodyAt? c.identity = some cb) (htc : c.TrueTo cb)
    (hab : a.isSubtype b = true) (hbc : b.isSubtype c = true) :
    a.isSubtype c = true ↔ ¬p.heap.store.Gap log made a.identity b.identity c.identity := by
  have hdistinct : p.heap.store.Gap log made a.identity b.identity c.identity →
      a.identity ≠ b.identity ∧ b.identity ≠ c.identity ∧ a.identity ≠ c.identity :=
    fun hgap => hgap.distinct h.recorded.sound
  rw [h.isSubtype_iff ha hta hb htb] at hab
  rw [h.isSubtype_iff hb htb hc htc] at hbc
  rw [h.isSubtype_iff ha hta hc htc]
  rcases hab with hab | hab
  · obtain rfl := Option.some.inj (ha.symm.trans (hab ▸ hb))
    exact iff_of_true (hab ▸ hbc) fun hgap => (hdistinct hgap).1 hab
  rcases hbc with hbc | hbc
  · exact iff_of_true (Or.inr (hbc ▸ hab)) fun hgap => (hdistinct hgap).2.1 hbc
  by_cases hac : a.identity = c.identity
  · exact iff_of_true (Or.inl hac) fun hgap => (hdistinct hgap).2.2 hac
  · have htrans :=
      h.orderly.mem_supers_trans_iff h.recorded.sound h.recorded.chronicle ha hb hab hbc
    simpa [hac] using htrans

/-- **Subtyping is transitive but for the gaps**: where one type is a subtype of a second, and that
of a third, the first is a subtype of the third unless the third is an interface that came with the
second of two arrays and not with the first, or the three are arrays of such types. -/
theorem isSubtype_trans_iff (rootName : String) (capacity : Display.Capacity)
    (hroot : isArrayName rootName = false) {events : List Event} (hplain : ∀ e ∈ events, e.Plain)
    {i : Nat} {s : Session}
    (hs : ((start (create rootName capacity)).after events).sessions[i]? = some s)
    {a b c : HandleRef} {ca cb cc : Snapshot} (ha : s.Holds a ca) (hb : s.Holds b cb)
    (hc : s.Holds c cc) (hab : s.isSubtype a b = .ok true) (hbc : s.isSubtype b c = .ok true) :
    (s.isSubtype a c = .ok true ↔
        ¬((start (create rootName capacity)).after events).heap.store.Gap
          ((start (create rootName capacity)).loads events)
          ((start (create rootName capacity)).arraysMade events)
          ca.identity cb.identity cc.identity) ∧
      (s.isSubtype a c = .ok false ↔
        ((start (create rootName capacity)).after events).heap.store.Gap
          ((start (create rootName capacity)).loads events)
          ((start (create rootName capacity)).arraysMade events)
          ca.identity cb.identity cc.identity) := by
  have h := kept_after capacity hroot hplain
  have hfaithful := h.recorded.faithful i s hs
  obtain ⟨ba, hba, hta⟩ := hfaithful.trueTo ha
  obtain ⟨bb, hbb, htb⟩ := hfaithful.trueTo hb
  obtain ⟨bc, hbc', htc⟩ := hfaithful.trueTo hc
  rw [ha.isSubtype hb] at hab
  rw [hb.isSubtype hc] at hbc
  have htrans := h.transitive_iff hba hta hbb htb hbc' htc (Except.ok.inj hab)
    (Except.ok.inj hbc)
  rw [ha.isSubtype hc]
  cases hac : ca.isSubtype cc with
  | true => simpa [hac] using htrans
  | false => simpa [hac] using htrans

/-- Two interfaces and a class that implements the first, whose array implements the second; the
arrays of the root and the class do not.  A session has resolved the array of the class, that of the
interface and the second interface. -/
def interfacesOfOne : List Event :=
  [.perform (.define (.interface "I")),
    .perform (.define (.interface "J")),
    .perform (.define ((ClassFile.ordinary "A").implementing [Identity.ofIndex 1])),
    .perform (.arrayOf (.ofClass root) []),
    .perform (.arrayOf (.ofClass (Identity.ofIndex 1)) [Identity.ofIndex 2]),
    .perform (.arrayOf (.ofClass (Identity.ofIndex 3)) []),
    .openSession {},
    .request 0 (.resolve (Identity.ofIndex 6)),
    .request 0 (.resolve (Identity.ofIndex 5)),
    .request 0 (.resolve (Identity.ofIndex 2))]

/-- The array of the class is a subtype of the array of the interface, and that of the second
interface, which the array of the class is not. -/
theorem isSubtype_interfacesOfOne :
    isArrayName "Object" = false ∧ (∀ e ∈ interfacesOfOne, e.Plain) ∧ ∃ s a b c,
      ((start (create "Object" Display.Capacity.standard)).after interfacesOfOne).sessions[0]?
          = some s ∧
        s.Holds ⟨0, 0⟩ a ∧ s.Holds ⟨0, 1⟩ b ∧ s.Holds ⟨0, 2⟩ c ∧
        s.isSubtype ⟨0, 0⟩ ⟨0, 1⟩ = .ok true ∧ s.isSubtype ⟨0, 1⟩ ⟨0, 2⟩ = .ok true ∧
        s.isSubtype ⟨0, 0⟩ ⟨0, 2⟩ = .ok false ∧
        ((start (create "Object" Display.Capacity.standard)).after interfacesOfOne).heap.store.Gap
          ((start (create "Object" Display.Capacity.standard)).loads interfacesOfOne)
          ((start (create "Object" Display.Capacity.standard)).arraysMade interfacesOfOne)
          a.identity b.identity c.identity := by
  have hplain : ∀ e ∈ interfacesOfOne, e.Plain := by decide
  refine ⟨rfl, hplain, _, _, _, _, rfl, ⟨_, rfl, rfl⟩, ⟨_, rfl, rfl⟩, ⟨_, rfl, rfl⟩, rfl, rfl, rfl,
    ?_⟩
  have h := isSubtype_trans_iff "Object" Display.Capacity.standard rfl hplain (i := 0)
    (a := ⟨0, 0⟩) (b := ⟨0, 1⟩) (c := ⟨0, 2⟩) rfl ⟨_, rfl, rfl⟩ ⟨_, rfl, rfl⟩ ⟨_, rfl, rfl⟩ rfl rfl
  exact h.2.mp rfl

end Program

end RuntimeTypes
