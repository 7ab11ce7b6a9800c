/-
What holds of a class table whatever has happened to it.

`Sound` is the invariant of all histories, unloading and names that are spelled like
an array's included.  The name index and the entries say the same, every record names
classes that exist or have existed, and following records upwards never comes back to
where it started.

Acyclicity is the delicate part.  Identities do not grow upwards, as a declared class
keeps the identity it had before its superclass existed, and the record of an array may
name a class that is only declared.  What holds is that loading a class adds edges into
a region that is closed upwards and does not hold the class itself: the entries so far
where the entry is new, and the loaded classes and interfaces where a declared one is
completed.  `acyclic_of_region` is that argument.
-/
import RuntimeTypes.Proofs.Table.Moves

namespace RuntimeTypes

namespace ClassTable

open Relation

/-- Edges out of one node cannot close a circle if they lead into a region that is closed and does
not hold the node. -/
theorem acyclic_of_region {α : Type} {R R' : α → α → Prop} {a : α} {G : α → Prop}
    (hR : ∀ x, ¬TransGen R x x) (hstep : ∀ x y, R' x y → R x y ∨ (x = a ∧ G y))
    (hclosed : ∀ x y, G x → R x y → G y) (ha : ¬G a) : ∀ x, ¬TransGen R' x x := by
  have inside : ∀ x y, G x → TransGen R' x y → TransGen R x y ∧ G y := by
    intro x y hx h
    induction h with
    | single h =>
        rcases hstep _ _ h with h | ⟨rfl, -⟩
        · exact ⟨.single h, hclosed _ _ hx h⟩
        · exact absurd hx ha
    | tail _ h ih =>
        rcases hstep _ _ h with h | ⟨rfl, -⟩
        · exact ⟨ih.1.tail h, hclosed _ _ ih.2 h⟩
        · exact absurd ih.2 ha
  have outside : ∀ x y, TransGen R' x y → TransGen R x y ∨ G y := by
    intro x y h
    induction h with
    | single h =>
        rcases hstep _ _ h with h | ⟨-, h⟩
        · exact Or.inl (.single h)
        · exact Or.inr h
    | tail _ h ih =>
        rcases hstep _ _ h with h | ⟨-, h⟩
        · exact ih.imp (·.tail h) (hclosed _ _ · h)
        · exact Or.inr h
  intro x h
  rcases outside x x h with h' | hx
  · exact hR x h'
  · exact hR x (inside x x hx h).1

/-- A supertype of a class or interface: it has been an entry, and it is a class or interface that
has finished loading, unless it has been removed. -/
structure ClassLike (t : ClassTable) (s : Identity) : Prop where
  known : s.index < t.entries.size
  notDeclared : ¬t.Declared s
  notArray : ∀ body, t.bodyAt? s = some body → body.shape.isArray = false

/-- The record of a loaded class below the root names what it may. -/
structure Fits (t : ClassTable) (body : ClassBody) : Prop where
  /-- The chain starts somewhere. -/
  rooted : body.ancestry.chain ≠ []
  known : ∀ s ∈ body.ancestry.supers, s.index < t.entries.size
  classLike : body.shape.isArray = false → ∀ s ∈ body.ancestry.supers, t.ClassLike s

/-- The invariant of every history. -/
structure Sound (t : ClassTable) : Prop where
  /-- The root class is loaded, and nothing is above it. -/
  rootLoaded : ∃ body, t.bodyAt? root = some body ∧ body.shape = .instanceClass ∧
    body.ancestry.supers = []
  /-- A name leads to the entry that has it. -/
  named : ∀ key id, t.names.get? key = some id ↔
    ∃ entry, t.objectAt id = some entry ∧ (entry.loader, entry.name) = key
  fits : ∀ id body, t.bodyAt? id = some body → id ≠ root → t.Fits body
  /-- No class is above itself. -/
  acyclic : ∀ id, ¬TransGen t.Above id id

/-! ### What follows at once -/

namespace Sound

variable {t : ClassTable}

theorem fits_of_mem (h : t.Sound) {id s : Identity} {body : ClassBody}
    (hb : t.bodyAt? id = some body) (hs : s ∈ body.ancestry.supers) : t.Fits body := by
  refine h.fits id body hb ?_
  rintro rfl
  obtain ⟨rootBody, hroot, -, hnone⟩ := h.rootLoaded
  obtain rfl := Option.some.inj (hb.symm.trans hroot)
  rw [hnone] at hs
  simp at hs

theorem known (h : t.Sound) {id s : Identity} (ha : t.Above id s) : s.index < t.entries.size := by
  obtain ⟨body, hb, hs⟩ := ha
  exact (h.fits_of_mem hb hs).known s hs

/-- What is above a loaded class or interface. -/
theorem classLike (h : t.Sound) {id s : Identity} {body : ClassBody} (hb : t.bodyAt? id = some body)
    (hn : body.shape.isArray = false) (hs : s ∈ body.ancestry.supers) : t.ClassLike s :=
  (h.fits_of_mem hb hs).classLike hn s hs

theorem index_lt {id : Identity} {body : ClassBody} (hb : t.bodyAt? id = some body) :
    id.index < t.entries.size := by
  obtain ⟨entry, he, -⟩ := bodyAt?_eq_some.mp hb
  exact index_lt_of_objectAt he

theorem classLike_self {id : Identity} {body : ClassBody} (hb : t.bodyAt? id = some body)
    (hn : body.shape.isArray = false) : t.ClassLike id := by
  refine ⟨index_lt hb, ?_, ?_⟩
  · intro hd
    rw [hd.bodyAt?_eq_none] at hb
    cases hb
  · intro body' hb'
    obtain rfl := Option.some.inj (hb.symm.trans hb')
    exact hn

/-- Two entries with one loader and one name are the same. -/
theorem key_inj (h : t.Sound) {a b : Identity} {ea eb : ClassObject} (ha : t.objectAt a = some ea)
    (hb : t.objectAt b = some eb) (hl : ea.loader = eb.loader) (hn : ea.name = eb.name) :
    a = b := by
  have hka := (h.named (ea.loader, ea.name) a).mpr ⟨ea, ha, rfl⟩
  have hkb := (h.named (ea.loader, ea.name) b).mpr ⟨eb, hb, by rw [hl, hn]⟩
  exact Option.some.inj (hka.symm.trans hkb)

theorem objectAt_arrayAt? (h : t.Sound) {element array : Identity}
    (ha : t.arrayAt? element = some array) : ∃ entry, t.objectAt array = some entry := by
  obtain ⟨key, -, hk⟩ := Option.bind_eq_some_iff.mp ha
  obtain ⟨entry, he, -⟩ := (h.named key array).mp hk
  exact ⟨entry, he⟩

end Sound

/-! ### Records that fit -/

variable {t : ClassTable}

theorem classLike_of_contributes (h : t.Sound) {interfaces : List Identity} {s : Identity}
    (hall : ∀ i ∈ interfaces, ∃ b, t.bodyAt? i = some b ∧ b.shape = .interface)
    (hs : Archive.Contributes t.bodyAt? interfaces s) : t.ClassLike s := by
  obtain ⟨i, hi, body, hb, hs⟩ := hs
  obtain ⟨body', hb', hshape⟩ := hall i hi
  obtain rfl := Option.some.inj (hb.symm.trans hb')
  have hn : body.shape.isArray = false := by simp [hshape]
  rcases hs with rfl | hs
  · exact Sound.classLike_self hb hn
  · exact h.classLike hb hn (AncestryRecord.mem_supers.mpr (Or.inr hs))

/-- What loading a class gives it names loaded classes and interfaces only. -/
theorem classLike_of_loads (h : t.Sound) {d : ClassFile} {body superBody : ClassBody}
    (hl : Archive.Loads t.bodyAt? t.capacity d body superBody) :
    ∀ s ∈ body.ancestry.supers, t.ClassLike s := by
  have hn : superBody.shape.isArray = false := by simp [hl.superShape]
  have hchain : ∀ s ∈ body.ancestry.chain, t.ClassLike s := by
    intro s hs
    rw [hl.chain] at hs
    rcases List.mem_append.mp hs with hs | hs
    · exact h.classLike hl.superAt hn (AncestryRecord.mem_supers.mpr (Or.inl hs))
    · obtain rfl := List.mem_singleton.mp hs
      exact Sound.classLike_self hl.superAt hn
  intro s hs
  rcases AncestryRecord.mem_supers.mp hs with hs | hs
  · exact hchain s hs
  · rcases (hl.mem_secondary s).mp hs with hs | hs | hs
    · exact hchain s (List.mem_of_mem_drop hs)
    · exact h.classLike hl.superAt hn (AncestryRecord.mem_supers.mpr (Or.inr hs))
    · exact classLike_of_contributes h hl.areInterfaces hs

theorem fits_of_loads (h : t.Sound) {d : ClassFile} {body superBody : ClassBody}
    (hl : Archive.Loads t.bodyAt? t.capacity d body superBody) : t.Fits body where
  rooted := by rw [hl.chain]; simp
  known := fun s hs => (classLike_of_loads h hl s hs).known
  classLike := fun _ => classLike_of_loads h hl

theorem Inherits.known (h : t.Sound) {lineage : Option (Identity × List Identity)}
    {chain inherited : List Identity} (hi : t.Inherits lineage chain inherited) :
    chain ≠ [] ∧ (∀ s ∈ chain, s.index < t.entries.size) ∧
      ∀ s ∈ inherited, s.index < t.entries.size := by
  cases hi with
  | root =>
      obtain ⟨body, hb, -⟩ := h.rootLoaded
      simpa using Sound.index_lt hb
  | super harray hbody hothers =>
      rename_i superBody
      have habove : ∀ s ∈ superBody.ancestry.supers, s.index < t.entries.size := fun s hs =>
        h.known ⟨superBody, hbody, hs⟩
      refine ⟨by simp, ?_, ?_⟩
      · intro s hs
        rcases List.mem_append.mp hs with hs | hs
        · exact habove s (AncestryRecord.mem_supers.mpr (Or.inl hs))
        · obtain rfl := List.mem_singleton.mp hs
          exact Sound.index_lt hbody
      · intro s hs
        rcases mem_appendNew.mp hs with hs | hs
        · exact habove s (AncestryRecord.mem_supers.mpr (Or.inr hs))
        · obtain ⟨other, -, ha⟩ := ((mem_arraysOf hothers).2 s).mp hs
          obtain ⟨entry, he⟩ := h.objectAt_arrayAt? ha
          exact index_lt_of_objectAt he

theorem Makes.fits (h : t.Sound) {element : ElementType} {interfaces : List Identity}
    {plan : ArrayPlan} {chain secondary : List Identity}
    (hm : t.Makes element interfaces plan chain secondary) :
    t.Fits (t.arrayBody plan chain secondary) := by
  obtain ⟨inherited, hi, hmem⟩ := hm.supers
  obtain ⟨hne, hchain, hinherited⟩ := hi.known h
  refine ⟨hne, ?_, fun hn => absurd hn (by simp [arrayBody, ClassShape.isArray])⟩
  intro s hs
  rcases AncestryRecord.mem_supers.mp hs with hs | hs
  · exact hchain s hs
  · rcases (hmem s).mp hs with hs | hs | hs
    · exact hinherited s hs
    · exact (classLike_of_contributes h hm.areInterfaces hs).known
    · exact hchain s (List.mem_of_mem_drop hs)

/-! ### One more entry -/

theorem declared_add {entry : ClassObject} {s : Identity} (hs : s.index < t.entries.size) :
    (t.add entry).Declared s ↔ t.Declared s := by
  unfold Declared
  rw [objectAt_add, if_neg]
  rintro rfl
  exact Nat.lt_irrefl _ hs

theorem bodyAt?_add_of_lt {entry : ClassObject} {s : Identity} (hs : s.index < t.entries.size) :
    (t.add entry).bodyAt? s = t.bodyAt? s := by
  rw [bodyAt?_add, if_neg]
  rintro rfl
  exact Nat.lt_irrefl _ hs

theorem ClassLike.add {s : Identity} (h : t.ClassLike s) (entry : ClassObject) :
    (t.add entry).ClassLike s := by
  refine ⟨?_, ?_, ?_⟩
  · rw [size_add]
    exact Nat.lt_succ_of_lt h.known
  · rw [declared_add h.known]
    exact h.notDeclared
  · rw [bodyAt?_add_of_lt h.known]
    exact h.notArray

theorem Fits.add {body : ClassBody} (h : t.Fits body) (entry : ClassObject) :
    (t.add entry).Fits body where
  rooted := h.rooted
  known := fun s hs => by
    rw [size_add]
    exact Nat.lt_succ_of_lt (h.known s hs)
  classLike := fun hn s hs => (h.classLike hn s hs).add entry

/-- A further entry, declared or with a record that fits, under a name that is free. -/
theorem Sound.add (h : t.Sound) {entry : ClassObject}
    (hfree : t.names.get? (entry.loader, entry.name) = none)
    (hfits : ∀ body, entry.body? = some body → t.Fits body) : (t.add entry).Sound where
  rootLoaded := by
    obtain ⟨body, hb, hrest⟩ := h.rootLoaded
    exact ⟨body, by rw [bodyAt?_add_of_lt (index_lt hb), hb], hrest⟩
  named := by
    intro key id
    rw [get?_names_add, objectAt_add]
    by_cases hk : (entry.loader, entry.name) = key
    · rw [if_pos hk]
      constructor
      · intro hid
        obtain rfl := Option.some.inj hid
        exact ⟨entry, by simp, hk⟩
      · rintro ⟨e, he, hek⟩
        by_cases hid : id = t.freshId
        · rw [hid]
        · -- Nothing else can have the name: the index had no entry for it.
          rw [if_neg hid] at he
          have := (h.named key id).mpr ⟨e, he, hek⟩
          rw [← hk, hfree] at this
          cases this
    · rw [if_neg hk, h.named]
      by_cases hid : id = t.freshId
      · rw [if_pos hid, hid, objectAt_freshId]
        simp [hk]
      · rw [if_neg hid]
  fits := by
    intro id body hb hne
    rw [bodyAt?_add] at hb
    split at hb
    · exact (hfits body hb).add entry
    · exact (h.fits id body hb hne).add entry
  acyclic := by
    refine acyclic_of_region (a := t.freshId) (G := fun s => s.index < t.entries.size) h.acyclic
      ?_ (fun _ _ _ => h.known) (Nat.lt_irrefl _)
    rintro x y ⟨body, hb, hy⟩
    rw [bodyAt?_add] at hb
    split at hb
    · rename_i hx
      exact Or.inr ⟨hx, (hfits body hb).known y hy⟩
    · exact Or.inl ⟨body, hb, hy⟩

/-! ### A declared entry completed -/

section Complete

variable {id : Identity} {entry : ClassObject} {body : ClassBody}

theorem ClassLike.complete {s : Identity} (h : t.ClassLike s) (hd : t.Declared id)
    (content : Option ClassObject) : (t.put id content).ClassLike s := by
  have hne : s ≠ id := by
    rintro rfl
    exact h.notDeclared hd
  obtain ⟨old, hold, -⟩ := hd
  have hid := index_lt_of_objectAt hold
  refine ⟨by simpa using h.known, ?_, ?_⟩
  · rintro ⟨e, he, hnone⟩
    rw [objectAt_put hid, if_neg hne] at he
    exact h.notDeclared ⟨e, he, hnone⟩
  · rw [bodyAt?_put hid, if_neg hne]
    exact h.notArray

theorem Fits.complete (h : t.Fits body) (hd : t.Declared id) (content : Option ClassObject) :
    (t.put id content).Fits body where
  rooted := h.rooted
  known := by simpa using h.known
  classLike := fun hn s hs => (h.classLike hn s hs).complete hd content

/-- A declared entry gets the body of a class or interface. -/
theorem Sound.complete (h : t.Sound) (he : t.objectAt id = some entry) (hnone : entry.body? = none)
    (hfits : t.Fits body) (hn : body.shape.isArray = false) :
    (t.put id (some { entry with body? := some body })).Sound := by
  have hd : t.Declared id := ⟨entry, he, hnone⟩
  have hid := index_lt_of_objectAt he
  refine ⟨?_, ?_, ?_, ?_⟩
  · obtain ⟨rootBody, hb, hrest⟩ := h.rootLoaded
    have hne : root ≠ id := by
      rintro rfl
      rw [hd.bodyAt?_eq_none] at hb
      cases hb
    exact ⟨rootBody, by rw [bodyAt?_put hid, if_neg hne, hb], hrest⟩
  · intro key other
    rw [show (t.put id _).names = t.names from rfl, h.named, objectAt_put hid]
    by_cases ho : other = id
    · simp [ho, he]
    · rw [if_neg ho]
  · intro other b hb hne
    rw [bodyAt?_put hid] at hb
    split at hb
    · obtain rfl : body = b := by simpa using hb
      exact hfits.complete hd _
    · exact (h.fits other b hb hne).complete hd _
  · refine acyclic_of_region (a := id) (G := t.ClassLike) h.acyclic ?_ ?_
      fun hc => hc.notDeclared hd
    · rintro x y ⟨b, hb, hy⟩
      rw [bodyAt?_put hid] at hb
      split at hb
      · rename_i hx
        obtain rfl : body = b := by simpa using hb
        exact Or.inr ⟨hx, hfits.classLike hn y hy⟩
      · exact Or.inl ⟨b, hb, hy⟩
    · rintro x y hx ⟨b, hb, hy⟩
      exact h.classLike hb (hx.notArray b hb) hy

end Complete

/-! ### An entry removed -/

theorem objectAt_without {id : Identity} {entry : ClassObject} (he : t.objectAt id = some entry)
    (other : Identity) :
    (t.without id entry).objectAt other = if other = id then none else t.objectAt other :=
  objectAt_put (index_lt_of_objectAt he) none other

theorem bodyAt?_without {id : Identity} {entry : ClassObject} (he : t.objectAt id = some entry)
    (other : Identity) :
    (t.without id entry).bodyAt? other = if other = id then none else t.bodyAt? other :=
  bodyAt?_put (index_lt_of_objectAt he) none other

/-- What is still there after a removal was there before. -/
theorem bodyAt?_of_without {id other : Identity} {entry : ClassObject} {body : ClassBody}
    (he : t.objectAt id = some entry) (hb : (t.without id entry).bodyAt? other = some body) :
    t.bodyAt? other = some body := by
  rw [bodyAt?_without he] at hb
  split at hb
  · cases hb
  · exact hb

theorem ClassLike.without {id s : Identity} {entry : ClassObject} (h : t.ClassLike s)
    (he : t.objectAt id = some entry) : (t.without id entry).ClassLike s where
  known := by simpa [ClassTable.without] using h.known
  notDeclared := by
    rintro ⟨e, hs, hnone⟩
    rw [objectAt_without he] at hs
    split at hs
    · cases hs
    · exact h.notDeclared ⟨e, hs, hnone⟩
  notArray := fun body hb => h.notArray body (bodyAt?_of_without he hb)

theorem Sound.without (h : t.Sound) {id : Identity} {entry : ClassObject}
    (he : t.objectAt id = some entry) (hne : id ≠ root) : (t.without id entry).Sound where
  rootLoaded := by
    obtain ⟨body, hb, hrest⟩ := h.rootLoaded
    exact ⟨body, by rw [bodyAt?_without he, if_neg (Ne.symm hne), hb], hrest⟩
  named := by
    intro key other
    rw [show (t.without id entry).names = t.names.erase (entry.loader, entry.name) from rfl,
      Index.get?_erase, objectAt_without he]
    by_cases hk : (entry.loader, entry.name) = key
    · rw [if_pos hk]
      refine ⟨nofun, ?_⟩
      rintro ⟨e, hother, hek⟩
      split at hother
      · cases hother
      · rename_i hne'
        obtain ⟨hl, hn⟩ := Prod.mk.inj (hek.trans hk.symm)
        exact absurd (h.key_inj hother he hl hn) hne'
    · rw [if_neg hk, h.named]
      by_cases ho : other = id
      · rw [ho, he, if_pos rfl]
        simp [hk]
      · rw [if_neg ho]
  fits := by
    intro other body hb hne'
    have hfits := h.fits other body (bodyAt?_of_without he hb) hne'
    exact
      { rooted := hfits.rooted
        known := by simpa [ClassTable.without] using hfits.known
        classLike := fun hn s hs => (hfits.classLike hn s hs).without he }
  acyclic := by
    intro x hx
    refine h.acyclic x (TransGen.mono ?_ x x hx)
    rintro a b ⟨body, hb, hs⟩
    exact ⟨body, bodyAt?_of_without he hb, hs⟩

/-! ### Moves and the first table -/

theorem Move.sound {op : Op} {t' : ClassTable} (hm : Move t op t') (h : t.Sound) : t'.Sound := by
  cases hm with
  | newLoader parent _ =>
      refine ⟨h.rootLoaded, h.named, fun id body hb hne => ?_, h.acyclic⟩
      obtain ⟨hrooted, hknown, hclass⟩ := h.fits id body hb hne
      refine ⟨hrooted, hknown, fun hn s hs => ?_⟩
      exact ⟨(hclass hn s hs).known, (hclass hn s hs).notDeclared, (hclass hn s hs).notArray⟩
  | define d body superBody _ hfree hl =>
      refine h.add hfree ?_
      intro b hb
      obtain rfl := Option.some.inj hb
      exact fits_of_loads h hl
  | declare loader name _ hfree => exact h.add hfree (by rintro _ ⟨⟩)
  | complete id d entry body superBody he hnone hl =>
      exact h.complete he hnone (fits_of_loads h hl) hl.notArray
  | array element interfaces plan chain secondary hmk =>
      refine h.add hmk.unused ?_
      intro b hb
      obtain rfl := Option.some.inj hb
      exact hmk.fits h
  | unload id entry he hne => exact h.without he hne

theorem objectAt_create (rootName : String) (capacity : Display.Capacity) (id : Identity) :
    (create rootName capacity).objectAt id
      = if id = root then some (rootObject rootName capacity) else none := by
  unfold objectAt create
  by_cases h : id = root
  · simp [h, root]
  · have hne : id.index ≠ 0 := fun e => h (Identity.index_inj.mp e)
    rw [if_neg h, Array.getElem?_eq_none (by simp; omega)]
    rfl

theorem bodyAt?_create {rootName : String} {capacity : Display.Capacity} {id : Identity}
    {body : ClassBody} (hb : (create rootName capacity).bodyAt? id = some body) :
    id = root ∧ body.shape = .instanceClass ∧
      body.ancestry = .place capacity true [] [] := by
  obtain ⟨entry, he, hbody⟩ := bodyAt?_eq_some.mp hb
  rw [objectAt_create] at he
  split at he
  · rename_i hid
    obtain rfl := Option.some.inj he
    obtain rfl := Option.some.inj hbody
    exact ⟨hid, rfl, rfl⟩
  · cases he

theorem sound_create (rootName : String) (capacity : Display.Capacity) :
    (create rootName capacity).Sound where
  rootLoaded := ⟨_, bodyAt?_eq_some.mpr ⟨_, by rw [objectAt_create, if_pos rfl], rfl⟩, rfl, rfl⟩
  named := by
    intro key id
    rw [show (create rootName capacity).names
      = Index.empty.insert (Loader.bootstrap, rootName) root from rfl, Index.get?_insert,
      objectAt_create]
    by_cases hk : (Loader.bootstrap, rootName) = key <;> by_cases hid : id = root <;>
      simp_all [rootObject, eq_comm]
  fits := fun _ _ hb hne => absurd (bodyAt?_create hb).1 hne
  acyclic := by
    have hnone : ∀ x y, ¬(create rootName capacity).Above x y := by
      rintro x y ⟨body, hb, hy⟩
      rw [(bodyAt?_create hb).2.2] at hy
      cases hy
    intro x hx
    obtain ⟨y, hxy, -⟩ := TransGen.head'_iff.mp hx
    exact hnone x y hxy

end ClassTable

end RuntimeTypes
