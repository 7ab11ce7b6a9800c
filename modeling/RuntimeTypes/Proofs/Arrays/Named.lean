/-
Names of arrays.

An array is named after its element, so what is found as the array of a class is found by
name.  Here is what entries that come and go do to that, and `Neat`, which holds where
nothing but an array is named like one and no class leaves before its array does.  Then
every array is found as that of a class that is there, or it has primitive elements.
-/
import RuntimeTypes.Proofs.Chronicle

namespace RuntimeTypes

namespace ClassTable

variable {t t' : ClassTable}

/-! ### How names are spelled -/

theorem isArrayName_append (name : String) : isArrayName ("[" ++ name) = true := by
  simp [isArrayName]

theorem elementDescriptor_ne {name : String} {type : BasicType} (ht : type.isReference = false) :
    elementDescriptor name ≠ String.singleton type.descriptor := by
  intro h
  have hlist := congrArg String.toList h
  unfold elementDescriptor at hlist
  split at hlist
  · rename_i hn
    unfold isArrayName at hn
    rw [hlist] at hn
    cases type <;> simp_all [BasicType.descriptor, BasicType.isReference]
  · simp at hlist

theorem append_elementDescriptor_ne (name : String) : "[" ++ elementDescriptor name ≠ name := by
  intro h
  have hlen := congrArg (fun s => s.toList.length) h
  unfold elementDescriptor at hlen
  split at hlen <;> simp at hlen
  omega

/-! ### Tables that grow -/

/-- Nothing is lost: bodies, entries with their names, and the index. -/
structure Grows (t t' : ClassTable) : Prop where
  capacity : t'.capacity = t.capacity
  bodies : Archive.Within t.bodyAt? t'.bodyAt?
  entries : ∀ id entry, t.objectAt id = some entry →
    ∃ entry', t'.objectAt id = some entry' ∧ entry'.name = entry.name ∧ entry'.loader = entry.loader
  index : ∀ key id, t.names.get? key = some id → t'.names.get? key = some id

theorem Grows.refl (t : ClassTable) : Grows t t :=
  ⟨rfl, .refl _, fun _ entry he => ⟨entry, he, rfl, rfl⟩, fun _ _ hk => hk⟩

theorem Grows.trans {t'' : ClassTable} (hg : Grows t t') (hg' : Grows t' t'') : Grows t t'' where
  capacity := hg'.capacity.trans hg.capacity
  bodies := hg.bodies.trans hg'.bodies
  entries := fun id entry he => by
    obtain ⟨entry', he', hname, hloader⟩ := hg.entries id entry he
    obtain ⟨entry'', he'', hname', hloader'⟩ := hg'.entries id entry' he'
    exact ⟨entry'', he'', hname'.trans hname, hloader'.trans hloader⟩
  index := fun key id hk => hg'.index key id (hg.index key id hk)

theorem Grows.arrayKey? (hg : Grows t t') {x : Identity} {key : Loader × String}
    (h : t.arrayKey? x = some key) : t'.arrayKey? x = some key := by
  obtain ⟨entry, he, rfl⟩ := Option.map_eq_some_iff.mp h
  obtain ⟨entry', he', hname, hloader⟩ := hg.entries x entry he
  rw [arrayKey?_of_objectAt he', hname, hloader]

theorem Grows.arrayAt? (hg : Grows t t') {x array : Identity} (h : t.arrayAt? x = some array) :
    t'.arrayAt? x = some array := by
  obtain ⟨key, hkey, hk⟩ := Option.bind_eq_some_iff.mp h
  exact Option.bind_eq_some_iff.mpr ⟨key, hg.arrayKey? hkey, hg.index key array hk⟩

theorem Grows.loader (t : ClassTable) (loaders : LoaderTree) :
    Grows t { t with loaders := loaders } :=
  ⟨rfl, .refl _, fun _ entry he => ⟨entry, he, rfl, rfl⟩, fun _ _ hk => hk⟩

theorem Grows.add (entry : ClassObject) (hfree : t.names.get? (entry.loader, entry.name) = none) :
    Grows t (t.add entry) where
  capacity := rfl
  bodies := within_add entry
  entries := fun id e he => by
    refine ⟨e, ?_, rfl, rfl⟩
    rw [objectAt_add, if_neg, he]
    rintro rfl
    rw [objectAt_freshId] at he
    cases he
  index := fun key id hk => by
    rw [get?_names_add, if_neg, hk]
    rintro rfl
    rw [hfree] at hk
    cases hk

theorem ArrayMove.grows {interfaces : List Identity} (hm : ArrayMove interfaces t t') :
    Grows t t' := by
  obtain ⟨element, hm⟩ := hm
  cases hm with
  | array _ _ plan chain secondary hmakes => exact .add _ hmakes.unused

theorem grows_arrayMoves {interfaces : List Identity}
    (hm : Relation.ReflTransGen (ArrayMove interfaces) t t') : Grows t t' := by
  induction hm with
  | refl => exact .refl t
  | tail _ hmove ih => exact ih.trans hmove.grows

/-- A declared entry completed. -/
theorem Grows.put {id : Identity} {entry : ClassObject} {body : ClassBody}
    (he : t.objectAt id = some entry) (hnone : entry.body? = none) :
    Grows t (t.put id (some { entry with body? := some body })) where
  capacity := rfl
  bodies := fun x b hb => by
    rw [bodyAt?_put (index_lt_of_objectAt he), if_neg, hb]
    rintro rfl
    rw [Declared.bodyAt?_eq_none ⟨entry, he, hnone⟩] at hb
    cases hb
  entries := fun x e hx => by
    rw [objectAt_put (index_lt_of_objectAt he)]
    split
    · rename_i hxid
      subst hxid
      obtain rfl := Option.some.inj (he.symm.trans hx)
      exact ⟨_, rfl, rfl, rfl⟩
    · exact ⟨e, hx, rfl, rfl⟩
  index := fun _ _ hk => hk

/-! ### What is found as an array -/

/-- What is found as the array of an old entry after one has been added: the new entry, if its name is
that of the array, or else what was found before. -/
theorem arrayAt?_add_of_ne {entry : ClassObject} {x array : Identity} (hne : x ≠ t.freshId)
    (hx : (t.add entry).arrayAt? x = some array) :
    (array = t.freshId ∧ t.arrayKey? x = some (entry.loader, entry.name)) ∨
      t.arrayAt? x = some array := by
  obtain ⟨key, hkey, hget⟩ := Option.bind_eq_some_iff.mp hx
  have hold : t.arrayKey? x = some key := by
    unfold arrayKey? at hkey ⊢
    rwa [objectAt_add, if_neg hne] at hkey
  rw [get?_names_add] at hget
  split at hget
  · rename_i he
    exact Or.inl ⟨(Option.some.inj hget).symm, by rw [he, hold]⟩
  · exact Or.inr (Option.bind_eq_some_iff.mpr ⟨key, hold, hget⟩)

theorem arrayAt?_complete {id : Identity} {entry : ClassObject} {body : ClassBody}
    (he : t.objectAt id = some entry) (x : Identity) :
    (t.put id (some { entry with body? := some body })).arrayAt? x = t.arrayAt? x := by
  unfold arrayAt? arrayKey?
  rw [objectAt_put (index_lt_of_objectAt he)]
  split
  · rename_i hxid
    rw [hxid, he]
    rfl
  · rfl

/-- What is found as an array when an entry has been removed is what was found before, except for the
entry itself. -/
theorem Sound.arrayAt?_without (hs : t.Sound) {id : Identity} {entry : ClassObject}
    (he : t.objectAt id = some entry) {x array : Identity} (hx : x ≠ id) :
    (t.without id entry).arrayAt? x = some array ↔ array ≠ id ∧ t.arrayAt? x = some array := by
  have hown : t.names.get? (entry.loader, entry.name) = some id :=
    (hs.named _ id).mpr ⟨entry, he, rfl⟩
  have hnames : ∀ key, (t.without id entry).names.get? key = some array ↔
      array ≠ id ∧ t.names.get? key = some array := by
    intro key
    rw [show (t.without id entry).names = t.names.erase (entry.loader, entry.name) from rfl,
      Index.get?_erase]
    by_cases hk : (entry.loader, entry.name) = key
    · rw [if_pos hk, ← hk, hown]
      simp [eq_comm]
    · rw [if_neg hk]
      refine ⟨fun h => ⟨?_, h⟩, And.right⟩
      -- The name leads to an entry that has it.
      rintro rfl
      obtain ⟨e, he', hek⟩ := (hs.named key array).mp h
      obtain rfl := Option.some.inj (he.symm.trans he')
      exact hk hek
  have hkey : (t.without id entry).arrayKey? x = t.arrayKey? x := by
    unfold arrayKey?
    rw [objectAt_without he, if_neg hx]
  unfold arrayAt?
  rw [hkey]
  cases t.arrayKey? x with
  | none => simp
  | some key => exact hnames key

/-- In a new table nothing is found as an array: the root is not named like its own. -/
theorem arrayAt?_create (rootName : String) (capacity : Display.Capacity) (x : Identity) :
    (create rootName capacity).arrayAt? x = none := by
  unfold arrayAt? arrayKey?
  rw [objectAt_create]
  split
  · rw [show (create rootName capacity).names
      = Index.empty.insert (Loader.bootstrap, rootName) root from rfl]
    show Index.get? _ _ = none
    rw [Index.get?_insert, if_neg, Index.get?_empty]
    intro hkey
    exact append_elementDescriptor_ne rootName (Prod.mk.inj hkey).2.symm
  · rfl

section

variable {element : ElementType} {interfaces chain secondary : List Identity} {plan : ArrayPlan}

theorem arrayPlan_primitive_eq_ok {type : BasicType}
    (h : t.arrayPlan (.primitive type) = .ok plan) :
    type.isReference = false ∧ plan.name = "[" ++ String.singleton type.descriptor := by
  simp only [arrayPlan] at h
  split at h
  · cases h
  · rename_i hn
    obtain rfl := Except.ok.inj h
    exact ⟨by simpa using fun hr => hn (Or.inl hr), rfl⟩

/-- A further array is found as the array of its element and of nothing else. -/
theorem Makes.arrayAt?_freshId {x : Identity} (hs : t.Sound)
    (hm : t.Makes element interfaces plan chain secondary)
    (hkey : t.arrayKey? x = some (plan.loader, plan.name)) : element = .ofClass x := by
  obtain ⟨entry, he, hkey'⟩ := Option.map_eq_some_iff.mp hkey
  cases element with
  | primitive type =>
      obtain ⟨ht, hname⟩ := arrayPlan_primitive_eq_ok hm.planned
      rw [← (Prod.mk.inj hkey').2, String.append_right_inj] at hname
      exact absurd hname (elementDescriptor_ne ht)
  | ofClass y => rw [hs.arrayKey?_inj hkey (arrayKey?_of_arrayPlan hm.planned)]

end

/-! ### Neat tables -/

/-- An entry that is named like an array of primitive values. -/
def NamedAfterPrimitive (t : ClassTable) (id : Identity) : Prop :=
  ∃ entry type, t.objectAt id = some entry ∧ BasicType.isReference type = false ∧
    entry.name = "[" ++ String.singleton type.descriptor

/-- Nothing but an array is named like one, and every array is that of a class that is there. -/
structure Neat (t : ClassTable) : Prop where
  /-- Whatever is named like an array is a loaded array. -/
  named : ∀ id entry, t.objectAt id = some entry → isArrayName entry.name = true →
    ∃ b, entry.body? = some b ∧ b.shape.isArray = true
  /-- What is found as the array of a class has come after it, and the class is loaded. -/
  found : ∀ x array, t.arrayAt? x = some array →
    x.index < array.index ∧ ∃ b, t.bodyAt? x = some b
  element : ∀ id b, t.bodyAt? id = some b → b.shape.isArray = true →
    (∃ x, t.arrayAt? x = some id) ∨ t.NamedAfterPrimitive id

theorem NamedAfterPrimitive.grow (hg : Grows t t') {id : Identity} (h : t.NamedAfterPrimitive id) :
    t'.NamedAfterPrimitive id := by
  obtain ⟨entry, type, he, ht, hname⟩ := h
  obtain ⟨entry', he', hname', -⟩ := hg.entries id entry he
  exact ⟨entry', type, he', ht, by rw [hname', hname]⟩

namespace Neat

theorem isArray (h : t.Neat) (hs : t.Sound) {x array : Identity} (ha : t.arrayAt? x = some array) :
    ∃ b, t.bodyAt? array = some b ∧ b.shape.isArray = true := by
  obtain ⟨key, hkey, hget⟩ := Option.bind_eq_some_iff.mp ha
  obtain ⟨xe, -, rfl⟩ := Option.map_eq_some_iff.mp hkey
  obtain ⟨entry, he, hek⟩ := (hs.named _ array).mp hget
  obtain ⟨b, hb, hn⟩ := h.named array entry he
    (by rw [(Prod.mk.inj hek).2]; exact isArrayName_append _)
  exact ⟨b, bodyAt?_eq_some.mpr ⟨entry, he, hb⟩, hn⟩

/-- Where a name is free, so is the name of the array of a class that would have it. -/
theorem arrayName_free (h : t.Neat) (hs : t.Sound) {loader : Loader} {name : String}
    (hfree : t.names.get? (loader, name) = none) :
    t.names.get? (loader, "[" ++ elementDescriptor name) = none := by
  cases hused : t.names.get? (loader, "[" ++ elementDescriptor name) with
  | none => rfl
  | some array =>
      obtain ⟨entry, he, hkey⟩ := (hs.named _ _).mp hused
      obtain ⟨hloader, hname⟩ := Prod.mk.inj hkey
      obtain ⟨b, hb, hn⟩ := h.named array entry he (by rw [hname]; exact isArrayName_append _)
      rcases h.element array b (bodyAt?_eq_some.mpr ⟨entry, he, hb⟩) hn with ⟨x, hx⟩ | hp
      · -- The element has the free name.
        obtain ⟨key, hk, hget⟩ := Option.bind_eq_some_iff.mp hx
        obtain ⟨xe, hxe, rfl⟩ := Option.map_eq_some_iff.mp hk
        obtain ⟨e, he', hek⟩ := (hs.named _ _).mp hget
        obtain rfl := Option.some.inj (he.symm.trans he')
        obtain ⟨hxl, hxn⟩ := Prod.mk.inj hek
        rw [hname, String.append_right_inj] at hxn
        have hbound := (hs.named (loader, name) x).mpr
          ⟨xe, hxe, by rw [← elementDescriptor_inj hxn, ← hloader, hxl]⟩
        rw [hfree] at hbound
        cases hbound
      · obtain ⟨e, type, he', ht, hprim⟩ := hp
        obtain rfl := Option.some.inj (he.symm.trans he')
        rw [hname, String.append_right_inj] at hprim
        exact absurd hprim (elementDescriptor_ne ht)

/-- The new entry itself has no array. -/
theorem arrayAt?_add (h : t.Neat) (hs : t.Sound) {entry : ClassObject}
    (hfree : t.names.get? (entry.loader, entry.name) = none) {x array : Identity}
    (hx : (t.add entry).arrayAt? x = some array) :
    (array = t.freshId ∧ t.arrayKey? x = some (entry.loader, entry.name)) ∨
      t.arrayAt? x = some array := by
  by_cases hfresh : x = t.freshId
  · subst hfresh
    obtain ⟨key, hkey, hget⟩ := Option.bind_eq_some_iff.mp hx
    rw [arrayKey?_of_objectAt (by rw [objectAt_add, if_pos rfl])] at hkey
    obtain rfl := Option.some.inj hkey
    rw [get?_names_add, if_neg, h.arrayName_free hs hfree] at hget
    · cases hget
    · intro he
      exact append_elementDescriptor_ne entry.name (Prod.mk.inj he).2.symm
  · exact arrayAt?_add_of_ne hfresh hx

end Neat

/-! ### Nothing new about arrays -/

/-- The table has grown, and there is nothing new that is an array or is found as one. -/
structure SameArrays (t t' : ClassTable) : Prop where
  grows : Grows t t'
  named : ∀ id entry, t'.objectAt id = some entry → isArrayName entry.name = true →
    ∃ b, entry.body? = some b ∧ b.shape.isArray = true
  bodies : ∀ id b, t'.bodyAt? id = some b → b.shape.isArray = true → t.bodyAt? id = some b
  found : ∀ x array, t'.arrayAt? x = some array → t.arrayAt? x = some array

namespace Neat

theorem grow (h : t.Neat) (hk : SameArrays t t') : t'.Neat where
  named := hk.named
  found := fun x array ha => by
    obtain ⟨hlt, b, hb⟩ := h.found x array (hk.found x array ha)
    exact ⟨hlt, b, hk.grows.bodies x b hb⟩
  element := fun id b hb hn => (h.element id b (hk.bodies id b hb hn) hn).imp
    (fun ⟨x, hx⟩ => ⟨x, hk.grows.arrayAt? hx⟩) fun hp => hp.grow hk.grows

theorem sameArrays_loader (h : t.Neat) (loaders : LoaderTree) :
    SameArrays t { t with loaders := loaders } where
  grows := .loader t loaders
  named := h.named
  bodies := fun _ _ hb _ => hb
  found := fun _ _ ha => ha

/-- An entry that is neither an array nor named like one. -/
theorem sameArrays_add (h : t.Neat) (hs : t.Sound) {entry : ClassObject}
    (hfree : t.names.get? (entry.loader, entry.name) = none)
    (hname : isArrayName entry.name = false)
    (hbody : ∀ b, entry.body? = some b → b.shape.isArray = false) :
    SameArrays t (t.add entry) where
  grows := .add entry hfree
  named := by
    intro id e he hn
    rw [objectAt_add] at he
    split at he
    · obtain rfl := Option.some.inj he
      rw [hname] at hn
      cases hn
    · exact h.named id e he hn
  bodies := by
    intro id b hb hn
    rcases bodyAt?_add_cases hb with ⟨-, hb⟩ | ⟨-, hb⟩
    · rw [hbody b hb] at hn
      cases hn
    · exact hb
  found := by
    intro x array hx
    rcases h.arrayAt?_add hs hfree hx with ⟨-, hkey⟩ | hx
    · obtain ⟨e, -, he⟩ := Option.map_eq_some_iff.mp hkey
      rw [← (Prod.mk.inj he).2, isArrayName_append] at hname
      cases hname
    · exact hx

/-- A declared class is loaded. -/
theorem sameArrays_complete (h : t.Neat) {id : Identity} {entry : ClassObject} {body : ClassBody}
    (he : t.objectAt id = some entry) (hnone : entry.body? = none)
    (hbody : body.shape.isArray = false) :
    SameArrays t (t.put id (some { entry with body? := some body })) where
  grows := .put he hnone
  named := by
    intro x e hx hn
    rw [objectAt_put (index_lt_of_objectAt he)] at hx
    split at hx
    · obtain rfl := Option.some.inj hx
      obtain ⟨b, hb, -⟩ := h.named id entry he hn
      rw [hnone] at hb
      cases hb
    · exact h.named x e hx hn
  bodies := by
    intro x b hb hn
    rcases bodyAt?_put_cases (index_lt_of_objectAt he) hb with ⟨-, hb⟩ | ⟨-, hb⟩
    · rw [← hb, hbody] at hn
      cases hn
    · exact hb
  found := by
    intro x array hx
    rwa [arrayAt?_complete he] at hx

/-- An entry is removed that has no array. -/
theorem without (h : t.Neat) (hs : t.Sound) {id : Identity} {entry : ClassObject}
    (he : t.objectAt id = some entry) (hnone : t.arrayAt? id = none) :
    (t.without id entry).Neat where
  named := by
    intro x e hx hn
    rw [objectAt_without he] at hx
    split at hx
    · cases hx
    · exact h.named x e hx hn
  found := by
    intro x array ha
    have hne : x ≠ id := by
      rintro rfl
      unfold arrayAt? arrayKey? at ha
      rw [objectAt_without he, if_pos rfl] at ha
      cases ha
    obtain ⟨hlt, b, hb⟩ := h.found x array ((hs.arrayAt?_without he hne).mp ha).2
    exact ⟨hlt, b, by rw [bodyAt?_without he, if_neg hne, hb]⟩
  element := by
    intro array b hb hn
    have hne : array ≠ id := by
      rintro rfl
      rw [bodyAt?_without he, if_pos rfl] at hb
      cases hb
    refine (h.element array b (bodyAt?_of_without he hb) hn).imp ?_ ?_
    · rintro ⟨x, hx⟩
      -- An entry that has an array is not the one that is removed.
      have hxne : x ≠ id := by
        rintro rfl
        rw [hnone] at hx
        cases hx
      exact ⟨x, (hs.arrayAt?_without he hxne).mpr ⟨hne, hx⟩⟩
    · rintro ⟨e, type, he', hprim⟩
      exact ⟨e, type, by rw [objectAt_without he, if_neg hne, he'], hprim⟩

end Neat

/-! ### Further arrays -/

section

variable {element : ElementType} {interfaces chain secondary : List Identity} {plan : ArrayPlan}

theorem Makes.arrayAt?_element {x : Identity}
    (hm : t.Makes (.ofClass x) interfaces plan chain secondary) :
    (t.add
      { name := plan.name
        loader := plan.loader
        body? := some (t.arrayBody plan chain secondary) }).arrayAt? x = some t.freshId := by
  refine Option.bind_eq_some_iff.mpr ⟨(plan.loader, plan.name), ?_, ?_⟩
  · exact (Grows.add _ hm.unused).arrayKey? (arrayKey?_of_arrayPlan hm.planned)
  · rw [get?_names_add, if_pos rfl]

theorem Makes.namedAfterPrimitive {type : BasicType}
    (hm : t.Makes (.primitive type) interfaces plan chain secondary) :
    (t.add
      { name := plan.name
        loader := plan.loader
        body? := some (t.arrayBody plan chain secondary) }).NamedAfterPrimitive t.freshId := by
  obtain ⟨ht, hname⟩ := arrayPlan_primitive_eq_ok hm.planned
  exact ⟨_, type, by rw [objectAt_add, if_pos rfl], ht, hname⟩

theorem Makes.neat (hm : t.Makes element interfaces plan chain secondary) (hs : t.Sound)
    (h : t.Neat) :
    (t.add
      { name := plan.name
        loader := plan.loader
        body? := some (t.arrayBody plan chain secondary) }).Neat := by
  have hg := Grows.add (t := t)
    { name := plan.name
      loader := plan.loader
      body? := some (t.arrayBody plan chain secondary) } hm.unused
  refine ⟨?_, ?_, ?_⟩
  · intro id entry he hn
    rw [objectAt_add] at he
    split at he
    · obtain rfl := Option.some.inj he
      exact ⟨_, rfl, rfl⟩
    · exact h.named id entry he hn
  · intro x array ha
    rcases h.arrayAt?_add hs hm.unused ha with ⟨rfl, hkey⟩ | ha
    · obtain rfl := hm.arrayAt?_freshId hs hkey
      obtain ⟨entry, b, he, hb, -⟩ := arrayPlan_ofClass_eq_ok hm.planned
      have hx : t.bodyAt? x = some b := bodyAt?_eq_some.mpr ⟨entry, he, hb⟩
      exact ⟨Sound.index_lt hx, b, hg.bodies x b hx⟩
    · obtain ⟨hlt, b, hb⟩ := h.found x array ha
      exact ⟨hlt, b, hg.bodies x b hb⟩
  · intro id b hb hn
    rcases bodyAt?_add_cases hb with ⟨rfl, -⟩ | ⟨-, hb⟩
    · cases element with
      | primitive type => exact Or.inr hm.namedAfterPrimitive
      | ofClass x => exact Or.inl ⟨x, hm.arrayAt?_element⟩
    · exact (h.element id b hb hn).imp (fun ⟨x, hx⟩ => ⟨x, hg.arrayAt? hx⟩) fun hp => hp.grow hg

theorem neat_arrayMoves (hm : Relation.ReflTransGen (ArrayMove interfaces) t t') (hs : t.Sound)
    (h : t.Neat) : t'.Neat := by
  induction hm with
  | refl => exact h
  | tail hmoves hmove ih =>
      obtain ⟨element, hmove⟩ := hmove
      cases hmove with
      | array _ _ plan chain secondary hmakes => exact hmakes.neat (hs.arrayMoves hmoves) ih

end

/-! ### Operations -/

/-- An operation names no class like an array, and removes no class that has an array. -/
def Op.Tidy (t : ClassTable) : Op → Prop
  | .define d => isArrayName d.name = false
  | .declare _ name => isArrayName name = false
  | .unload id => t.arrayAt? id = none
  | _ => True

/-- **Every tidy operation keeps a table neat.** -/
theorem Ran.neat {op : Op} {reply : Except TableRefusal Reply} (hr : Ran t op reply t')
    (htidy : op.Tidy t) (hs : t.Sound) (h : t.Neat) : t'.Neat := by
  cases hr with
  | refused => exact h
  | @newLoader parent _ hm =>
      cases hm with
      | newLoader _ _ => exact h.grow (h.sameArrays_loader (t.loaders.add parent))
  | define hm =>
      cases hm with
      | define d body sb _ hfree hl =>
          refine h.grow (h.sameArrays_add hs hfree htidy ?_)
          rintro b ⟨⟩
          exact hl.notArray
  | declare hm =>
      cases hm with
      | declare loader name _ hfree => exact h.grow (h.sameArrays_add hs hfree htidy (by rintro _ ⟨⟩))
  | complete hm =>
      cases hm with
      | complete id d entry body sb he hnone hl =>
          exact h.grow (h.sameArrays_complete he hnone hl.notArray)
  | unload hm =>
      cases hm with
      | unload id entry he _ => exact h.without hs he htidy
  | array hm _ => exact neat_arrayMoves hm hs h
  | arrayRefused _ hm => exact neat_arrayMoves hm hs h

theorem neat_create {rootName : String} (capacity : Display.Capacity)
    (hroot : isArrayName rootName = false) : (create rootName capacity).Neat where
  named := by
    intro id entry he hn
    rw [objectAt_create] at he
    split at he
    · obtain rfl := Option.some.inj he
      rw [show (rootObject rootName capacity).name = rootName from rfl, hroot] at hn
      cases hn
    · cases he
  found := by
    intro x array ha
    rw [arrayAt?_create] at ha
    cases ha
  element := by
    intro id b hb hn
    rw [(bodyAt?_create hb).2.1] at hn
    cases hn

end ClassTable

end RuntimeTypes
