/-
Requests for arrays that succeed.

What a request may find amiss on its way is ruled out by `Ready`: there is no interface that is
none, no supertype that is not loaded and no class that is named like an array and not
loaded.  No array that is made changes that, and neither does a class or interface that is
loaded.  So nothing is lacking above an element, and a request for its array succeeds.
-/
import RuntimeTypes.Proofs.Arrays.Nesting

namespace RuntimeTypes

namespace ClassTable

open Relation

/-- Whatever a request for an array with these interfaces looks at is loaded. -/
structure Ready (t : ClassTable) (interfaces : List Identity) : Prop where
  sound : t.Sound
  areInterfaces : ∀ i ∈ interfaces, ∃ b, t.bodyAt? i = some b ∧ b.shape = .interface
  above : ∀ x s, t.Above x s → ∃ b, t.bodyAt? s = some b
  named : ∀ id entry, t.objectAt id = some entry → isArrayName entry.name = true →
    ∃ b, entry.body? = some b

variable {t t' : ClassTable} {interfaces : List Identity}

theorem isArrayName_of_arrayPlan {element : ElementType} {plan : ArrayPlan}
    (h : t.arrayPlan element = .ok plan) : isArrayName plan.name = true := by
  cases element with
  | primitive type =>
      rw [(arrayPlan_primitive_eq_ok h).2]
      exact isArrayName_append _
  | ofClass x =>
      obtain ⟨entry, body, -, -, rfl⟩ := arrayPlan_ofClass_eq_ok h
      exact isArrayName_append _

/-! ### Arrays keep a table ready -/

namespace Ready

/-- What is found under a name that is spelled like an array's is loaded. -/
theorem loaded_of_isArrayName (h : t.Ready interfaces) {loader : Loader} {name : String}
    {id : Identity} (hname : isArrayName name = true)
    (hk : t.names.get? (loader, name) = some id) : ∃ b, t.bodyAt? id = some b := by
  obtain ⟨entry, he, hkey⟩ := (h.sound.named _ id).mp hk
  obtain ⟨-, rfl⟩ := Prod.mk.inj hkey
  obtain ⟨b, hb⟩ := h.named id entry he hname
  exact ⟨b, bodyAt?_eq_some.mpr ⟨entry, he, hb⟩⟩

theorem loaded_of_arrayAt? (h : t.Ready interfaces) {x array : Identity}
    (ha : t.arrayAt? x = some array) : ∃ b, t.bodyAt? array = some b := by
  obtain ⟨key, hkey, hk⟩ := Option.bind_eq_some_iff.mp ha
  obtain ⟨entry, -, rfl⟩ := Option.map_eq_some_iff.mp hkey
  exact h.loaded_of_isArrayName (isArrayName_append _) hk

/-- What an array gets from its element's supertypes is loaded. -/
theorem loaded_of_inherits (h : t.Ready interfaces) {lineage? : Option (Identity × List Identity)}
    {chain inherited : List Identity} (hi : t.Inherits lineage? chain inherited) {s : Identity}
    (hs : s ∈ chain ∨ s ∈ inherited) : ∃ b, t.bodyAt? s = some b := by
  cases hi with
  | root =>
      obtain rfl : s = root := by simpa using hs
      obtain ⟨b, hb, -⟩ := h.sound.rootLoaded
      exact ⟨b, hb⟩
  | @super superElement superArray others arrays superBody ha hb hothers =>
      have habove : ∀ s ∈ superBody.ancestry.supers, ∃ b, t.bodyAt? s = some b :=
        fun s hs => h.above superArray s ⟨superBody, hb, hs⟩
      rw [List.mem_append, mem_appendNew, List.mem_singleton] at hs
      rcases hs with (hs | rfl) | hs | hs
      · exact habove s (AncestryRecord.mem_supers_of_chain hs)
      · exact ⟨superBody, hb⟩
      · exact habove s (AncestryRecord.mem_supers_of_secondary hs)
      · obtain ⟨other, -, hfound⟩ := ((mem_arraysOf hothers).2 s).mp hs
        exact h.loaded_of_arrayAt? hfound

/-- What a new array names is loaded. -/
theorem loaded_of_makes (h : t.Ready interfaces) {element : ElementType} {plan : ArrayPlan}
    {chain secondary : List Identity} (hm : t.Makes element interfaces plan chain secondary)
    {s : Identity} (hs : s ∈ (t.arrayBody plan chain secondary).ancestry.supers) :
    ∃ b, t.bodyAt? s = some b := by
  obtain ⟨inherited, hi, hmem⟩ := hm.supers
  rcases AncestryRecord.mem_supers.mp hs with hs | hs
  · exact h.loaded_of_inherits hi (Or.inl hs)
  · rcases (hmem s).mp hs with hs | ⟨i, hi', b, hb, hs⟩ | hs
    · exact h.loaded_of_inherits hi (Or.inr hs)
    · rcases hs with rfl | hs
      · exact ⟨b, hb⟩
      · exact h.above i s ⟨b, hb, AncestryRecord.mem_supers_of_secondary hs⟩
    · exact h.loaded_of_inherits hi (Or.inl (List.mem_of_mem_drop hs))

/-- A further entry that names what is loaded, and is loaded if it is named like an array. -/
theorem add (h : t.Ready interfaces) {entry : ClassObject}
    (hfree : t.names.get? (entry.loader, entry.name) = none)
    (hfits : ∀ body, entry.body? = some body → t.Fits body)
    (hsupers : ∀ body, entry.body? = some body → ∀ s ∈ body.ancestry.supers,
      ∃ b, t.bodyAt? s = some b)
    (hname : isArrayName entry.name = true → ∃ b, entry.body? = some b) :
    (t.add entry).Ready interfaces where
  sound := h.sound.add hfree hfits
  areInterfaces := Archive.areInterfaces_mono (within_add entry) h.areInterfaces
  above := by
    rintro x s ⟨body, hb, hs⟩
    have hloaded : ∃ b, t.bodyAt? s = some b := by
      rcases bodyAt?_add_cases hb with ⟨-, hb⟩ | ⟨-, hb⟩
      · exact hsupers body hb s hs
      · exact h.above x s ⟨body, hb, hs⟩
    obtain ⟨b, hb⟩ := hloaded
    exact ⟨b, within_add entry s b hb⟩
  named := by
    intro id e he hn
    rw [objectAt_add] at he
    split at he
    · obtain rfl := Option.some.inj he
      exact hname hn
    · exact h.named id e he hn

theorem arrayMove (h : t.Ready interfaces) (hm : ArrayMove interfaces t t') :
    t'.Ready interfaces := by
  obtain ⟨element, hm⟩ := hm
  cases hm with
  | array _ _ plan chain secondary hmakes =>
      refine h.add hmakes.unused ?_ ?_ fun _ => ⟨_, rfl⟩
      · intro body hb
        obtain rfl := Option.some.inj hb
        exact hmakes.fits h.sound
      · intro body hb s hs
        obtain rfl := Option.some.inj hb
        exact h.loaded_of_makes hmakes hs

theorem arrayMoves (h : t.Ready interfaces) (hm : ReflTransGen (ArrayMove interfaces) t t') :
    t'.Ready interfaces := by
  induction hm with
  | refl => exact h
  | tail _ hmove ih => exact ih.arrayMove hmove

end Ready

/-! ### Tables without arrays -/

/-- An operation that loads or announces a class or interface, named unlike an array. -/
def Op.OfClasses : Op → Prop
  | .newLoader _ => True
  | .define d => isArrayName d.name = false
  | .declare _ name => isArrayName name = false
  | .complete _ _ => True
  | .arrayOf _ _ => False
  | .unload _ => False

instance : DecidablePred Op.OfClasses
  | .newLoader _ | .complete _ _ => isTrue trivial
  | .define d => inferInstanceAs (Decidable (isArrayName d.name = false))
  | .declare _ name => inferInstanceAs (Decidable (isArrayName name = false))
  | .arrayOf _ _ | .unload _ => isFalse id

namespace Ready

/-- What loading a class gives it names what is loaded. -/
theorem loaded_of_loads (h : t.Ready interfaces) {d : ClassFile} {body superBody : ClassBody}
    (hl : Archive.Loads t.bodyAt? t.capacity d body superBody) {s : Identity}
    (hs : s ∈ body.ancestry.supers) : ∃ b, t.bodyAt? s = some b := by
  have hchain : ∀ s ∈ body.ancestry.chain, ∃ b, t.bodyAt? s = some b := by
    intro s hs
    rw [hl.chain] at hs
    rcases List.mem_append.mp hs with hs | hs
    · exact h.above _ s ⟨superBody, hl.superAt, AncestryRecord.mem_supers_of_chain hs⟩
    · obtain rfl := List.mem_singleton.mp hs
      exact ⟨superBody, hl.superAt⟩
  rcases AncestryRecord.mem_supers.mp hs with hs | hs
  · exact hchain s hs
  · rcases (hl.mem_secondary s).mp hs with hs | hs | ⟨i, -, b, hb, hs⟩
    · exact hchain s (List.mem_of_mem_drop hs)
    · exact h.above _ s ⟨superBody, hl.superAt, AncestryRecord.mem_supers_of_secondary hs⟩
    · rcases hs with rfl | hs
      · exact ⟨b, hb⟩
      · exact h.above i s ⟨b, hb, AncestryRecord.mem_supers_of_secondary hs⟩

/-- A declared entry is completed. -/
theorem complete (h : t.Ready interfaces) {id : Identity} {entry : ClassObject} {d : ClassFile}
    {body superBody : ClassBody} (he : t.objectAt id = some entry) (hnone : entry.body? = none)
    (hl : Archive.Loads t.bodyAt? t.capacity d body superBody) :
    (t.put id (some { entry with body? := some body })).Ready interfaces := by
  have hgrows : Grows t (t.put id (some { entry with body? := some body })) := .put he hnone
  refine ⟨h.sound.complete he hnone (fits_of_loads h.sound hl) hl.notArray,
    Archive.areInterfaces_mono hgrows.bodies h.areInterfaces, ?_, ?_⟩
  · rintro x s ⟨b, hb, hs⟩
    have hloaded : ∃ b, t.bodyAt? s = some b := by
      rw [bodyAt?_put (index_lt_of_objectAt he)] at hb
      split at hb
      · obtain rfl : body = b := by simpa using hb
        exact h.loaded_of_loads hl hs
      · exact h.above x s ⟨b, hb, hs⟩
    obtain ⟨sb, hsb⟩ := hloaded
    exact ⟨sb, hgrows.bodies s sb hsb⟩
  · intro other e ho hn
    rw [objectAt_put (index_lt_of_objectAt he)] at ho
    split at ho
    · obtain rfl := Option.some.inj ho
      exact ⟨body, rfl⟩
    · exact h.named other e ho hn

end Ready

/-- Classes and interfaces keep a table ready for requests. -/
theorem Ran.ready {op : Op} {reply : Except TableRefusal Reply} (hr : Ran t op reply t')
    (hop : op.OfClasses) (h : t.Ready interfaces) : t'.Ready interfaces := by
  cases hr with
  | refused => exact h
  | newLoader hm =>
      have hsound := hm.sound h.sound
      cases hm with
      | newLoader _ _ => exact ⟨hsound, h.areInterfaces, h.above, h.named⟩
  | define hm =>
      cases hm with
      | define d body superBody _ hfree hl =>
          refine h.add hfree ?_ ?_ fun hn => absurd hn (by simpa [Op.OfClasses] using hop)
          · rintro b ⟨⟩
            exact fits_of_loads h.sound hl
          · rintro b ⟨⟩ s hs
            exact h.loaded_of_loads hl hs
  | declare hm =>
      cases hm with
      | declare loader name _ hfree =>
          exact h.add hfree (by rintro _ ⟨⟩) (by rintro _ ⟨⟩)
            fun hn => absurd hn (by simpa [Op.OfClasses] using hop)
  | complete hm =>
      cases hm with
      | complete id d entry body superBody he hnone hl => exact h.complete he hnone hl
  | unload => exact hop.elim
  | array => exact hop.elim
  | arrayRefused => exact hop.elim

theorem ready_create (rootName : String) (capacity : Display.Capacity) :
    (create rootName capacity).Ready [] where
  sound := sound_create rootName capacity
  areInterfaces := nofun
  above := by
    rintro x s ⟨body, hb, hs⟩
    rw [(bodyAt?_create hb).2.2] at hs
    cases hs
  named := by
    intro id entry he _
    rw [objectAt_create] at he
    split at he
    · obtain rfl := Option.some.inj he
      exact ⟨_, rfl⟩
    · cases he

theorem Ready.after (h : t.Ready interfaces) {ops : List Op} (hops : ∀ op ∈ ops, op.OfClasses) :
    (t.after ops).Ready interfaces := by
  induction ops generalizing t with
  | nil => exact h
  | cons op rest ih =>
      have hfirst := (run_ran h.sound op).ready (hops op (by simp)) h
      exact ih hfirst fun o ho => hops o (by simp [ho])

/-- **A table without arrays is ready** for requests with any loaded interfaces. -/
theorem ready_after {rootName : String} {capacity : Display.Capacity} {ops : List Op}
    (hops : ∀ op ∈ ops, op.OfClasses)
    (hall : ∀ i ∈ interfaces, ∃ b, ((create rootName capacity).after ops).bodyAt? i = some b ∧
      b.shape = .interface) : ((create rootName capacity).after ops).Ready interfaces :=
  { (ready_create rootName capacity).after hops with areInterfaces := hall }

/-! ### Requests -/

theorem arrayPlan_of_bodyAt? {x : Identity} {b : ClassBody} (hb : t.bodyAt? x = some b) :
    ∃ plan, t.arrayPlan (.ofClass x) = .ok plan := by
  obtain ⟨entry, he, hbody⟩ := bodyAt?_eq_some.mp hb
  simp only [arrayPlan, loaded_eq_ok_iff.mpr ⟨he, hbody⟩]
  exact ⟨_, rfl⟩

theorem Ready.prepared (h : t.Ready interfaces) : t.Prepared interfaces :=
  ⟨h.sound, h.areInterfaces⟩

theorem Ready.not_lacksAbove (h : t.Ready interfaces) (x : Identity) (e : TableRefusal) :
    ¬t.LacksAbove x e := by
  rintro ⟨s, hs, missing, hmissing, he⟩
  have hloaded : ∃ b, t.bodyAt? missing = some b := by
    obtain ⟨y, -, hy⟩ := TransGen.tail'_iff.mp hs
    rcases hmissing with rfl | ha
    · exact h.above y missing hy
    · exact h.loaded_of_arrayAt? ha
  obtain ⟨b, hb⟩ := hloaded
  obtain ⟨entry, hentry, hbody⟩ := bodyAt?_eq_some.mp hb
  exact loaded_ne_error hentry hbody he

/-- **A request for an array succeeds** in a table that is ready for it, if the element can have one.
The array stands under the name that the element gives it, and the names that are new are those of
arrays that the element needs. -/
theorem arrayOf_succeeds (h : t.Ready interfaces) {element : ElementType} {plan : ArrayPlan}
    (hplan : t.arrayPlan element = .ok plan) :
    Ends (arrayOf element interfaces) t
      (fun id t' => t.Added (t.WantedNames element) interfaces t' ∧
        t'.names.get? (plan.loader, plan.name) = some id)
      (fun _ _ => False) := by
  have hmade : Ends (arrayOf element interfaces) t (fun _ _ => True) fun _ _ => False := by
    refine (arrayOf_explained h.prepared element).mono (fun _ _ _ => trivial) ?_
    rintro e t' (⟨he, -⟩ | ⟨x, -, hlacks⟩)
    · rw [hplan] at he
      cases he
    · exact h.not_lacksAbove x e hlacks
  refine ((arrayOf_added h.sound element interfaces).and hmade).mono ?_ fun _ _ h' => h'.2
  rintro id t' ⟨⟨hadd, key, ⟨plan', hplan', rfl⟩, hname⟩, -⟩
  obtain rfl := Except.ok.inj (hplan.symm.trans hplan')
  exact ⟨hadd, hname⟩

end ClassTable

end RuntimeTypes
