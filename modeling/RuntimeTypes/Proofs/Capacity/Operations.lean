/-
Operations on tables that differ in the number of display slots.

An operation on one of two alike tables ends as it does on the other, in the same reply
or the same refusal, and leaves them alike.  What both work out on the way is related
step by step: `SameEnd` relates two computations that may be refused, and `Agree` two
that build arrays, and each of them goes through a bind.
-/
import RuntimeTypes.Proofs.Capacity.Alike

namespace RuntimeTypes

namespace ClassTable

/-! ### Ends that are the same -/

/-- Both are refused for the same reason, or both yield values that are related. -/
inductive SameEnd {ε α β : Type} (R : α → β → Prop) : Except ε α → Except ε β → Prop
  | ok {a : α} {b : β} : R a b → SameEnd R (.ok a) (.ok b)
  | error (e : ε) : SameEnd R (.error e) (.error e)

namespace SameEnd

variable {ε α β γ δ : Type} {R : α → β → Prop} {S : γ → δ → Prop} {x : Except ε α} {y : Except ε β}

theorem bind (h : SameEnd R x y) {f : α → Except ε γ} {g : β → Except ε δ}
    (hk : ∀ a b, R a b → SameEnd S (f a) (g b)) : SameEnd S (x >>= f) (y >>= g) := by
  cases h with
  | ok hR => exact hk _ _ hR
  | error e => exact .error e

theorem values (h : SameEnd R x y) : SameEnd (fun a b => R a b ∧ x = .ok a ∧ y = .ok b) x y := by
  cases h with
  | ok hR => exact .ok ⟨hR, rfl, rfl⟩
  | error e => exact .error e

theorem of_eq {x y : Except ε α} (h : x = y) : SameEnd (· = ·) x y := by
  subst h
  cases x with
  | ok a => exact .ok rfl
  | error e => exact .error e

end SameEnd

/-- Two results of building arrays: the same end, and tables that are alike. -/
inductive SameResult {α β : Type} (R : α → β → Prop) :
    EStateM.Result TableRefusal ClassTable α → EStateM.Result TableRefusal ClassTable β → Prop
  | ok {a : α} {b : β} {t t' : ClassTable} : R a b → t.Alike t' → SameResult R (.ok a t) (.ok b t')
  | error (e : TableRefusal) {t t' : ClassTable} : t.Alike t' →
      SameResult R (.error e t) (.error e t')

/-- On alike tables the two come to the same. -/
def Agree {α β : Type} (R : α → β → Prop) (m : Building α) (m' : Building β) : Prop :=
  ∀ t t', Alike t t' → SameResult R (m t) (m' t')

namespace Agree

variable {α β γ δ : Type} {R : α → β → Prop} {S : γ → δ → Prop} {m : Building α} {m' : Building β}

theorem pure {a : α} {b : β} (h : R a b) : Agree R (Pure.pure a) (Pure.pure b) :=
  fun _ _ ht => .ok h ht

theorem throw (e : TableRefusal) : Agree R (throw e : Building α) (throw e : Building β) :=
  fun _ _ ht => .error e ht

theorem bind (h : Agree R m m') {k : α → Building γ} {k' : β → Building δ}
    (hk : ∀ a b, R a b → Agree S (k a) (k' b)) : Agree S (m >>= k) (m' >>= k') := by
  intro t t' ht
  have hrun := h t t' ht
  simp only [Bind.bind, EStateM.bind]
  revert hrun
  cases m t <;> cases m' t' <;> intro hrun <;> cases hrun
  · rename_i hR ht'
    exact hk _ _ hR _ _ ht'
  · rename_i ht'
    exact .error _ ht'

theorem get : Agree Alike get get := fun _ _ ht => .ok ht ht

theorem set {t t' : ClassTable} (h : t.Alike t') : Agree (fun _ _ => True) (set t) (set t') :=
  fun _ _ _ => .ok trivial h

theorem lift {x : Except TableRefusal α} {y : Except TableRefusal β} (h : SameEnd R x y) :
    Agree R (Building.lift x) (Building.lift y) := by
  cases h with
  | ok hR => exact .pure hR
  | error e => exact .throw e

/-- A step taken for each element of a list. -/
theorem foldlM {ι : Type} {step : α → ι → Building α} {step' : β → ι → Building β}
    (hstep : ∀ a b i, R a b → Agree R (step a i) (step' b i)) (is : List ι) {a : α} {b : β}
    (h : R a b) : Agree R (is.foldlM step a) (is.foldlM step' b) := by
  induction is generalizing a b with
  | nil => exact .pure h
  | cons i rest ih =>
      rw [List.foldlM_cons, List.foldlM_cons]
      exact (hstep a b i h).bind fun _ _ => ih

end Agree

/-! ### Loading -/

variable {t t' : ClassTable}

namespace Alike

theorem loaded (h : t.Alike t') (id : Identity) :
    SameEnd (fun p p' => ClassObject.Alike p.1 p'.1 ∧ ClassBody.Alike p.2 p'.2)
      (t.loaded id) (t'.loaded id) := by
  have hentry := h.entries id
  unfold ClassTable.loaded
  revert hentry
  cases t.objectAt id <;> cases t'.objectAt id <;> intro hentry <;> cases hentry
  · exact .error _
  · rename_i e e' he
    have hbody := he.body
    simp only
    revert hbody
    cases e.body? <;> cases e'.body? <;> intro hbody <;> cases hbody
    · rw [he.name]
      exact .error _
    · rename_i hb
      exact .ok ⟨he, hb⟩

/-- Both add the same interfaces to their lists, whatever is said of lists that get the same
additions. -/
theorem addInterfaces (h : t.Alike t') {R : List Identity → List Identity → Prop}
    (hR : ∀ ids ids' more, R ids ids' → R (appendNew ids more) (appendNew ids' more))
    (interfaces : List Identity) {ids ids' : List Identity} (hids : R ids ids') :
    SameEnd R (t.addInterfaces ids interfaces) (t'.addInterfaces ids' interfaces) := by
  induction interfaces generalizing ids ids' with
  | nil => exact .ok hids
  | cons i rest ih =>
      unfold ClassTable.addInterfaces
      rw [List.foldlM_cons, List.foldlM_cons]
      refine SameEnd.bind (R := R) ?_ fun _ _ => ih
      unfold addInterface
      refine (h.loaded i).bind ?_
      rintro ⟨e, b⟩ ⟨e', b'⟩ ⟨he, hb⟩
      simp only
      rw [← hb.shape, he.name]
      split
      · rename_i hshape
        rw [hb.interface hshape]
        exact .ok (hR _ _ _ hids)
      · exact .error _

theorem requireExtensible {e e' : ClassObject} {b b' : ClassBody} (he : e.Alike e')
    (hb : b.Alike b') : ClassTable.requireExtensible e b = ClassTable.requireExtensible e' b' := by
  unfold ClassTable.requireExtensible
  rw [hb.shape, hb.flags, he.name]

/-- Records at the same place below lists that are alike. -/
theorem place {shape : ClassShape} {flags : ClassAccess} {layout : Layout}
    (capacity capacity' : Display.Capacity) (may may' : Bool) {chain ids ids' : List Identity}
    (hids : SameBeside chain ids ids') (hshape : shape = .interface → ids = ids') :
    ClassBody.Alike
      { shape := shape, flags := flags, layout := layout, ancestry := .place capacity may chain ids }
      { shape := shape, flags := flags, layout := layout
        ancestry := .place capacity' may' chain ids' } :=
  ⟨rfl, rfl, rfl, rfl, hids, hshape⟩

end Alike

theorem Sound.supers_root (hs : t.Sound) {b : ClassBody} (hb : t.bodyAt? root = some b) :
    b.ancestry.chain = [] ∧ b.ancestry.secondary = [] := by
  obtain ⟨b', hb', -, hnone⟩ := hs.rootLoaded
  obtain rfl := Option.some.inj (hb.symm.trans hb')
  exact List.append_eq_nil_iff.mp hnone

namespace Alike

/-- What a class inherits besides its chain: the superclasses without a slot, and what is listed for
the superclass. -/
theorem inherited {capacity capacity' : Display.Capacity} {b b' : ClassBody} (hb : b.Alike b')
    (superclass : Identity) :
    SameBeside (b.ancestry.chain ++ [superclass])
      (appendNew (appendNew [] ((b.ancestry.chain ++ [superclass]).drop capacity.slots))
        b.ancestry.secondary)
      (appendNew (appendNew [] ((b'.ancestry.chain ++ [superclass]).drop capacity'.slots))
        b'.ancestry.secondary) := by
  have hspilled : SameBeside (b.ancestry.chain ++ [superclass])
      ((b.ancestry.chain ++ [superclass]).drop capacity.slots)
      ((b'.ancestry.chain ++ [superclass]).drop capacity'.slots) := by
    rw [← hb.chain]
    exact .of_chain (fun _ => List.mem_of_mem_drop) fun _ => List.mem_of_mem_drop
  exact ((SameBeside.refl _ []).appendNew hspilled).appendNew (hb.beside.mono superclass)

/-- A class directly below the root inherits nothing. -/
theorem inherited_root {capacity : Display.Capacity} {b : ClassBody} (hchain : b.ancestry.chain = [])
    (hsecondary : b.ancestry.secondary = []) (superclass : Identity) :
    appendNew (appendNew [] ((b.ancestry.chain ++ [superclass]).drop capacity.slots))
      b.ancestry.secondary = [] := by
  rw [hchain, hsecondary, List.nil_append, List.drop_eq_nil_of_le capacity.pos]
  rfl

/-- An interface inherits nothing, so its list is the same however many slots there are. -/
theorem inherited_interface (hs : t.Sound) (hs' : t'.Sound) {d : ClassFile} {b b' : ClassBody}
    (hb : t.bodyAt? (superclassOf d) = some b) (hb' : t'.bodyAt? (superclassOf d) = some b')
    (hd : d.isInterface = true) :
    appendNew (appendNew [] ((b.ancestry.chain ++ [superclassOf d]).drop t.capacity.slots))
        b.ancestry.secondary
      = appendNew (appendNew [] ((b'.ancestry.chain ++ [superclassOf d]).drop t'.capacity.slots))
        b'.ancestry.secondary := by
  have hroot : superclassOf d = root := by
    unfold superclassOf
    rw [if_pos hd]
  rw [hroot] at hb hb' ⊢
  obtain ⟨hchain, hsecondary⟩ := hs.supers_root hb
  obtain ⟨hchain', hsecondary'⟩ := hs'.supers_root hb'
  rw [inherited_root hchain hsecondary, inherited_root hchain' hsecondary']

theorem bodyOf (h : t.Alike t') (hs : t.Sound) (hs' : t'.Sound) (d : ClassFile) :
    SameEnd ClassBody.Alike (t.bodyOf d) (t'.bodyOf d) := by
  unfold ClassTable.bodyOf
  refine (h.loaded (superclassOf d)).values.bind ?_
  rintro ⟨e, b⟩ ⟨e', b'⟩ ⟨⟨he, hb⟩, hl, hl'⟩
  refine SameEnd.bind (R := (· = ·)) (.of_eq (requireExtensible he hb)) fun _ _ _ => ?_
  refine SameEnd.bind (h.addInterfaces (R := fun ids ids' =>
    SameBeside (b.ancestry.chain ++ [superclassOf d]) ids ids' ∧
      (d.isInterface = true → ids = ids')) ?_ d.interfaces ⟨inherited hb _, ?_⟩) ?_
  · rintro ids ids' more ⟨hids, heq⟩
    exact ⟨hids.appendNew (.refl _ more), fun hd => by rw [heq hd]⟩
  · exact inherited_interface hs hs' (bodyAt?_of_loaded hl) (bodyAt?_of_loaded hl')
  · rintro ids ids' ⟨hids, heq⟩
    rw [← hb.chain]
    refine .ok (place _ _ _ _ hids fun hshape => heq ?_)
    split at hshape
    · assumption
    · cases hshape

end Alike

end ClassTable

/-! ### Arrays -/

/-- Two plans are the same, but for whether the array may own a slot. -/
structure ArrayPlan.Alike (plan plan' : ArrayPlan) : Prop where
  name : plan.name = plan'.name
  loader : plan.loader = plan'.loader
  element : plan.element = plan'.element
  access : plan.access = plan'.access
  lineage : plan.lineage? = plan'.lineage?

namespace ClassTable

variable {t t' : ClassTable}

namespace Alike

theorem lineageOf {b b' : ClassBody} (hb : b.Alike b') :
    ClassTable.lineageOf b.ancestry = ClassTable.lineageOf b'.ancestry := by
  have hbeside := hb.beside
  unfold SameBeside at hbeside
  unfold ClassTable.lineageOf
  rw [hbeside, hb.chain]

theorem arrayPlan (h : t.Alike t') (element : ElementType) :
    SameEnd ArrayPlan.Alike (t.arrayPlan element) (t'.arrayPlan element) := by
  cases element with
  | primitive type =>
      simp only [ClassTable.arrayPlan]
      split
      · exact .error _
      · exact .ok ⟨rfl, rfl, rfl, rfl, rfl⟩
  | ofClass id =>
      refine (h.loaded id).bind ?_
      rintro ⟨e, b⟩ ⟨e', b'⟩ ⟨(he : e.Alike e'), (hb : b.Alike b')⟩
      refine .ok ⟨?_, he.loader, rfl, ?_, ?_⟩
      · simp only [he.name]
      · simp only [hb.flags]
      · simp only [lineageOf hb]

theorem elementName (h : t.Alike t') (element : ElementType) :
    t.elementName element = t'.elementName element := by
  cases element with
  | primitive type => rfl
  | ofClass id =>
      have hentry := h.entries id
      simp only [ClassTable.elementName]
      revert hentry
      cases t.objectAt id <;> cases t'.objectAt id <;> intro hentry <;> cases hentry
      · rfl
      · rename_i he
        simp [he.name]

end Alike

section

variable {request request' : ElementType → Building Identity}

theorem agree_supertypeArrays (hr : ∀ element, Agree (· = ·) (request element) (request' element))
    (lineage? : Option (Identity × List Identity)) :
    Agree (fun out out' => out.1 = out'.1 ∧ SameBeside out.1 out.2 out'.2)
      (supertypeArrays request lineage?) (supertypeArrays request' lineage?) := by
  cases lineage? with
  | none => exact .pure ⟨rfl, .refl _ _⟩
  | some lineage =>
      obtain ⟨superElement, others⟩ := lineage
      refine (hr (.ofClass superElement)).bind ?_
      rintro superArray _ rfl
      refine Agree.get.bind fun t t' ht => ?_
      refine (Agree.lift (ht.loaded superArray)).bind ?_
      rintro ⟨e, b⟩ ⟨e', b'⟩ ⟨-, (hb : b.Alike b')⟩
      refine (Agree.foldlM (R := SameBeside (b.ancestry.chain ++ [superArray])) ?_ others
        (hb.beside.mono superArray)).bind ?_
      · intro ids ids' other hids
        refine (hr (.ofClass other)).bind ?_
        rintro array _ rfl
        exact .pure (hids.appendNew (.refl _ _))
      · intro ids ids' hids
        exact .pure ⟨by simp only [hb.chain], hids⟩

/-- An array is made in both tables or in neither. -/
theorem agree_makeArray (interfaces : List Identity)
    (hr : ∀ element, Agree (· = ·) (request element) (request' element)) (element : ElementType) :
    Agree (· = ·) (makeArray interfaces request element) (makeArray interfaces request' element) := by
  refine Agree.get.bind fun t t' ht => ?_
  refine (Agree.lift (ht.arrayPlan element)).bind fun plan plan' hplan => ?_
  refine Agree.get.bind fun t t' ht => ?_
  rw [← ht.names, ← hplan.loader, ← hplan.name]
  split
  · exact .pure rfl
  · rw [← hplan.lineage]
    refine (agree_supertypeArrays hr plan.lineage?).bind ?_
    rintro ⟨chain, inherited⟩ ⟨_, inherited'⟩ ⟨rfl, hids⟩
    refine Agree.get.bind fun t t' ht => ?_
    refine (Agree.lift (ht.addInterfaces (R := SameBeside chain)
      (fun _ _ more h => h.appendNew (.refl _ more)) interfaces hids)).bind fun supers supers' h => ?_
    have hsecondary : SameBeside chain (appendNew supers (chain.drop t.capacity.slots))
        (appendNew supers' (chain.drop t'.capacity.slots)) :=
      h.appendNew (.of_chain (fun _ => List.mem_of_mem_drop) fun _ => List.mem_of_mem_drop)
    have hbody : (t.arrayBody plan chain (appendNew supers (chain.drop t.capacity.slots))).Alike
        (t'.arrayBody plan' chain (appendNew supers' (chain.drop t'.capacity.slots))) := by
      unfold arrayBody
      rw [← hplan.element, ← hplan.access]
      exact Alike.place _ _ _ _ hsecondary nofun
    refine Agree.bind (R := fun _ _ => True) (Agree.set (ht.add ?_)) fun _ _ _ => ?_
    · exact ⟨rfl, rfl, .some hbody⟩
    · rw [ht.freshId]
      exact .pure rfl

theorem agree_arrayWithin (interfaces : List Identity) (depth : Nat) (element : ElementType) :
    Agree (· = ·) (arrayWithin interfaces depth element) (arrayWithin interfaces depth element) := by
  induction depth generalizing element with
  | zero =>
      refine agree_makeArray interfaces (fun element => ?_) element
      refine Agree.get.bind fun t t' ht => ?_
      rw [ht.elementName element]
      exact .throw _
  | succ depth ih => exact agree_makeArray interfaces ih element

theorem agree_arrayOf (element : ElementType) (interfaces : List Identity) :
    Agree (· = ·) (arrayOf element interfaces) (arrayOf element interfaces) := by
  refine Agree.get.bind fun t t' ht => ?_
  rw [ht.size]
  exact agree_arrayWithin interfaces _ element

end

/-! ### Operations -/

namespace Alike

theorem requireLoader (h : t.Alike t') (loader : Loader) :
    t.requireLoader loader = t'.requireLoader loader := by
  unfold ClassTable.requireLoader
  rw [h.loaders]

theorem requireUnused (h : t.Alike t') (loader : Loader) (name : String) :
    t.requireUnused loader name = t'.requireUnused loader name := by
  unfold ClassTable.requireUnused
  rw [h.names]

theorem define (h : t.Alike t') (hs : t.Sound) (hs' : t'.Sound) (d : ClassFile) :
    SameEnd (fun p p' => p.1 = p'.1 ∧ p.2.Alike p'.2) (t.define d) (t'.define d) := by
  unfold ClassTable.define
  refine SameEnd.bind (R := (· = ·)) (.of_eq (h.requireLoader d.loader)) fun _ _ _ => ?_
  refine SameEnd.bind (R := (· = ·)) (.of_eq (h.requireUnused d.loader d.name)) fun _ _ _ => ?_
  refine (h.bodyOf hs hs' d).bind fun b b' hb => ?_
  exact .ok ⟨h.freshId, h.add ⟨rfl, rfl, .some hb⟩⟩

theorem declare (h : t.Alike t') (loader : Loader) (name : String) :
    SameEnd (fun p p' => p.1 = p'.1 ∧ p.2.Alike p'.2) (t.declare loader name)
      (t'.declare loader name) := by
  unfold ClassTable.declare
  refine SameEnd.bind (R := (· = ·)) (.of_eq (h.requireLoader loader)) fun _ _ _ => ?_
  refine SameEnd.bind (R := (· = ·)) (.of_eq (h.requireUnused loader name)) fun _ _ _ => ?_
  exact .ok ⟨h.freshId, h.add ⟨rfl, rfl, .none⟩⟩

theorem complete (h : t.Alike t') (hs : t.Sound) (hs' : t'.Sound) (id : Identity) (d : ClassFile) :
    SameEnd Alike (t.complete id d) (t'.complete id d) := by
  have hentry := h.entries id
  unfold ClassTable.complete
  cases he : t.objectAt id <;> cases he' : t'.objectAt id <;> rw [he, he'] at hentry <;> cases hentry
  · exact .error _
  · rename_i e e' hentry
    have hbody := hentry.body
    simp only
    revert hbody
    cases e.body? <;> cases e'.body? <;> intro hbody <;> cases hbody
    · simp only
      rw [← hentry.name, ← hentry.loader]
      refine (h.bodyOf hs hs' _).bind fun b b' hb => ?_
      exact .ok (h.put (index_lt_of_objectAt he) (.some ⟨rfl, rfl, .some hb⟩))
    · simp only [hentry.name]
      exact .error _

theorem remove (h : t.Alike t') (id : Identity) : SameEnd Alike (t.remove id) (t'.remove id) := by
  have hentry := h.entries id
  unfold ClassTable.remove
  cases he : t.objectAt id <;> cases he' : t'.objectAt id <;> rw [he, he'] at hentry <;> cases hentry
  · exact .error _
  · rename_i e e' hentry
    simp only
    split
    · rw [hentry.name]
      exact .error _
    · exact .ok (h.without (index_lt_of_objectAt he) hentry)

theorem addLoader (h : t.Alike t') (parent : Loader) :
    SameEnd (fun p p' => p.1 = p'.1 ∧ p.2.Alike p'.2) (t.addLoader parent) (t'.addLoader parent) := by
  unfold ClassTable.addLoader
  rw [← h.loaders]
  split
  · exact .ok ⟨rfl, h.names, by simp only [h.loaders], h.size, h.entries⟩
  · exact .error _

theorem settle {α : Type} (h : t.Alike t') (reply : α → Reply)
    {x x' : Except TableRefusal (α × ClassTable)}
    (hx : SameEnd (fun p p' => p.1 = p'.1 ∧ p.2.Alike p'.2) x x') :
    (t.settle reply x).1 = (t'.settle reply x').1 ∧
      (t.settle reply x).2.Alike (t'.settle reply x').2 := by
  cases hx with
  | ok hp => exact ⟨by simp only [ClassTable.settle, hp.1], hp.2⟩
  | error e => exact ⟨rfl, h⟩

theorem settleChange (h : t.Alike t') {x x' : Except TableRefusal ClassTable}
    (hx : SameEnd Alike x x') :
    (t.settleChange x).1 = (t'.settleChange x').1 ∧
      (t.settleChange x).2.Alike (t'.settleChange x').2 := by
  cases hx with
  | ok ht => exact ⟨rfl, ht⟩
  | error e => exact ⟨rfl, h⟩

/-- **An operation does the same on alike tables**: it has the same reply, and they stay alike. -/
theorem run (h : t.Alike t') (hs : t.Sound) (hs' : t'.Sound) (op : Op) :
    (op.run t).1 = (op.run t').1 ∧ (op.run t).2.Alike (op.run t').2 := by
  cases op with
  | newLoader parent => exact h.settle _ (h.addLoader parent)
  | define d => exact h.settle _ (h.define hs hs' d)
  | declare loader name => exact h.settle _ (h.declare loader name)
  | complete id d => exact h.settleChange (h.complete hs hs' id d)
  | arrayOf element interfaces =>
      have hrun := agree_arrayOf element interfaces t t' h
      simp only [Op.run]
      revert hrun
      cases arrayOf element interfaces t <;> cases arrayOf element interfaces t' <;>
        intro hrun <;> cases hrun
      · rename_i heq ht
        exact ⟨by simp only [heq], ht⟩
      · rename_i ht
        exact ⟨rfl, ht⟩
  | unload id => exact h.settleChange (h.remove id)

end Alike

end ClassTable

end RuntimeTypes
