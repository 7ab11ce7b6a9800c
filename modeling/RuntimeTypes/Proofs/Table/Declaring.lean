/-
Declaring a class before it is loaded makes no difference.

A class is loaded at once, or it is declared and completed afterwards.  In the second
case its entry stands in the table while its body is worked out, with a shape guessed
from the name and without a body.  Nothing comes across that entry but a class file that
names the new class itself, and such a class file is refused either way.  Only the
refusal differs: the class is unknown before it has been declared, and not loaded after
that (`onceDeclared`).

So the body is the same with the entry and without it, and putting it where the entry
stands gives the table that a definition gives.
-/
import RuntimeTypes.Proofs.Table.Moves

namespace RuntimeTypes

/-- Class files that differ in the name and the loader at most. -/
structure ClassFile.SameContent (d d' : ClassFile) : Prop where
  isInterface : d'.isInterface = d.isInterface
  superclass : d'.superclass = d.superclass
  interfaces : d'.interfaces = d.interfaces
  instanceSize : d'.instanceSize = d.instanceSize
  access : d'.access = d.access

/-- A refusal as it is worded once the class `id` has been declared under this name. -/
def TableRefusal.onceDeclared (id : Identity) (name : String) (e : TableRefusal) : TableRefusal :=
  if e = .unknownClass id then .notLoaded name else e

theorem mapError_bind {ε ε' α β : Type} (x : Except ε α) (k : α → Except ε β) (f : ε → ε') :
    (x >>= k).mapError f = x.mapError f >>= fun a => (k a).mapError f := by
  cases x <;> rfl

namespace ClassTable

variable {t t' : ClassTable} {loader : Loader} {name : String} {d d' : ClassFile}

/-! ### What a class file says -/

/-- The name and the loader have no part in what loading works out. -/
theorem bodyOf_congr (h : d.SameContent d') : t.bodyOf d' = t.bodyOf d := by
  have hsuper : superclassOf d' = superclassOf d := by
    simp only [superclassOf, h.isInterface, h.superclass]
  have hlayout : layoutOf d' = layoutOf d := by
    simp only [layoutOf, h.isInterface, h.access, h.instanceSize]
  simp only [bodyOf, hsuper, hlayout, h.interfaces, h.isInterface, h.access]

/-! ### With a declared entry more -/

/-- The table with a class more that is only declared. -/
def declaring (t : ClassTable) (loader : Loader) (name : String) : ClassTable :=
  t.add { name := name, loader := loader, body? := none }

theorem loaded_declaring (id : Identity) :
    (t.declaring loader name).loaded id
      = (t.loaded id).mapError (.onceDeclared t.freshId name) := by
  unfold loaded declaring
  rw [objectAt_add]
  by_cases hid : id = t.freshId
  · subst hid
    simp [objectAt_freshId, Except.mapError, TableRefusal.onceDeclared]
  · rw [if_neg hid]
    cases t.objectAt id with
    | none => simp [Except.mapError, TableRefusal.onceDeclared, hid]
    | some entry =>
        cases hbody : entry.body? <;> simp [hbody, Except.mapError, TableRefusal.onceDeclared]

theorem addInterface_declaring (supers : List Identity) (id : Identity) :
    (t.declaring loader name).addInterface supers id
      = (t.addInterface supers id).mapError (.onceDeclared t.freshId name) := by
  unfold addInterface
  rw [mapError_bind, loaded_declaring]
  congr 1
  funext ⟨entry, body⟩
  by_cases hshape : body.shape = .interface <;>
    simp [hshape, Except.mapError, TableRefusal.onceDeclared]

theorem addInterfaces_declaring (interfaces supers : List Identity) :
    (t.declaring loader name).addInterfaces supers interfaces
      = (t.addInterfaces supers interfaces).mapError (.onceDeclared t.freshId name) := by
  unfold addInterfaces
  induction interfaces generalizing supers with
  | nil => rfl
  | cons i rest ih =>
      rw [List.foldlM_cons, List.foldlM_cons, mapError_bind, addInterface_declaring]
      congr 1
      funext next
      exact ih next

theorem requireExtensible_declaring (entry : ClassObject) (body : ClassBody) :
    (requireExtensible entry body).mapError (.onceDeclared t.freshId name)
      = requireExtensible entry body := by
  unfold requireExtensible
  cases body.shape with
  | interface => simp [Except.mapError, TableRefusal.onceDeclared]
  | array element => simp [Except.mapError, TableRefusal.onceDeclared]
  | instanceClass =>
      by_cases hfinal : Access.has body.flags.access Access.isFinal = true <;>
        simp [hfinal, Except.mapError, TableRefusal.onceDeclared]

/-- What loading works out does not change by the declaration, and a refusal is reworded. -/
theorem bodyOf_declaring (d : ClassFile) :
    (t.declaring loader name).bodyOf d
      = (t.bodyOf d).mapError (.onceDeclared t.freshId name) := by
  simp only [bodyOf, mapError_bind, loaded_declaring]
  congr 1
  funext ⟨superEntry, superBody⟩
  simp only [requireExtensible_declaring, addInterfaces_declaring]
  rfl

/-! ### The two ways -/

theorem declare_eq_declaring {made : Identity × ClassTable}
    (h : t.declare loader name = .ok made) : made = (t.freshId, t.declaring loader name) := by
  unfold declare at h
  cases hl : t.requireLoader loader with
  | error e => simp [hl, bind, Except.bind] at h
  | ok _ =>
      cases hu : t.requireUnused loader name with
      | error e => simp [hl, hu, bind, Except.bind] at h
      | ok _ =>
          simp only [hl, hu, bind, Except.bind] at h
          exact (Except.ok.inj h).symm

/-- A definition looks at the loader and the name as a declaration does, and then at the content. -/
theorem define_eq_bind (t : ClassTable) (d : ClassFile) :
    t.define d = t.declare d.loader d.name >>= fun made => t.bodyOf d >>= fun body =>
      .ok (made.1, t.add { name := d.name, loader := d.loader, body? := some body }) := by
  unfold define declare
  cases t.requireLoader d.loader with
  | error e => rfl
  | ok _ => cases t.requireUnused d.loader d.name <;> rfl

theorem put_declaring (body? : Option ClassBody) :
    (t.declaring loader name).put t.freshId
        (some { name := name, loader := loader, body? := body? })
      = t.add { name := name, loader := loader, body? := body? } := by
  have hpush : ∀ old new : Option ClassObject,
      (t.entries.push old).setIfInBounds t.entries.size new = t.entries.push new := by
    intro old new
    rw [Array.setIfInBounds, dif_pos (by simp), Array.set_push, dif_neg (Nat.lt_irrefl _)]
  simp [put, declaring, add, hpush]

/-- Completing a class that has just been declared puts its body where the entry stands. -/
theorem complete_declaring (h : d.SameContent d') :
    (t.declaring d.loader d.name).complete t.freshId d'
      = (t.bodyOf d).mapError (.onceDeclared t.freshId d.name) >>= fun body =>
        .ok (t.add { name := d.name, loader := d.loader, body? := some body }) := by
  have hentry : (t.declaring d.loader d.name).objectAt t.freshId
      = some { name := d.name, loader := d.loader, body? := none } := by
    rw [declaring, objectAt_add, if_pos rfl]
  have hcontent : d.SameContent { d' with name := d.name, loader := d.loader } :=
    ⟨h.isInterface, h.superclass, h.interfaces, h.instanceSize, h.access⟩
  unfold complete
  simp only [hentry, bodyOf_declaring, bodyOf_congr hcontent]
  congr 1
  funext body
  exact congrArg Except.ok (put_declaring (some body))

/-- **Declaring a class and completing it at once is defining it.**  The two ways succeed alike, under
one identity and with one table at the end, and what refuses a definition refuses the declaration or
the completion. -/
theorem define_iff_declared (t : ClassTable) (h : d.SameContent d') :
    (∀ id t', t.define d = .ok (id, t') ↔ ∃ declared,
      t.declare d.loader d.name = .ok (id, declared) ∧ declared.complete id d' = .ok t') ∧
    ∀ e, t.define d = .error e → t.declare d.loader d.name = .error e ∨ ∃ id declared,
      t.declare d.loader d.name = .ok (id, declared) ∧
        declared.complete id d' = .error (e.onceDeclared id d.name) := by
  rw [define_eq_bind]
  cases hdeclare : t.declare d.loader d.name with
  | error e => simp [bind, Except.bind]
  | ok made =>
      obtain rfl := declare_eq_declaring hdeclare
      have hcomplete := complete_declaring (t := t) h
      cases hbody : t.bodyOf d with
      | error e =>
          simp only [hbody, Except.mapError, bind, Except.bind] at hcomplete
          refine ⟨fun id t' => ⟨nofun, ?_⟩, ?_⟩
          · rintro ⟨declared, hmade, hdone⟩
            obtain ⟨rfl, rfl⟩ := Prod.mk.inj (Except.ok.inj hmade)
            cases hcomplete.symm.trans hdone
          · intro e' he
            obtain rfl := Except.error.inj he
            exact .inr ⟨t.freshId, _, rfl, hcomplete⟩
      | ok body =>
          simp only [hbody, Except.mapError, bind, Except.bind] at hcomplete
          refine ⟨fun id t' => ⟨fun hdefine => ?_, ?_⟩, nofun⟩
          · obtain ⟨rfl, rfl⟩ := Prod.mk.inj (Except.ok.inj hdefine)
            exact ⟨_, rfl, hcomplete⟩
          · rintro ⟨declared, hmade, hdone⟩
            obtain ⟨rfl, rfl⟩ := Prod.mk.inj (Except.ok.inj hmade)
            obtain rfl := Except.ok.inj (hcomplete.symm.trans hdone)
            rfl

/-- A table with an interface, a class and a second loader. -/
def family : ClassTable :=
  (create "Object" Display.Capacity.standard).after
    [.define (.interface "I"), .define (.ordinary "A"), .newLoader Loader.bootstrap]

/-- A class of the second loader that is named like an array. -/
def bracketed : ClassFile :=
  { name := "[B", loader := ⟨1⟩, superclass := some (Identity.ofIndex 2),
    interfaces := [Identity.ofIndex 1] }

/-- Its content under another name and a loader that does not exist. -/
def mislabelled : ClassFile := { bracketed with name := "C", loader := ⟨9⟩ }

/-- The class is declared like an array, and completed from a class file of another name. -/
theorem define_iff_declared_bracketed :
    bracketed.SameContent mislabelled ∧ ∃ t' declared,
      family.define bracketed = .ok (Identity.ofIndex 3, t') ∧
        family.declare ⟨1⟩ "[B" = .ok (Identity.ofIndex 3, declared) ∧
          declared.complete (Identity.ofIndex 3) mislabelled = .ok t' := by
  have hsame : bracketed.SameContent mislabelled := ⟨rfl, rfl, rfl, rfl, rfl⟩
  obtain ⟨t', hdefine⟩ : ∃ t', family.define bracketed = .ok (Identity.ofIndex 3, t') := ⟨_, rfl⟩
  obtain ⟨declared, hdeclare, hcomplete⟩ := ((define_iff_declared family hsame).1 _ t').mp hdefine
  exact ⟨hsame, t', declared, hdefine, hdeclare, hcomplete⟩

end ClassTable

end RuntimeTypes
