/-
Every record of a table is one that passes verification.

Two things are shown of the records in every history, unloading included.  They are placed,
and an array comes after all the types that its record names (`Proper`): that is read off the
moves.  And no type is listed twice among the secondary supertypes.  The moves do not say
so of a class, as they leave the order of the list open, so this goes through the operations
once more (`Op.run_everywhere`); all that matters there is that the lists only grow by
`appendNew`.
-/
import RuntimeTypes.Proofs.Table.Operations

namespace RuntimeTypes

namespace ClassTable

/-- Something holds of every body of the table. -/
def Everywhere (t : ClassTable) (P : Identity → ClassBody → Prop) : Prop :=
  ∀ id b, t.bodyAt? id = some b → P id b

variable {t t' : ClassTable} {P : Identity → ClassBody → Prop}

namespace Everywhere

theorem add (h : t.Everywhere P) {entry : ClassObject}
    (hnew : ∀ b, entry.body? = some b → P t.freshId b) : (t.add entry).Everywhere P := by
  intro id b hb
  rw [bodyAt?_add] at hb
  split at hb
  · rename_i hid
    exact hid ▸ hnew b hb
  · exact h id b hb

theorem complete (h : t.Everywhere P) {id : Identity} {entry : ClassObject} {body : ClassBody}
    (he : t.objectAt id = some entry) (hbody : P id body) :
    (t.put id (some { entry with body? := some body })).Everywhere P := by
  intro other b hb
  rw [bodyAt?_put (index_lt_of_objectAt he)] at hb
  split at hb
  · rename_i hid
    obtain rfl : body = b := by simpa using hb
    exact hid ▸ hbody
  · exact h other b hb

theorem without (h : t.Everywhere P) {id : Identity} {entry : ClassObject}
    (he : t.objectAt id = some entry) : (t.without id entry).Everywhere P :=
  fun other b hb => h other b (bodyAt?_of_without he hb)

end Everywhere

/-- Something holds everywhere after an operation if it holds of what loading works out and of each
array that is made. -/
theorem Op.run_everywhere (hs : t.Sound) (h : t.Everywhere P) (op : Op)
    (hloaded : ∀ id d body, t.bodyOf d = .ok body → P id body)
    (hmade : ∀ {t' : ClassTable} {element interfaces plan chain secondary},
      t'.Makes element interfaces plan chain secondary → t'.Everywhere P →
        P t'.freshId (t'.arrayBody plan chain secondary)) :
    (op.run t).2.Everywhere P := by
  have harrays {interfaces : List Identity} {t' : ClassTable}
      (hm : Relation.ReflTransGen (ArrayMove interfaces) t t') : t'.Everywhere P := by
    induction hm with
    | refl => exact h
    | tail _ hm ih =>
        obtain ⟨element, hm⟩ := hm
        cases hm with
        | array _ _ plan chain secondary hmk =>
            refine ih.add fun b hb => ?_
            obtain rfl := Option.some.inj hb
            exact hmade hmk ih
  cases op with
  | newLoader parent =>
      simp only [Op.run]
      cases hr : t.addLoader parent with
      | error e => exact h
      | ok made =>
          have hm := (addLoader_eq_ok hr).2
          cases made
          cases hm
          exact h
  | define d =>
      simp only [Op.run]
      cases hr : t.define d with
      | error e => exact h
      | ok made =>
          obtain ⟨-, -, -, body, hb, hadd⟩ := define_cases hr
          refine hadd ▸ h.add fun b hb' => ?_
          obtain rfl := Option.some.inj hb'
          exact hloaded _ d body hb
  | declare loader name =>
      simp only [Op.run]
      cases hr : t.declare loader name with
      | error e => exact h
      | ok made =>
          have hm := (declare_eq_ok hr).2
          cases made
          cases hm
          exact h.add (by rintro _ ⟨⟩)
  | complete id d =>
      simp only [Op.run]
      cases hr : t.complete id d with
      | error e => exact h
      | ok t' =>
          obtain ⟨entry, body, he, -, hb, rfl⟩ := complete_cases hr
          exact h.complete he (hloaded id _ body hb)
  | arrayOf element interfaces =>
      have hran := run_ran hs (.arrayOf element interfaces)
      generalize (Op.run t (.arrayOf element interfaces)).2 = t' at hran
      generalize (Op.run t (.arrayOf element interfaces)).1 = reply at hran
      cases hran with
      | refused => exact h
      | array hm => exact harrays hm
      | arrayRefused _ hm => exact harrays hm
  | unload id =>
      simp only [Op.run]
      cases hr : t.remove id with
      | error e => exact h
      | ok t' =>
          have hm := remove_eq_ok hr
          cases hm with
          | unload _ entry he _ => exact h.without he

/-! ### Records that are placed -/

/-- The record of a class has been placed, and that of an array names older types only. -/
structure Proper (capacity : Display.Capacity) (id : Identity) (b : ClassBody) : Prop where
  placed : ∃ may, b.ancestry = .place capacity may b.ancestry.chain b.ancestry.secondary
  older : b.shape.isArray = true → ∀ s ∈ b.ancestry.supers, s.index < id.index

theorem proper_of_loads {A : Archive} {capacity : Display.Capacity} {d : ClassFile}
    {body superBody : ClassBody} (h : A.Loads capacity d body superBody) (id : Identity) :
    Proper capacity id body where
  placed := ⟨_, h.placed⟩
  older := by simp [h.notArray]

theorem Move.proper {op : Op} (hm : Move t op t') (hs : t.Sound)
    (h : t.Everywhere (Proper t.capacity)) : t'.Everywhere (Proper t'.capacity) := by
  cases hm with
  | newLoader parent _ => exact h
  | define d body superBody _ _ hl =>
      refine h.add fun b hb => ?_
      obtain rfl := Option.some.inj hb
      exact proper_of_loads hl _
  | declare loader name _ _ => exact h.add (by rintro _ ⟨⟩)
  | complete id d entry body superBody he _ hl => exact h.complete he (proper_of_loads hl id)
  | array element interfaces plan chain secondary hmk =>
      refine h.add fun b hb => ?_
      obtain rfl := Option.some.inj hb
      exact ⟨⟨_, rfl⟩, fun _ => (hmk.fits hs).known⟩
  | unload id entry he _ => exact h.without he

/-- **Every operation keeps the records proper.** -/
theorem Ran.proper {op : Op} {reply : Except TableRefusal Reply} (hr : Ran t op reply t')
    (hs : t.Sound) (h : t.Everywhere (Proper t.capacity)) : t'.Everywhere (Proper t'.capacity) := by
  have hkept : t'.Sound ∧ t'.Everywhere (Proper t'.capacity) :=
    hr.keeps (P := fun t => t.Sound ∧ t.Everywhere (Proper t.capacity))
      (fun hm h => ⟨hm.sound h.1, hm.proper h.1 h.2⟩) ⟨hs, h⟩
  exact hkept.2

theorem proper_create (rootName : String) (capacity : Display.Capacity) :
    (create rootName capacity).Everywhere (Proper capacity) := by
  intro id b hb
  obtain ⟨-, hshape, hplaced⟩ := bodyAt?_create hb
  refine ⟨⟨true, ?_⟩, by simp [hshape]⟩
  rw [hplaced]
  rfl

/-! ### Lists without repeats -/

/-- No type is listed twice among the secondary supertypes of a class. -/
def Unrepeated (t : ClassTable) : Prop :=
  t.Everywhere fun _ b => b.ancestry.secondary.Nodup

theorem nodup_addInterfaces {interfaces : List Identity} :
    ∀ {supers out : List Identity}, t.addInterfaces supers interfaces = .ok out →
      supers.Nodup → out.Nodup := by
  induction interfaces with
  | nil =>
      intro supers out h hsupers
      obtain rfl : supers = out := by simpa [addInterfaces, pure, Except.pure] using h
      exact hsupers
  | cons i rest ih =>
      intro supers out h hsupers
      unfold addInterfaces at h
      rw [List.foldlM_cons] at h
      cases hi : t.addInterface supers i with
      | error e => simp [hi, bind, Except.bind] at h
      | ok next =>
          simp only [hi, bind, Except.bind] at h
          obtain ⟨body, -, -, rfl⟩ := addInterface_eq_ok hi
          exact ih h (nodup_appendNew _ hsupers)

/-- Whatever the superclass lists, loading lists it once. -/
theorem nodup_bodyOf {d : ClassFile} {body : ClassBody} (h : t.bodyOf d = .ok body) :
    body.ancestry.secondary.Nodup := by
  obtain ⟨superBody, chain, secondary, -, -, -, hsec, rfl⟩ := bodyOf_cases h
  exact nodup_addInterfaces hsec (nodup_appendNew _ (nodup_appendNew _ List.nodup_nil))

/-- An array lists once what its superarray lists once. -/
theorem Makes.nodup {element : ElementType} {interfaces chain secondary : List Identity}
    {plan : ArrayPlan} (hm : t.Makes element interfaces plan chain secondary) (h : t.Unrepeated) :
    secondary.Nodup := by
  obtain ⟨inherited, supers, hinherits, hsupers, rfl⟩ := hm.ancestry
  refine nodup_appendNew _ (nodup_addInterfaces hsupers ?_)
  generalize plan.lineage? = lineage? at hinherits
  cases hinherits with
  | root => exact List.nodup_nil
  | super _ hb _ => exact nodup_appendNew _ (h _ _ hb)

/-- **Every operation keeps the lists without repeats.** -/
theorem Op.run_unrepeated (hs : t.Sound) (h : t.Unrepeated) (op : Op) :
    (op.run t).2.Unrepeated :=
  op.run_everywhere hs h (fun _ _ _ hb => nodup_bodyOf hb) fun hm h' => hm.nodup h'

theorem unrepeated_create (rootName : String) (capacity : Display.Capacity) :
    (create rootName capacity).Unrepeated := by
  intro id b hb
  rw [(bodyAt?_create hb).2.2]
  exact List.nodup_nil

end ClassTable

end RuntimeTypes
