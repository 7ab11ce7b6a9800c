/-
Arrays of a table whose classes may be removed, and may have any names.

A request finds an array by its name and looks at nothing else.  So it may come upon a
class that was declared or defined under such a name, or upon the array of a class that
has been removed and defined once more.  A table is `Genuine` where that does not happen:
what is found as the array of a loaded type is an array and has come after the type.

Removing a class takes it from the table and from no record.  An array is `Following` its
element where the table can tell: what is above the element and still there has an array,
and that is above the array of the element.  Removing an array that is above another one
breaks this, as the next request for it makes a new one; `Op.Spares` rules that out.
-/
import RuntimeTypes.Proofs.Arrays.Making

namespace RuntimeTypes

namespace ClassTable

open Relation

variable {A A' : Archive} {log log' : LoadLog} {t t' : ClassTable}

/-! ### What is found as an array -/

/-- What is found as the array of a loaded type is a loaded array, and has come after the type.  So
it has been made for the type: two types of one name are not there at the same time. -/
def Genuine (t : ClassTable) : Prop :=
  ∀ x b array, t.bodyAt? x = some b → t.arrayAt? x = some array →
    x.index < array.index ∧ ∃ ab, t.bodyAt? array = some ab ∧ ab.shape.isArray = true

/-- It is enough to look at the entries. -/
theorem genuine_iff (t : ClassTable) :
    t.Genuine ↔ ∀ i < t.entries.size, ∀ b ∈ t.bodyAt? (Identity.ofIndex i),
      ∀ array ∈ t.arrayAt? (Identity.ofIndex i),
        i < array.index ∧ ∃ ab ∈ t.bodyAt? array, ab.shape.isArray = true := by
  constructor
  · intro h i _ b hb array ha
    exact h (Identity.ofIndex i) b array hb ha
  · intro h x b array hb ha
    refine h x.index (Sound.index_lt hb) b ?_ array ?_
    · rwa [Identity.ofIndex_index]
    · rwa [Identity.ofIndex_index]

instance : DecidablePred Genuine := fun t => decidable_of_iff' _ t.genuine_iff

theorem Neat.genuine (h : t.Neat) (hs : t.Sound) : t.Genuine := by
  intro x b array _ ha
  obtain ⟨hlt, -⟩ := h.found x array ha
  exact ⟨hlt, h.isArray hs ha⟩

/-- An operation removes no array that the record of a loaded type names. -/
def Op.Spares (t : ClassTable) : Op → Prop
  | .unload id => ∀ b ∈ t.bodyAt? id, b.shape.isArray = true →
      ∀ i < t.entries.size, ∀ xb ∈ t.bodyAt? (Identity.ofIndex i), id ∉ xb.ancestry.supers
  | _ => True

instance (t : ClassTable) : DecidablePred (Op.Spares t)
  | .unload id => inferInstanceAs (Decidable (∀ b ∈ t.bodyAt? id, b.shape.isArray = true →
      ∀ i < t.entries.size, ∀ xb ∈ t.bodyAt? (Identity.ofIndex i), id ∉ xb.ancestry.supers))
  | .newLoader _ | .define _ | .declare _ _ | .complete _ _ | .arrayOf _ _ => isTrue trivial

theorem Op.Spares.not_above {id : Identity} {b : ClassBody} (h : Op.Spares t (.unload id))
    (hb : t.bodyAt? id = some b) (hn : b.shape.isArray = true) (x : Identity) : ¬t.Above x id := by
  rintro ⟨xb, hx, hmem⟩
  exact h b hb hn x.index (Sound.index_lt hx) xb (by rwa [Identity.ofIndex_index]) hmem

/-! ### The invariant -/

/-- The record of an array goes with that of its element. -/
structure Follows (t : ClassTable) (element array : ClassBody) : Prop
    extends OneDeeper t element array where
  shape : array.shape = .array .object
  layout : array.layout = Layout.ofArray .object arrayHeaderSize
  /-- What is above the element and still there has an array, above the array. -/
  toArray : ∀ s ∈ element.ancestry.supers, ∀ sb, t.bodyAt? s = some sb →
    ∃ y ∈ array.ancestry.supers, t.arrayAt? s = some y

/-- The invariant. -/
structure Following (A : Archive) (t : ClassTable) : Prop where
  genuine : t.Genuine
  regular : ∀ id b, A id = some b → A.Regular t.capacity b.ancestry
  follows : ∀ x xb array ab, t.bodyAt? x = some xb → t.arrayAt? x = some array →
    t.bodyAt? array = some ab → t.Follows xb ab
  /-- No array has been made for a class that is only declared. -/
  waiting : ∀ x array ab, t.Declared x → t.arrayAt? x = some array →
    t.bodyAt? array = some ab → ab.shape.isArray = true → array.index ≤ x.index

theorem Following.raised (h : Following A t) : Raised A t where
  regular := h.regular
  arrays := fun x xb array hx ha => by
    obtain ⟨-, ab, hab, hn⟩ := h.genuine x xb array hx ha
    exact ⟨ab, hab, hn, (h.follows x xb array ab hx ha hab).toOneDeeper⟩

/-- Nothing that is above the element has been loaded meanwhile. -/
theorem Follows.grow (hg : Grows t t') {xb ab : ClassBody} (h : t.Follows xb ab)
    (hback : ∀ s ∈ xb.ancestry.supers, ∀ sb, t'.bodyAt? s = some sb → t.bodyAt? s = some sb) :
    t'.Follows xb ab where
  depth := h.depth
  ownsSlot := by rw [hg.capacity, h.ownsSlot]
  shape := h.shape
  layout := h.layout
  toArray := fun s hs sb hsb => by
    obtain ⟨y, hy, ha⟩ := h.toArray s hs sb (hback s hs sb hsb)
    exact ⟨y, hy, hg.arrayAt? ha⟩

/-- Records stay regular when the arrays that are new have regular ones. -/
theorem Following.regular_gains (h : Following A t) (hA : Archive.Gains A t'.bodyAt? A')
    (hc : Chronicle A' log' t') (hcap : t'.capacity = t.capacity)
    (hnew : ∀ id b, t'.bodyAt? id = some b → b.shape.isArray = true →
      t.bodyAt? id = some b ∨ A'.Regular t.capacity b.ancestry)
    (hlive : Archive.Within t.bodyAt? A) :
    ∀ id b, A' id = some b → A'.Regular t.capacity b.ancestry := by
  intro id b hb
  rcases hA.only id b hb with hold | hb'
  · exact (h.regular id b hold).mono hA.keeps
  · cases hn : b.shape.isArray with
    | false => exact hcap ▸ (hc.lawful id b hb hn).toRegular
    | true =>
        rcases hnew id b hb' hn with hold | hr
        · exact (h.regular id b (hlive id b hold)).mono hA.keeps
        · exact hr

/-! ### One more entry -/

/-- A further entry, where what is found under its name afterwards is as it should be. -/
theorem Following.add (h : Following A t) (hs : t.Sound) {entry : ClassObject}
    (hfree : t.names.get? (entry.loader, entry.name) = none) (hg : (t.add entry).Genuine)
    (hregular : ∀ id b, A' id = some b → A'.Regular t.capacity b.ancestry)
    (hloaded : ∀ x xb ab, t.bodyAt? x = some xb →
      t.arrayKey? x = some (entry.loader, entry.name) → entry.body? = some ab →
      ab.shape.isArray = true → t.Follows xb ab)
    (hwaiting : ∀ x ab, t.Declared x → t.arrayKey? x = some (entry.loader, entry.name) →
      entry.body? = some ab → ab.shape.isArray = false) :
    Following A' (t.add entry) := by
  have hgrows := Grows.add entry hfree
  refine ⟨hg, hregular, ?_, ?_⟩
  · intro x xb array ab hx ha hab
    obtain ⟨hlt, ab', hab', hn⟩ := hg x xb array hx ha
    obtain rfl := Option.some.inj (hab.symm.trans hab')
    -- Nothing has come after the new entry.
    have hne : x ≠ t.freshId := by
      rintro rfl
      have hsize := Sound.index_lt hab
      rw [size_add] at hsize
      rw [index_freshId] at hlt
      omega
    obtain ⟨-, hx⟩ := (bodyAt?_add_cases hx).resolve_left fun hx => hne hx.1
    have hback : ∀ s ∈ xb.ancestry.supers, ∀ sb, (t.add entry).bodyAt? s = some sb →
        t.bodyAt? s = some sb := by
      intro s hs' sb hsb
      rwa [bodyAt?_add_of_lt (hs.known ⟨xb, hx, hs'⟩)] at hsb
    rcases arrayAt?_add_of_ne hne ha with ⟨rfl, hkey⟩ | ha
    · rw [bodyAt?_add, if_pos rfl] at hab
      exact (hloaded x xb ab hx hkey hab hn).grow hgrows hback
    · obtain ⟨e, he⟩ := hs.objectAt_arrayAt? ha
      rw [bodyAt?_add_of_lt (index_lt_of_objectAt he)] at hab
      exact (h.follows x xb array ab hx ha hab).grow hgrows hback
  · intro x array ab hd ha hab hn
    by_cases hfresh : x = t.freshId
    · have hsize := Sound.index_lt hab
      rw [size_add] at hsize
      rw [hfresh, index_freshId]
      omega
    · have hd' : t.Declared x := by
        obtain ⟨e, he, hnone⟩ := hd
        rw [objectAt_add, if_neg hfresh] at he
        exact ⟨e, he, hnone⟩
      rcases arrayAt?_add_of_ne hfresh ha with ⟨rfl, hkey⟩ | ha
      · rw [bodyAt?_add, if_pos rfl] at hab
        rw [hwaiting x ab hd' hkey hab] at hn
        cases hn
      · obtain ⟨e, he⟩ := hs.objectAt_arrayAt? ha
        rw [bodyAt?_add_of_lt (index_lt_of_objectAt he)] at hab
        exact h.waiting x array ab hd' ha hab hn

/-- A further entry that is no array. -/
theorem Following.add_notArray (h : Following A t) (hs : t.Sound) {entry : ClassObject}
    (hfree : t.names.get? (entry.loader, entry.name) = none) (hg : (t.add entry).Genuine)
    (hregular : ∀ id b, A' id = some b → A'.Regular t.capacity b.ancestry)
    (hbody : ∀ b, entry.body? = some b → b.shape.isArray = false) :
    Following A' (t.add entry) := by
  refine h.add hs hfree hg hregular ?_ fun _ ab _ _ hab => hbody ab hab
  intro x xb ab _ _ hab hn
  rw [hbody ab hab] at hn
  cases hn

/-! ### A declared entry completed, and one removed -/

/-- A declared class is loaded.  No array has been made for it, and it is above nothing. -/
theorem Following.complete (h : Following A t) (hc : Chronicle A log t) {id : Identity}
    {entry : ClassObject} {body : ClassBody} (he : t.objectAt id = some entry)
    (hnone : entry.body? = none) (hbody : body.shape.isArray = false)
    (hg : (t.put id (some { entry with body? := some body })).Genuine)
    (hregular : ∀ x b, A' x = some b → A'.Regular t.capacity b.ancestry) :
    Following A' (t.put id (some { entry with body? := some body })) := by
  have hid := index_lt_of_objectAt he
  have hd : t.Declared id := ⟨entry, he, hnone⟩
  have harray : ∀ x b, (t.put id (some { entry with body? := some body })).bodyAt? x = some b →
      b.shape.isArray = true → t.bodyAt? x = some b := by
    intro x b hb hn
    rcases bodyAt?_put_cases hid hb with ⟨-, rfl⟩ | ⟨-, hb⟩
    · rw [hbody] at hn
      cases hn
    · exact hb
  refine ⟨hg, hregular, ?_, ?_⟩
  · intro x xb array ab hx ha hab
    obtain ⟨hlt, ab', hab', hn⟩ := hg x xb array hx ha
    obtain rfl := Option.some.inj (hab.symm.trans hab')
    rw [arrayAt?_complete he] at ha
    have hold := harray array ab hab hn
    rcases bodyAt?_put_cases hid hx with ⟨rfl, -⟩ | ⟨-, hx'⟩
    · have := h.waiting x array ab hd ha hold hn
      omega
    · refine (h.follows x xb array ab hx' ha hold).grow (.put he hnone) ?_
      intro s hs sb hsb
      rcases bodyAt?_put_cases hid hsb with ⟨rfl, -⟩ | ⟨-, hsb'⟩
      · -- What a record names has had a body already.
        obtain ⟨b, hb⟩ := (h.regular x xb (hc.live x xb hx')).known hs
        exact absurd hd (hc.past s b hb).2
      · exact hsb'
  · intro x array ab hdx ha hab hn
    rw [arrayAt?_complete he] at ha
    refine h.waiting x array ab ?_ ha (harray array ab hab hn) hn
    obtain ⟨e, hx, hnone'⟩ := hdx
    rw [objectAt_put hid] at hx
    split at hx
    · obtain rfl := Option.some.inj hx
      cases hnone'
    · exact ⟨e, hx, hnone'⟩

/-- An entry is removed that is no array above another one. -/
theorem Following.without (h : Following A t) (hs : t.Sound) {id : Identity} {entry : ClassObject}
    (he : t.objectAt id = some entry) (hspares : Op.Spares t (.unload id))
    (hg : (t.without id entry).Genuine)
    (hregular : ∀ x b, A' x = some b → A'.Regular t.capacity b.ancestry) :
    Following A' (t.without id entry) := by
  have hthere : ∀ {x b}, (t.without id entry).bodyAt? x = some b → x ≠ id := by
    rintro x b hx rfl
    rw [bodyAt?_without he, if_pos rfl] at hx
    cases hx
  refine ⟨hg, hregular, ?_, ?_⟩
  · intro x xb array ab hx ha hab
    obtain ⟨-, ha⟩ := (hs.arrayAt?_without he (hthere hx)).mp ha
    have hab' := bodyAt?_of_without he hab
    have hold := h.follows x xb array ab (bodyAt?_of_without he hx) ha hab'
    refine ⟨⟨hold.depth, hold.ownsSlot⟩, hold.shape, hold.layout, ?_⟩
    intro s hmem sb hsb
    have hsb' := bodyAt?_of_without he hsb
    obtain ⟨y, hy, hsy⟩ := hold.toArray s hmem sb hsb'
    refine ⟨y, hy, (hs.arrayAt?_without he (hthere hsb)).mpr ⟨?_, hsy⟩⟩
    -- An array above another one is not removed.
    rintro rfl
    obtain ⟨-, yb, hyb, hn⟩ := h.genuine s sb y hsb' hsy
    exact hspares.not_above hyb hn array ⟨ab, hab', hy⟩
  · intro x array ab hd ha hab hn
    obtain ⟨e, hx, hnone⟩ := hd
    rw [objectAt_without he] at hx
    split at hx
    · cases hx
    · rename_i hne
      obtain ⟨-, ha⟩ := (hs.arrayAt?_without he hne).mp ha
      exact h.waiting x array ab ⟨e, hx, hnone⟩ ha (bodyAt?_of_without he hab) hn

/-! ### Further arrays -/

section

variable {interfaces chain secondary : List Identity} {plan : ArrayPlan}

/-- The array of a class follows it. -/
theorem Makes.follows {x : Identity} (hm : t.Makes (.ofClass x) interfaces plan chain secondary)
    (hs : t.Sound) (h : Following A t) (hc : Chronicle A log t) :
    ∃ xb, t.bodyAt? x = some xb ∧ t.Follows xb (t.arrayBody plan chain secondary) := by
  obtain ⟨entry, xb, he, hb, hplan⟩ := arrayPlan_ofClass_eq_ok hm.planned
  have hx : t.bodyAt? x = some xb := bodyAt?_eq_some.mpr ⟨entry, he, hb⟩
  have hmay : plan.mayOwnSlot = xb.ancestry.ownsSlot := by rw [hplan]
  have helement : plan.element = .object := by rw [hplan]
  refine ⟨xb, hx, ?_⟩
  by_cases hroot : x = root
  · subst hroot
    refine ⟨hm.oneDeeper_root hs hc (by rw [hplan]; simp) hx hmay, ?_, ?_, ?_⟩
    · rw [arrayBody, helement]
    · rw [arrayBody, helement]
    · obtain ⟨rootBody, hroot, -, ha⟩ := hc.rootAt hs
      obtain rfl := Option.some.inj (hx.symm.trans hroot)
      intro s hmem
      rw [ha] at hmem
      cases hmem
  · obtain ⟨p, pb, array, ab, hf⟩ := hm.foundedOn h.raised hc hx hroot (by rw [hplan]; simp [hroot])
    refine ⟨hf.oneDeeper_element hmay, ?_, ?_, ?_⟩
    · rw [arrayBody, helement]
    · rw [arrayBody, helement]
    · intro s hmem sb hsb
      refine hf.toArray hmem fun hsuper => ?_
      exact (h.follows p pb array ab hf.superAt hf.arrayOf hf.founded.superAt).toArray s hsuper sb hsb

theorem ArrayMove.bodyAt?_eq (hm : ArrayMove interfaces t t') {x : Identity}
    (hx : x.index < t.entries.size) : t'.bodyAt? x = t.bodyAt? x := by
  obtain ⟨element, hm⟩ := hm
  cases hm with
  | array _ _ plan chain secondary hmakes => exact bodyAt?_add_of_lt hx

/-- What is genuine after an array has been made was so before. -/
theorem ArrayMove.genuine_back (hm : ArrayMove interfaces t t') (hs : t.Sound) (hg : t'.Genuine) :
    t.Genuine := by
  intro x b array hx ha
  obtain ⟨hlt, ab, hab, hn⟩ := hg x b array (hm.grows.bodies x b hx) (hm.grows.arrayAt? ha)
  obtain ⟨e, he⟩ := hs.objectAt_arrayAt? ha
  rw [hm.bodyAt?_eq (index_lt_of_objectAt he)] at hab
  exact ⟨hlt, ab, hab, hn⟩

theorem ArrayMove.following (hm : ArrayMove interfaces t t') (hs : t.Sound) (hc : Chronicle A log t)
    (h : Following A t) (hg : t'.Genuine) :
    ∃ A', Archive.Gains A t'.bodyAt? A' ∧ Chronicle A' log t' ∧ Following A' t' := by
  obtain ⟨A', hA, hc'⟩ := hm.chronicle hc
  obtain ⟨element, hm⟩ := hm
  cases hm with
  | array _ _ plan chain secondary hmakes =>
      refine ⟨A', hA, hc', h.add hs hmakes.unused hg ?_ ?_ ?_⟩
      · refine h.regular_gains hA hc' rfl ?_ hc.live
        intro id b hb _
        rcases bodyAt?_add_cases hb with ⟨-, hb⟩ | ⟨-, hb⟩
        · obtain rfl := Option.some.inj hb
          obtain ⟨p, pb, others, hf⟩ := hmakes.founded hs h.raised hc
          have hsuper := h.regular p pb (hc.live p pb hf.superAt)
          exact Or.inr ((hf.regular hc hsuper plan).mono hA.keeps)
        · exact Or.inl hb
      · intro x xb ab hx hkey hab _
        obtain rfl := Option.some.inj hab
        obtain rfl := hmakes.arrayAt?_freshId hs hkey
        obtain ⟨xb', hx', hfollows⟩ := hmakes.follows hs h hc
        obtain rfl := Option.some.inj (hx.symm.trans hx')
        exact hfollows
      · -- The element of a further array is loaded.
        intro x ab hd hkey _
        obtain rfl := hmakes.arrayAt?_freshId hs hkey
        obtain ⟨xb, hx, -⟩ := hmakes.follows hs h hc
        rw [hd.bodyAt?_eq_none] at hx
        cases hx

theorem following_arrayMoves (hm : ReflTransGen (ArrayMove interfaces) t t') (hs : t.Sound)
    (hc : Chronicle A log t) (h : Following A t) (hg : t'.Genuine) :
    ∃ A', Archive.Gains A t'.bodyAt? A' ∧ Chronicle A' log t' ∧ Following A' t' := by
  induction hm with
  | refl => exact ⟨A, .refl A _, hc, h⟩
  | tail hmoves hmove ih =>
      have hs' := hs.arrayMoves hmoves
      obtain ⟨A', hA', hc', h'⟩ := ih (hmove.genuine_back hs' hg)
      obtain ⟨A'', hA'', hc'', h''⟩ := hmove.following hs' hc' h' hg
      exact ⟨A'', hA'.trans hA'' hmove.within, hc'', h''⟩

end

/-! ### Operations -/

theorem following_create (rootName : String) (capacity : Display.Capacity) :
    Following (create rootName capacity).bodyAt? (create rootName capacity) := by
  have hnone : ∀ {x array}, (create rootName capacity).arrayAt? x ≠ some array := by
    intro x array ha
    rw [arrayAt?_create] at ha
    cases ha
  refine ⟨fun x b array _ ha => absurd ha hnone, ?_, fun x xb array ab _ ha _ => absurd ha hnone,
    fun x array ab _ ha _ _ => absurd ha hnone⟩
  intro id b hb
  exact (Archive.lawful_root (bodyAt?_create hb).2.1 (bodyAt?_create hb).2.2).toRegular

/-- **Every operation that spares arrays keeps arrays following their elements**, if what it leaves is
genuine. -/
theorem Ran.following {op : Op} {reply : Except TableRefusal Reply} (hr : Ran t op reply t')
    (hspares : op.Spares t) (hs : t.Sound) (hc : Chronicle A log t) (h : Following A t)
    (hg : t'.Genuine) :
    ∃ A', Archive.Gains A t'.bodyAt? A' ∧ Chronicle A' (log ++ op.loads reply) t' ∧
      Following A' t' := by
  obtain ⟨A', hA, hc'⟩ := hr.chronicle hc
  cases hr with
  | refused _ e => exact ⟨A, .refl A _, by simpa using hc, h⟩
  | @newLoader parent _ hm =>
      cases hm with
      | newLoader _ _ =>
          refine ⟨A', hA, hc', hg, h.regular_gains hA hc' rfl (fun _ _ hb _ => Or.inl hb) hc.live,
            fun x xb array ab hx ha hab => ?_, h.waiting⟩
          exact (h.follows x xb array ab hx ha hab).grow (.loader t _) fun _ _ _ hsb => hsb
  | define hm =>
      cases hm with
      | define d body sb _ hfree hl =>
          have hbody : ∀ b, some body = some b → b.shape.isArray = false := by
            rintro b ⟨⟩
            exact hl.notArray
          refine ⟨A', hA, hc', h.add_notArray hs hfree hg (h.regular_gains hA hc' rfl ?_ hc.live)
            hbody⟩
          intro id b hb hn
          rcases bodyAt?_add_cases hb with ⟨-, hb⟩ | ⟨-, hb⟩
          · rw [hbody b hb] at hn
            cases hn
          · exact Or.inl hb
  | declare hm =>
      cases hm with
      | declare loader name _ hfree =>
          refine ⟨A', hA, hc', h.add_notArray hs hfree hg (h.regular_gains hA hc' rfl ?_ hc.live)
            (by rintro _ ⟨⟩)⟩
          intro id b hb _
          rcases bodyAt?_add_cases hb with ⟨-, hb⟩ | ⟨-, hb⟩
          · cases hb
          · exact Or.inl hb
  | complete hm =>
      cases hm with
      | complete id d entry body sb he hnone hl =>
          refine ⟨A', hA, hc', h.complete hc he hnone hl.notArray hg
            (h.regular_gains hA hc' rfl ?_ hc.live)⟩
          intro x b hb hn
          rcases bodyAt?_put_cases (index_lt_of_objectAt he) hb with ⟨-, rfl⟩ | ⟨-, hb⟩
          · rw [hl.notArray] at hn
            cases hn
          · exact Or.inl hb
  | unload hm =>
      cases hm with
      | unload id entry he _ =>
          refine ⟨A', hA, hc', h.without hs he hspares hg (h.regular_gains hA hc' rfl ?_ hc.live)⟩
          exact fun x b hb _ => Or.inl (bodyAt?_of_without he hb)
  | array hm _ => simpa [Op.loads] using following_arrayMoves hm hs hc h hg
  | arrayRefused _ hm => simpa using following_arrayMoves hm hs hc h hg

end ClassTable

end RuntimeTypes
