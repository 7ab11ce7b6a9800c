/-
What a request for an array does to a table.

Making an array asks for the arrays of the element's supertypes first, and each of them
may be made by the way.  Three things are shown of it.  The table takes array moves and
nothing else, whether the request ends well or not.  The names that are new afterwards are
those of arrays that the element needs: its own, and, where that was not there, those that
its supertypes need.  And the answer is what is found as the array of the element.

That the array's own name is still free by the time it is added is where acyclicity is
needed: the names taken meanwhile are those of arrays of classes above the element, and
the element is not one of them.
-/
import RuntimeTypes.Proofs.Runs
import RuntimeTypes.Proofs.Table.Sound

namespace RuntimeTypes

namespace ClassTable

open Relation

/-! ### Names of arrays -/

theorem elementDescriptor_inj {a b : String} (h : elementDescriptor a = elementDescriptor b) :
    a = b := by
  have hl : ∀ name : String, isArrayName name = true → name ≠ "L" ++ b ++ ";" ∧
      name ≠ "L" ++ a ++ ";" := by
    intro name hn
    unfold isArrayName at hn
    constructor <;> rintro rfl <;> simp at hn
  unfold elementDescriptor at h
  split at h <;> split at h
  · exact h
  · rename_i ha hb
    exact absurd h (hl a ha).1
  · rename_i ha hb
    exact absurd h.symm (hl b hb).2
  · have hlist := congrArg String.toList h
    exact String.toList_injective (by simpa using hlist)

variable {t t' : ClassTable} {interfaces : List Identity}

theorem arrayKey?_of_objectAt {x : Identity} {entry : ClassObject} (h : t.objectAt x = some entry) :
    t.arrayKey? x = some (entry.loader, "[" ++ elementDescriptor entry.name) := by
  simp [arrayKey?, h]

theorem Sound.arrayKey?_inj (h : t.Sound) {x y : Identity} {key : Loader × String}
    (hx : t.arrayKey? x = some key) (hy : t.arrayKey? y = some key) : x = y := by
  obtain ⟨ex, hex, hkx⟩ := Option.map_eq_some_iff.mp hx
  obtain ⟨ey, hey, hky⟩ := Option.map_eq_some_iff.mp hy
  obtain ⟨hl, hn⟩ := Prod.mk.inj (hkx.trans hky.symm)
  exact h.key_inj hex hey hl (elementDescriptor_inj (String.append_right_inj "[" |>.mp hn))

theorem arrayPlan_ofClass_eq_ok {x : Identity} {plan : ArrayPlan}
    (h : t.arrayPlan (.ofClass x) = .ok plan) :
    ∃ entry body, t.objectAt x = some entry ∧ entry.body? = some body ∧
      plan =
        { name := "[" ++ elementDescriptor entry.name
          loader := entry.loader
          element := .object
          mayOwnSlot := body.ancestry.ownsSlot
          access := body.flags.modifier &&& Access.isPublic
          lineage? := if x = root then none else some (lineageOf body.ancestry) } := by
  simp only [arrayPlan] at h
  cases hl : t.loaded x with
  | error e => simp [hl, bind, Except.bind] at h
  | ok found =>
      obtain ⟨entry, body⟩ := found
      simp only [hl, bind, Except.bind] at h
      obtain ⟨he, hb⟩ := loaded_eq_ok_iff.mp hl
      exact ⟨entry, body, he, hb, (Except.ok.inj h).symm⟩

theorem arrayKey?_of_arrayPlan {x : Identity} {plan : ArrayPlan}
    (h : t.arrayPlan (.ofClass x) = .ok plan) : t.arrayKey? x = some (plan.loader, plan.name) := by
  obtain ⟨entry, body, he, -, rfl⟩ := arrayPlan_ofClass_eq_ok h
  exact arrayKey?_of_objectAt he

theorem lineage?_primitive {type : BasicType} {plan : ArrayPlan}
    (h : t.arrayPlan (.primitive type) = .ok plan) : plan.lineage? = none := by
  simp only [arrayPlan] at h
  split at h
  · cases h
  · obtain rfl := Except.ok.inj h
    rfl

/-- The supertypes whose arrays are asked for are above the element. -/
theorem Sound.above_of_lineage (h : t.Sound) {x : Identity} {plan : ArrayPlan}
    {superElement : Identity} {others : List Identity} (hp : t.arrayPlan (.ofClass x) = .ok plan)
    (hl : plan.lineage? = some (superElement, others)) :
    t.Above x superElement ∧ ∀ other ∈ others, t.Above x other := by
  obtain ⟨entry, body, he, hb, rfl⟩ := arrayPlan_ofClass_eq_ok hp
  have hbody : t.bodyAt? x = some body := bodyAt?_eq_some.mpr ⟨entry, he, hb⟩
  simp only at hl
  split at hl
  · cases hl
  · rename_i hx
    obtain ⟨hs, ho⟩ := Prod.mk.inj (Option.some.inj hl)
    refine ⟨⟨body, hbody, AncestryRecord.mem_supers_of_chain ?_⟩, ?_⟩
    · have hne := (h.fits x body hbody hx).rooted
      rw [← hs, List.getLast?_eq_some_getLast hne]
      exact List.getLast_mem hne
    · intro other hmem
      rw [← ho] at hmem
      exact ⟨body, hbody, AncestryRecord.mem_supers_of_secondary (List.mem_filter.mp hmem).1⟩

/-! ### Arrays added to a table -/

/-- An array is made in the course of a request with these interfaces. -/
def ArrayMove (interfaces : List Identity) (t t' : ClassTable) : Prop :=
  ∃ element, Move t (.arrayOf element interfaces) t'

/-- Arrays have been made, under names that `K` allows, and nothing else has happened. -/
structure Added (t : ClassTable) (K : Loader × String → Prop) (interfaces : List Identity)
    (t' : ClassTable) : Prop where
  moves : ReflTransGen (ArrayMove interfaces) t t'
  capacity : t'.capacity = t.capacity
  loaders : t'.loaders = t.loaders
  size : t.entries.size ≤ t'.entries.size
  old : ∀ id : Identity, id.index < t.entries.size → t'.objectAt id = t.objectAt id
  kept : ∀ key id, t.names.get? key = some id → t'.names.get? key = some id
  new : ∀ key id, t'.names.get? key = some id → t.names.get? key = some id ∨ K key

theorem Sound.arrayMoves (h : t.Sound) (hm : ReflTransGen (ArrayMove interfaces) t t') :
    t'.Sound := by
  induction hm with
  | refl => exact h
  | tail _ hmove ih =>
      obtain ⟨element, hmove⟩ := hmove
      exact hmove.sound ih

/-- Making arrays leaves the entries alone that are there. -/
theorem objectAt_arrayMoves (hm : ReflTransGen (ArrayMove interfaces) t t') :
    t.entries.size ≤ t'.entries.size ∧
      ∀ id : Identity, id.index < t.entries.size → t'.objectAt id = t.objectAt id := by
  induction hm with
  | refl => exact ⟨Nat.le_refl _, fun _ _ => rfl⟩
  | @tail t₁ _ _ hmove ih =>
      obtain ⟨hsize, hold⟩ := ih
      obtain ⟨element, hmove⟩ := hmove
      cases hmove with
      | array _ _ plan chain secondary hmakes =>
          refine ⟨by rw [size_add]; omega, fun id hid => ?_⟩
          rw [objectAt_add, if_neg, hold id hid]
          rintro rfl
          rw [index_freshId] at hid
          omega

/-- An entry that is there afterwards and was not there before is an array that was made on the
way. -/
theorem exists_makes_of_new (hm : ReflTransGen (ArrayMove interfaces) t t') {id : Identity}
    {entry : ClassObject} (hnew : t.objectAt id = none) (he : t'.objectAt id = some entry) :
    ∃ t₁ element plan chain secondary, ReflTransGen (ArrayMove interfaces) t t₁ ∧
      t₁.Makes element interfaces plan chain secondary ∧
      ReflTransGen (ArrayMove interfaces) t₁ t' ∧
      entry.body? = some (t₁.arrayBody plan chain secondary) := by
  induction hm with
  | refl =>
      rw [hnew] at he
      cases he
  | @tail t₁ _ hmoves hmove ih =>
      obtain ⟨element, hmove⟩ := hmove
      have hlast : ArrayMove interfaces t₁ _ := ⟨element, hmove⟩
      cases hmove with
      | array _ _ plan chain secondary hmakes =>
          rw [objectAt_add] at he
          split at he
          · obtain rfl := Option.some.inj he
            exact ⟨t₁, element, plan, chain, secondary, hmoves, hmakes, .single hlast, rfl⟩
          · obtain ⟨t₂, element', plan', chain', secondary', hto, hmakes', hfrom, hbody⟩ := ih he
            exact ⟨t₂, element', plan', chain', secondary', hto, hmakes', hfrom.tail hlast, hbody⟩

namespace Added

variable {K : Loader × String → Prop}

theorem refl (t : ClassTable) (K : Loader × String → Prop) (interfaces : List Identity) :
    t.Added K interfaces t :=
  ⟨.refl, rfl, rfl, Nat.le_refl _, fun _ _ => rfl, fun _ _ h => h, fun _ _ h => Or.inl h⟩

theorem trans {t'' : ClassTable} (h : t.Added K interfaces t') (h' : t'.Added K interfaces t'') :
    t.Added K interfaces t'' where
  moves := h.moves.trans h'.moves
  capacity := h'.capacity.trans h.capacity
  loaders := h'.loaders.trans h.loaders
  size := Nat.le_trans h.size h'.size
  old := fun id hid => (h'.old id (Nat.lt_of_lt_of_le hid h.size)).trans (h.old id hid)
  kept := fun key id hk => h'.kept key id (h.kept key id hk)
  new := fun key id hk => by
    rcases h'.new key id hk with hk | hk
    · exact h.new key id hk
    · exact Or.inr hk

theorem mono {K' : Loader × String → Prop} (h : t.Added K interfaces t')
    (hK : ∀ key, K key → K' key) : t.Added K' interfaces t' :=
  { h with new := fun key id hk => (h.new key id hk).imp_right (hK key) }

theorem bodyAt? (h : t.Added K interfaces t') {id : Identity} (hid : id.index < t.entries.size) :
    t'.bodyAt? id = t.bodyAt? id := by
  unfold ClassTable.bodyAt?
  rw [h.old id hid]

theorem arrayKey? (h : t.Added K interfaces t') {id : Identity} (hid : id.index < t.entries.size) :
    t'.arrayKey? id = t.arrayKey? id := by
  unfold ClassTable.arrayKey?
  rw [h.old id hid]

theorem arrayAt? (h : t.Added K interfaces t') {x array : Identity}
    (ha : t.arrayAt? x = some array) : t'.arrayAt? x = some array := by
  obtain ⟨key, hkey, hk⟩ := Option.bind_eq_some_iff.mp ha
  obtain ⟨entry, he, -⟩ := Option.map_eq_some_iff.mp hkey
  refine Option.bind_eq_some_iff.mpr ⟨key, ?_, h.kept key array hk⟩
  rw [h.arrayKey? (index_lt_of_objectAt he), hkey]

theorem loaded (h : t.Added K interfaces t') {id : Identity} (hid : id.index < t.entries.size) :
    t'.loaded id = t.loaded id := by
  unfold ClassTable.loaded
  rw [h.old id hid]

theorem arrayPlan_eq (h : t.Added K interfaces t') {x : Identity}
    (hx : x.index < t.entries.size) : t'.arrayPlan (.ofClass x) = t.arrayPlan (.ofClass x) := by
  simp only [ClassTable.arrayPlan, h.loaded hx]

theorem arrayPlan (h : t.Added K interfaces t') {element : ElementType} {plan : ArrayPlan}
    (hp : t.arrayPlan element = .ok plan) : t'.arrayPlan element = .ok plan := by
  cases element with
  | primitive type => exact hp
  | ofClass x =>
      obtain ⟨entry, body, he, -⟩ := arrayPlan_ofClass_eq_ok hp
      rw [h.arrayPlan_eq (index_lt_of_objectAt he), hp]

end Added

/-- Making an array adds one. -/
theorem Makes.added {element : ElementType} {plan : ArrayPlan} {chain secondary : List Identity}
    {K : Loader × String → Prop} (hm : t.Makes element interfaces plan chain secondary)
    (hK : K (plan.loader, plan.name)) :
    t.Added K interfaces
      (t.add
        { name := plan.name
          loader := plan.loader
          body? := some (t.arrayBody plan chain secondary) }) where
  moves := .single ⟨element, .array element interfaces plan chain secondary hm⟩
  capacity := rfl
  loaders := rfl
  size := by simp
  old := fun id hid => by
    rw [objectAt_add, if_neg]
    rintro rfl
    exact Nat.lt_irrefl _ hid
  kept := fun key id hk => by
    rw [get?_names_add, if_neg]
    · exact hk
    · rintro rfl
      rw [hm.unused] at hk
      cases hk
  new := fun key id hk => by
    rw [get?_names_add] at hk
    split at hk
    · rename_i hkey
      exact Or.inr (hkey ▸ hK)
    · exact Or.inl hk

/-! ### Requests -/

/-- Something worked out from the table as it stands. -/
theorem Ends.lift_bind {α β : Type} {x : Except TableRefusal α} {k : α → Building β}
    {ok : β → ClassTable → Prop} {failed : TableRefusal → ClassTable → Prop}
    (hok : ∀ a, x = .ok a → Ends (k a) t ok failed) (hfailed : ∀ e, x = .error e → failed e t) :
    Ends (Building.lift x >>= k) t ok failed := by
  cases hx : x with
  | ok a => exact hok a hx
  | error e => exact hfailed e hx

/-- The array of `x` is missing, and making it asks for the array of `s` first. -/
def Needs (t : ClassTable) (x s : Identity) : Prop :=
  t.arrayAt? x = none ∧ ∃ plan superElement others, t.arrayPlan (.ofClass x) = .ok plan ∧
    plan.lineage? = some (superElement, others) ∧ (s = superElement ∨ s ∈ others)

theorem Sound.above_of_needs (h : t.Sound) {x s : Identity} (hn : t.Needs x s) : t.Above x s := by
  obtain ⟨-, plan, superElement, others, hplan, hl, hs⟩ := hn
  obtain ⟨hsuper, hothers⟩ := h.above_of_lineage hplan hl
  rcases hs with rfl | hs
  · exact hsuper
  · exact hothers s hs

/-- A set of entries that holds whatever the array of one of them needs. -/
structure ClosedUp (t : ClassTable) (U : Identity → Prop) : Prop where
  known : ∀ x, U x → x.index < t.entries.size
  needs : ∀ x s, U x → t.Needs x s → U s

/-- The names of the arrays of some classes. -/
def ArrayNames (t : ClassTable) (U : Identity → Prop) (key : Loader × String) : Prop :=
  ∃ x, U x ∧ t.arrayKey? x = some key

theorem ArrayNames.toRefl {x : Identity} {key : Loader × String}
    (h : t.ArrayNames (TransGen t.Needs x) key) : t.ArrayNames (ReflTransGen t.Needs x) key := by
  obtain ⟨y, hy, hk⟩ := h
  exact ⟨y, hy.to_reflTransGen, hk⟩

/-- No array needs more once others have been made. -/
theorem Added.needs {K : Loader × String → Prop} (h : t.Added K interfaces t') {x s : Identity}
    (hx : x.index < t.entries.size) (hn : t'.Needs x s) : t.Needs x s := by
  obtain ⟨hnone, plan, superElement, others, hplan, hl, hs⟩ := hn
  refine ⟨?_, plan, superElement, others, ?_, hl, hs⟩
  · cases ha : t.arrayAt? x with
    | none => rfl
    | some array =>
        rw [h.arrayAt? ha] at hnone
        cases hnone
  · rw [← hplan, h.arrayPlan_eq hx]

theorem ClosedUp.added {U : Identity → Prop} {K : Loader × String → Prop} (hU : t.ClosedUp U)
    (h : t.Added K interfaces t') : t'.ClosedUp U where
  known := fun x hx => Nat.lt_of_lt_of_le (hU.known x hx) h.size
  needs := fun x s hx hn => hU.needs x s hx (h.needs (hU.known x hx) hn)

theorem ClosedUp.arrayNames_added {U : Identity → Prop} {K : Loader × String → Prop}
    (hU : t.ClosedUp U) (h : t.Added K interfaces t') {key : Loader × String}
    (hk : t'.ArrayNames U key) : t.ArrayNames U key := by
  obtain ⟨x, hx, hk⟩ := hk
  exact ⟨x, hx, by rw [← h.arrayKey? (hU.known x hx), hk]⟩

/-- A request for the array of a class makes arrays of classes in any closed set that holds it, and
answers with the array that is found afterwards. -/
def Requests (interfaces : List Identity) (request : ElementType → Building Identity) : Prop :=
  ∀ (t : ClassTable) (U : Identity → Prop) (x : Identity), t.Sound → t.ClosedUp U → U x →
    Ends (request (.ofClass x)) t
      (fun id t' => t.Added (t.ArrayNames U) interfaces t' ∧ t'.arrayAt? x = some id)
      (fun _ t' => t.Added (t.ArrayNames U) interfaces t')

/-- What the arrays of entries need has entries. -/
theorem Sound.closedUp_index (h : t.Sound) : t.ClosedUp fun y => y.index < t.entries.size :=
  ⟨fun _ hy => hy, fun _ _ _ hn => h.known (h.above_of_needs hn)⟩

/-- A request for the array of a class adds arrays, and one of them, or one that was there, is the
answer. -/
theorem Requests.adds {request : ElementType → Building Identity} (hr : Requests interfaces request)
    (h : t.Sound) {x : Identity} (hx : x.index < t.entries.size) :
    Ends (request (.ofClass x)) t
      (fun array t' => t.Added (fun _ => True) interfaces t' ∧ t'.arrayAt? x = some array)
      fun _ t' => t.Added (fun _ => True) interfaces t' :=
  (hr t _ x h h.closedUp_index hx).mono
    (fun _ _ h' => ⟨h'.1.mono fun _ _ => trivial, h'.2⟩) fun _ _ h' => h'.mono fun _ _ => trivial

/-- Two requests, the second of which is understood in the table that the first leaves. -/
theorem ClosedUp.trans {U : Identity → Prop} {t'' : ClassTable} (hU : t.ClosedUp U)
    (h : t.Added (t.ArrayNames U) interfaces t') (h' : t'.Added (t'.ArrayNames U) interfaces t'') :
    t.Added (t.ArrayNames U) interfaces t'' :=
  h.trans (h'.mono fun _ hk => hU.arrayNames_added h hk)

section

variable {request : ElementType → Building Identity} {U : Identity → Prop}

/-- The requests for the arrays of the further supertypes, one after the other. -/
theorem Requests.others (hr : Requests interfaces request) (others : List Identity) :
    ∀ {t : ClassTable} (secondary : List Identity), t.Sound → t.ClosedUp U →
      (∀ other ∈ others, U other) →
      Ends (others.foldlM
          (fun secondary other => do
            let array ← request (.ofClass other)
            pure (appendNew secondary [array]))
          secondary) t
        (fun out t' => t.Added (t.ArrayNames U) interfaces t' ∧ ∃ arrays,
          List.Forall₂ (fun other array => t'.arrayAt? other = some array) others arrays ∧
            out = appendNew secondary arrays)
        (fun _ t' => t.Added (t.ArrayNames U) interfaces t') := by
  induction others with
  | nil =>
      intro t secondary h hU hall
      exact Ends.pure ⟨.refl t _ _, [], .nil, rfl⟩
  | cons other rest ih =>
      intro t secondary h hU hall
      rw [List.foldlM_cons]
      have hfirst : Ends (do
            let array ← request (.ofClass other)
            pure (appendNew secondary [array])) t
          (fun out t' => t.Added (t.ArrayNames U) interfaces t' ∧
            ∃ array, t'.arrayAt? other = some array ∧ out = appendNew secondary [array])
          (fun _ t' => t.Added (t.ArrayNames U) interfaces t') :=
        (hr t U other h hU (hall other (by simp))).bind
          (fun array t' h' => Ends.pure ⟨h'.1, array, h'.2, rfl⟩) fun _ _ h' => h'
      refine hfirst.bind ?_ fun _ _ h' => h'
      rintro _ t' ⟨hadd, array, harray, rfl⟩
      have hrest := ih (appendNew secondary [array]) (h.arrayMoves hadd.moves) (hU.added hadd)
        fun o ho => hall o (by simp [ho])
      refine hrest.mono ?_ fun _ t'' h'' => hU.trans hadd h''
      rintro out t'' ⟨hadd', arrays, hfound, rfl⟩
      -- The array that was found first is still found at the end.
      have hkeep : t''.arrayAt? other = some array := hadd'.arrayAt? harray
      exact ⟨hU.trans hadd hadd', array :: arrays, .cons hkeep hfound, rfl⟩

/-- The requests for the arrays of an element's supertypes. -/
theorem Requests.supertypes (hr : Requests interfaces request) (h : t.Sound) (hU : t.ClosedUp U)
    (lineage? : Option (Identity × List Identity))
    (hl : ∀ superElement others, lineage? = some (superElement, others) →
      U superElement ∧ ∀ other ∈ others, U other) :
    Ends (supertypeArrays request lineage?) t
      (fun out t' => t.Added (t.ArrayNames U) interfaces t' ∧
        t'.Inherits lineage? out.1 out.2)
      (fun _ t' => t.Added (t.ArrayNames U) interfaces t') := by
  cases lineage? with
  | none => exact Ends.pure ⟨.refl t _ _, .root⟩
  | some lineage =>
      obtain ⟨superElement, others⟩ := lineage
      obtain ⟨hsuper, hothers⟩ := hl superElement others rfl
      simp only [supertypeArrays]
      refine (hr t U superElement h hU hsuper).bind ?_ fun _ _ h' => h'
      rintro superArray t' ⟨hadd, harray⟩
      have hsound := h.arrayMoves hadd.moves
      have hclosed := hU.added hadd
      refine Ends.get_bind (Ends.lift_bind ?_ fun _ _ => hadd)
      rintro ⟨superEntry, superBody⟩ hload
      have hbody := bodyAt?_of_loaded hload
      refine (hr.others others superBody.ancestry.secondary hsound hclosed hothers).bind ?_
        fun _ _ h'' => hU.trans hadd h''
      rintro _ t'' ⟨hadd', arrays, hfound, rfl⟩
      refine Ends.pure ⟨hU.trans hadd hadd', .super ?_ ?_ hfound⟩
      · exact hadd'.arrayAt? harray
      · rw [hadd'.bodyAt? (Sound.index_lt hbody), hbody]

/-- The name that an element's array has or is about to get. -/
def PlannedName (t : ClassTable) (element : ElementType) (key : Loader × String) : Prop :=
  ∃ plan, t.arrayPlan element = .ok plan ∧ (plan.loader, plan.name) = key

/-- Making the array of an element, if the arrays above are asked for in a closed set that does not
hold the element itself. -/
theorem Requests.make (hr : Requests interfaces request) (h : t.Sound) (hU : t.ClosedUp U)
    (element : ElementType)
    (hl : ∀ plan superElement others, t.arrayPlan element = .ok plan →
      t.names.get? (plan.loader, plan.name) = none →
      plan.lineage? = some (superElement, others) → U superElement ∧ ∀ other ∈ others, U other)
    (hfree : ∀ key, t.PlannedName element key → ¬t.ArrayNames U key) :
    Ends (makeArray interfaces request element) t
      (fun id t' => t.Added (fun key => t.ArrayNames U key ∨ t.PlannedName element key)
          interfaces t' ∧
        ∃ key, t.PlannedName element key ∧ t'.names.get? key = some id)
      (fun _ t' => t.Added (t.ArrayNames U) interfaces t') := by
  refine Ends.get_bind (Ends.lift_bind ?_ fun _ _ => .refl t _ _)
  intro plan hplan
  refine Ends.get_bind ?_
  have hplanned : t.PlannedName element (plan.loader, plan.name) := ⟨plan, hplan, rfl⟩
  split
  · rename_i id hname
    exact Ends.pure ⟨.refl t _ _, _, hplanned, hname⟩
  · rename_i hname
    refine (hr.supertypes h hU plan.lineage? fun _ _ => hl plan _ _ hplan hname).bind ?_
      fun _ _ h' => h'
    rintro ⟨chain, inherited⟩ t' ⟨hadd, hinherits⟩
    refine Ends.get_bind (Ends.lift_bind ?_ fun _ _ => hadd)
    intro supers hsupers
    -- Only names of arrays above the element have been taken meanwhile.
    have hunused : t'.names.get? (plan.loader, plan.name) = none := by
      cases hused : t'.names.get? (plan.loader, plan.name) with
      | none => rfl
      | some id =>
          rcases hadd.new _ id hused with hold | hnew
          · rw [hname] at hold
            cases hold
          · exact absurd hnew (hfree _ hplanned)
    have hmakes : t'.Makes element interfaces plan chain
        (appendNew supers (chain.drop t'.capacity.slots)) :=
      ⟨hadd.arrayPlan hplan, hunused, inherited, supers, hinherits, hsupers, rfl⟩
    refine Ends.set_bind (Ends.pure ⟨?_, _, hplanned, ?_⟩)
    · exact (hadd.mono fun _ => Or.inl).trans (hmakes.added (Or.inr hplanned))
    · rw [get?_names_add, if_pos rfl]

/-- Nothing is above itself, so the arrays that an array needs never take its name. -/
theorem Sound.not_arrayNames (h : t.Sound) {x : Identity} {key : Loader × String}
    (hk : t.PlannedName (.ofClass x) key) : ¬t.ArrayNames (TransGen t.Needs x) key := by
  rintro ⟨y, hy, hyk⟩
  obtain ⟨plan, hplan, rfl⟩ := hk
  obtain rfl := h.arrayKey?_inj hyk (arrayKey?_of_arrayPlan hplan)
  exact h.acyclic _ (TransGen.mono (fun _ _ => h.above_of_needs) _ _ hy)

theorem Sound.closedUp_needs (h : t.Sound) (x : Identity) : t.ClosedUp (TransGen t.Needs x) where
  known := by
    intro y hy
    obtain ⟨z, -, hzy⟩ := TransGen.tail'_iff.mp hy
    exact h.known (h.above_of_needs hzy)
  needs := fun _ _ hy hs => hy.tail hs

/-- Where the name of its array is free, the array of a class needs its supertypes'. -/
theorem needs_of_lineage {x : Identity} {plan : ArrayPlan} {superElement : Identity}
    {others : List Identity} (hplan : t.arrayPlan (.ofClass x) = .ok plan)
    (hfree : t.names.get? (plan.loader, plan.name) = none)
    (hl : plan.lineage? = some (superElement, others)) :
    t.Needs x superElement ∧ ∀ other ∈ others, t.Needs x other := by
  have hnone : t.arrayAt? x = none := by
    unfold arrayAt?
    rw [arrayKey?_of_arrayPlan hplan]
    exact hfree
  exact ⟨⟨hnone, plan, superElement, others, hplan, hl, Or.inl rfl⟩,
    fun other ho => ⟨hnone, plan, superElement, others, hplan, hl, Or.inr ho⟩⟩

/-- Making the array of a class takes names of arrays that it needs, and its own at the very end. -/
theorem Requests.makeClass (hr : Requests interfaces request) (h : t.Sound) (x : Identity) :
    Ends (makeArray interfaces request (.ofClass x)) t
      (fun id t' => t.Added (t.ArrayNames (ReflTransGen t.Needs x)) interfaces t' ∧
        ∃ key, t.PlannedName (.ofClass x) key ∧ t'.names.get? key = some id)
      (fun _ t' => t.Added (t.ArrayNames (TransGen t.Needs x)) interfaces t') := by
  have hwiden : ∀ key, t.ArrayNames (TransGen t.Needs x) key ∨ t.PlannedName (.ofClass x) key →
      t.ArrayNames (ReflTransGen t.Needs x) key := by
    rintro key (hk | ⟨plan, hplan, rfl⟩)
    · exact hk.toRefl
    · exact ⟨x, .refl, arrayKey?_of_arrayPlan hplan⟩
  have hmake := hr.make h (h.closedUp_needs x) (.ofClass x)
    (fun plan superElement others hplan hfree hl =>
      ⟨.single (needs_of_lineage hplan hfree hl).1,
        fun other ho => .single ((needs_of_lineage hplan hfree hl).2 other ho)⟩)
    (fun key => h.not_arrayNames)
  exact hmake.mono (fun id t' h' => ⟨h'.1.mono hwiden, h'.2⟩) fun _ _ h' => h'

/-- What stands under the name that a class gives its array is found as its array. -/
theorem Added.arrayAt?_of_plannedName {K : Loader × String → Prop} (h : t.Added K interfaces t')
    {x id : Identity} {key : Loader × String} (hk : t.PlannedName (.ofClass x) key)
    (hname : t'.names.get? key = some id) : t'.arrayAt? x = some id := by
  obtain ⟨plan, hplan, rfl⟩ := hk
  obtain ⟨entry, body, he, -⟩ := arrayPlan_ofClass_eq_ok hplan
  refine Option.bind_eq_some_iff.mpr ⟨_, ?_, hname⟩
  rw [h.arrayKey? (index_lt_of_objectAt he), arrayKey?_of_arrayPlan hplan]

/-- What makes arrays with the help of requests is a request itself. -/
theorem Requests.again (hr : Requests interfaces request) :
    Requests interfaces (makeArray interfaces request) := by
  intro t U x h hU hx
  have hmem : ∀ y, ReflTransGen t.Needs x y → U y := by
    intro y hy
    induction hy with
    | refl => exact hx
    | tail _ hs ih => exact hU.needs _ _ ih hs
  have hwiden : ∀ key, t.ArrayNames (ReflTransGen t.Needs x) key → t.ArrayNames U key := by
    rintro key ⟨y, hy, hk⟩
    exact ⟨y, hmem y hy, hk⟩
  refine (hr.makeClass h x).mono ?_ fun _ _ h' => h'.mono fun key hk => hwiden key hk.toRefl
  rintro id t' ⟨hadd, key, hk, hname⟩
  exact ⟨hadd.mono hwiden, hadd.arrayAt?_of_plannedName hk hname⟩

end

/-- A request that is refused makes nothing. -/
theorem requests_refused (interfaces : List Identity)
    (refusal : ClassTable → ElementType → TableRefusal) :
    Requests interfaces (fun element => do throw (refusal (← get) element)) :=
  fun t _ _ _ _ _ => Ends.get_bind (Ends.throw (Added.refl t _ _))

/-- However deep requests may nest, an array is made with the help of requests of which all holds
that holds where none may nest, and is kept by making arrays with their help. -/
theorem arrayWithin_cases {P : Nat → (ElementType → Building Identity) → Prop}
    (interfaces : List Identity)
    (refused : P 0 fun element => do throw (.heap (.cyclicHierarchy ((← get).elementName element))))
    (again : ∀ depth request, P depth request → P (depth + 1) (makeArray interfaces request))
    (depth : Nat) :
    ∃ request, P depth request ∧ arrayWithin interfaces depth = makeArray interfaces request := by
  induction depth with
  | zero => exact ⟨_, refused, rfl⟩
  | succ depth ih =>
      obtain ⟨request, hP, heq⟩ := ih
      exact ⟨arrayWithin interfaces depth, heq ▸ again depth request hP, rfl⟩

/-- An array is made with the help of requests. -/
theorem arrayWithin_eq (interfaces : List Identity) (depth : Nat) : ∃ request,
    Requests interfaces request ∧ arrayWithin interfaces depth = makeArray interfaces request :=
  arrayWithin_cases (P := fun _ request => Requests interfaces request) interfaces
    (requests_refused interfaces _) (fun _ _ hr => hr.again) depth

/-- The names that a request for the array of an element may take. -/
def WantedNames (t : ClassTable) : ElementType → Loader × String → Prop
  | .primitive type => t.PlannedName (.primitive type)
  | .ofClass x => t.ArrayNames (ReflTransGen t.Needs x)

/-- What a request for an array does: it makes arrays that are wanted for it, and answers with the one
that is then found under the name that the element gives its array. -/
theorem arrayOf_added (h : t.Sound) (element : ElementType) (interfaces : List Identity) :
    Ends (arrayOf element interfaces) t
      (fun id t' => t.Added (t.WantedNames element) interfaces t' ∧
        ∃ key, t.PlannedName element key ∧ t'.names.get? key = some id)
      (fun _ t' => t.Added (t.WantedNames element) interfaces t') := by
  obtain ⟨request, hr, heq⟩ := arrayWithin_eq interfaces t.entries.size
  refine Ends.get_bind ?_
  rw [heq]
  cases element with
  | primitive type =>
      have hmake := hr.make h (U := fun _ => False) ⟨nofun, nofun⟩ (.primitive type)
        (fun plan _ _ hplan _ hl => by rw [lineage?_primitive hplan] at hl; cases hl)
        (fun _ _ => by rintro ⟨_, hx, -⟩; exact hx)
      have hwiden : ∀ key, t.ArrayNames (fun _ => False) key ∨ t.PlannedName (.primitive type) key →
          t.WantedNames (.primitive type) key := by
        rintro key (⟨_, hx, -⟩ | hk)
        · exact hx.elim
        · exact hk
      exact hmake.mono (fun _ _ h' => ⟨h'.1.mono hwiden, h'.2⟩) fun _ _ h' =>
        h'.mono fun key hk => hwiden key (Or.inl hk)
  | ofClass x => exact (hr.makeClass h x).mono (fun _ _ h' => h') fun _ _ h' => h'.mono fun _ => .toRefl

/-- **A request for an array takes array moves only**, whether it ends well or not, and answers with
what is then found as the array of the element, which was loaded. -/
theorem arrayOf_ends (h : t.Sound) (element : ElementType) (interfaces : List Identity) :
    Ends (arrayOf element interfaces) t
      (fun id t' => ReflTransGen (ArrayMove interfaces) t t' ∧
        ∀ x, element = .ofClass x → t'.arrayAt? x = some id ∧ ∃ b, t.bodyAt? x = some b)
      (fun _ t' => ReflTransGen (ArrayMove interfaces) t t') := by
  refine (arrayOf_added h element interfaces).mono ?_ fun _ _ hadd => hadd.moves
  rintro id t' ⟨hadd, key, hk, hname⟩
  refine ⟨hadd.moves, ?_⟩
  rintro x rfl
  refine ⟨hadd.arrayAt?_of_plannedName hk hname, ?_⟩
  obtain ⟨plan, hplan, -⟩ := hk
  obtain ⟨entry, body, he, hb, -⟩ := arrayPlan_ofClass_eq_ok hplan
  exact ⟨body, bodyAt?_eq_some.mpr ⟨entry, he, hb⟩⟩

end ClassTable

end RuntimeTypes
