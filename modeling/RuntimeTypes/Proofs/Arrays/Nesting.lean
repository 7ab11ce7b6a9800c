/-
How requests for arrays nest.

A request for the array of a class goes on to the classes above it, and some of what it
needs it only gets to see on its way.  What may stop it there is named by `Lacks`: a class
that is gone, or one whose array is found and not loaded.  Nothing else can.  The
interfaces have been looked at when the first array is made.  And no more requests nest than
there are classes above the element.  That number, its `height`, is less for every
supertype and never more than the number of entries, which is the bound that `arrayOf` sets
to the recursion; so the bound is never reached.
-/
import Mathlib.Data.Finset.Card
import RuntimeTypes.Proofs.Arrays.Named

namespace RuntimeTypes

namespace ClassTable

open Relation

variable {t t' : ClassTable} {interfaces : List Identity}

/-! ### Classes above a class -/

open Classical in
/-- The positions of the classes above a class. -/
noncomputable def positionsAbove (t : ClassTable) (x : Identity) : Finset Nat :=
  (Finset.range t.entries.size).filter fun i => TransGen t.Above x (.ofIndex i)

/-- How many classes there are above a class. -/
noncomputable def height (t : ClassTable) (x : Identity) : Nat := (t.positionsAbove x).card

theorem Sound.index_lt_of_above (h : t.Sound) {x s : Identity} (hs : TransGen t.Above x s) :
    s.index < t.entries.size := by
  obtain ⟨y, -, hy⟩ := TransGen.tail'_iff.mp hs
  exact h.known hy

theorem mem_positionsAbove {x : Identity} {i : Nat} :
    i ∈ t.positionsAbove x ↔ i < t.entries.size ∧ TransGen t.Above x (.ofIndex i) := by
  simp only [positionsAbove, Finset.mem_filter, Finset.mem_range]

theorem Sound.mem_positionsAbove (h : t.Sound) {x : Identity} {i : Nat} :
    i ∈ t.positionsAbove x ↔ TransGen t.Above x (.ofIndex i) :=
  ClassTable.mem_positionsAbove.trans ⟨And.right, fun hi => ⟨h.index_lt_of_above hi, hi⟩⟩

theorem height_le (t : ClassTable) (x : Identity) : t.height x ≤ t.entries.size := by
  have hrange : t.positionsAbove x ⊆ Finset.range t.entries.size := fun i hi =>
    Finset.mem_range.mpr (mem_positionsAbove.mp hi).1
  have hle := Finset.card_le_card hrange
  rwa [Finset.card_range] at hle

/-- Above a supertype there are fewer classes: the supertype is not above itself. -/
theorem Sound.height_lt (h : t.Sound) {x s : Identity} (hs : t.Above x s) :
    t.height s < t.height x := by
  have hmore : t.positionsAbove s ⊆ t.positionsAbove x := by
    intro i hi
    exact h.mem_positionsAbove.mpr (TransGen.head hs (h.mem_positionsAbove.mp hi))
  refine Finset.card_lt_card (Finset.ssubset_iff_of_subset hmore |>.mpr ⟨s.index, ?_, ?_⟩)
  · rw [h.mem_positionsAbove, Identity.ofIndex_index]
    exact .single hs
  · rw [h.mem_positionsAbove, Identity.ofIndex_index]
    exact h.acyclic s

namespace Added

variable {K : Loader × String → Prop}

theorem above_iff (h : t.Added K interfaces t') {x s : Identity} (hx : x.index < t.entries.size) :
    t'.Above x s ↔ t.Above x s := by
  unfold Above
  rw [h.bodyAt? hx]

/-- The arrays that are added are above nothing that was there. -/
theorem transGen_above_iff (hs : t.Sound) (h : t.Added K interfaces t') {x s : Identity}
    (hx : x.index < t.entries.size) : TransGen t'.Above x s ↔ TransGen t.Above x s := by
  constructor
  · intro hxs
    induction hxs with
    | single hy => exact .single ((h.above_iff hx).mp hy)
    | tail _ hy ih => exact ih.tail ((h.above_iff (hs.index_lt_of_above ih)).mp hy)
  · intro hxs
    induction hxs with
    | single hy => exact .single ((h.above_iff hx).mpr hy)
    | tail hxy hy ih => exact ih.tail ((h.above_iff (hs.index_lt_of_above hxy)).mpr hy)

theorem height_eq (hs : t.Sound) (h : t.Added K interfaces t') {x : Identity}
    (hx : x.index < t.entries.size) : t'.height x = t.height x := by
  have hsame : t'.positionsAbove x = t.positionsAbove x := by
    ext i
    rw [(hs.arrayMoves h.moves).mem_positionsAbove, hs.mem_positionsAbove,
      h.transGen_above_iff hs hx]
  rw [height, height, hsame]

end Added

/-! ### What a request may run into -/

/-- The class is not there or not loaded, or what is found as its array is not, and this is how that is
refused. -/
def Lacks (t : ClassTable) (x : Identity) (e : TableRefusal) : Prop :=
  ∃ missing, (missing = x ∨ t.arrayAt? x = some missing) ∧ t.loaded missing = .error e

/-- Something is lacking above the class. -/
def LacksAbove (t : ClassTable) (x : Identity) (e : TableRefusal) : Prop :=
  ∃ s, TransGen t.Above x s ∧ t.Lacks s e

theorem LacksAbove.of_above {x y : Identity} {e : TableRefusal} (hxy : t.Above x y)
    (h : t.Lacks y e ∨ t.LacksAbove y e) : t.LacksAbove x e := by
  rcases h with h | ⟨s, hs, h⟩
  · exact ⟨y, .single hxy, h⟩
  · exact ⟨s, .head hxy hs, h⟩

theorem LacksAbove.index_lt {x : Identity} {e : TableRefusal} (h : t.LacksAbove x e) :
    x.index < t.entries.size := by
  obtain ⟨s, hs, -⟩ := h
  obtain ⟨y, ⟨body, hb, -⟩, -⟩ := TransGen.head'_iff.mp hs
  exact Sound.index_lt hb

/-- A class with a body is not refused. -/
theorem loaded_ne_error {id : Identity} {entry : ClassObject} {b : ClassBody} {e : TableRefusal}
    (he : t.objectAt id = some entry) (hb : entry.body? = some b) : t.loaded id ≠ .error e := by
  rw [loaded_eq_ok_iff.mpr ⟨he, hb⟩]
  rintro ⟨⟩

namespace Added

variable {K : Loader × String → Prop} {x : Identity} {e : TableRefusal}

theorem lacks (hs : t.Sound) (h : t.Added K interfaces t') (hx : x.index < t.entries.size)
    (hl : t'.Lacks x e) : t.Lacks x e := by
  obtain ⟨missing, rfl | harray, he⟩ := hl
  · exact ⟨missing, Or.inl rfl, h.loaded hx ▸ he⟩
  · obtain ⟨key, hkey, hname⟩ := Option.bind_eq_some_iff.mp harray
    obtain ⟨entry, hentry, hk⟩ := ((hs.arrayMoves h.moves).named key missing).mp hname
    cases hold : t.objectAt missing with
    | none =>
        obtain ⟨_, _, _, _, _, _, _, _, hbody⟩ := exists_makes_of_new h.moves hold hentry
        exact absurd he (loaded_ne_error hentry hbody)
    | some entry' =>
        have hlt := index_lt_of_objectAt hold
        have hname' : t.names.get? key = some missing :=
          (hs.named key missing).mpr ⟨entry, (h.old missing hlt).symm.trans hentry, hk⟩
        rw [h.arrayKey? hx] at hkey
        exact ⟨missing, Or.inr (Option.bind_eq_some_iff.mpr ⟨key, hkey, hname'⟩),
          h.loaded hlt ▸ he⟩

theorem lacksAbove (hs : t.Sound) (h : t.Added K interfaces t') (hx : x.index < t.entries.size)
    (hl : t'.LacksAbove x e) : t.LacksAbove x e := by
  obtain ⟨s, hxs, hlacks⟩ := hl
  have hxs := (h.transGen_above_iff hs hx).mp hxs
  exact ⟨s, hxs, h.lacks hs (hs.index_lt_of_above hxs) hlacks⟩

end Added

/-! ### Requests that say what is lacking -/

/-- A table in which the interfaces of a request are in order. -/
structure Prepared (t : ClassTable) (interfaces : List Identity) : Prop where
  sound : t.Sound
  areInterfaces : ∀ i ∈ interfaces, ∃ b, t.bodyAt? i = some b ∧ b.shape = .interface

namespace Prepared

theorem arrayMoves (h : t.Prepared interfaces) (hm : ReflTransGen (ArrayMove interfaces) t t') :
    t'.Prepared interfaces :=
  ⟨h.sound.arrayMoves hm, Archive.areInterfaces_mono (grows_arrayMoves hm).bodies h.areInterfaces⟩

theorem addInterfaces (h : t.Prepared interfaces) (supers : List Identity) :
    ∃ out, t.addInterfaces supers interfaces = .ok out := by
  have hall := h.areInterfaces
  clear h
  induction interfaces generalizing supers with
  | nil => exact ⟨supers, rfl⟩
  | cons i rest ih =>
      obtain ⟨b, hb, hshape⟩ := hall i (by simp)
      obtain ⟨entry, he, hbody⟩ := bodyAt?_eq_some.mp hb
      have hfirst : t.addInterface supers i
          = .ok (appendNew supers (i :: b.ancestry.secondary)) := by
        unfold addInterface
        rw [loaded_eq_ok_iff.mpr ⟨he, hbody⟩]
        exact if_pos hshape
      obtain ⟨out, hout⟩ := ih (appendNew supers (i :: b.ancestry.secondary))
        fun j hj => hall j (by simp [hj])
      refine ⟨out, ?_⟩
      unfold ClassTable.addInterfaces at hout ⊢
      rw [List.foldlM_cons, hfirst]
      exact hout

theorem of_arrayMoves (h : t.Sound) (hm : ReflTransGen (ArrayMove interfaces) t t') :
    t' = t ∨ t.Prepared interfaces := by
  rcases hm.cases_head with rfl | ⟨t₁, ⟨element, hmove⟩, -⟩
  · exact Or.inl rfl
  · cases hmove with
    | array _ _ plan chain secondary hmakes => exact Or.inr ⟨h, hmakes.areInterfaces⟩

end Prepared

/-- Requests for the arrays of classes with less than so many classes above are only refused for
something that is lacking there. -/
structure Explains (interfaces : List Identity) (bound : Nat)
    (request : ElementType → Building Identity) : Prop where
  requests : Requests interfaces request
  refused : ∀ t x, t.Prepared interfaces → x.index < t.entries.size → t.height x < bound →
    Ends (request (.ofClass x)) t (fun _ _ => True) fun e _ => t.Lacks x e ∨ t.LacksAbove x e

section

variable {request : ElementType → Building Identity} {bound : Nat}

/-- A request that is not refused finds the array of the class. -/
theorem Explains.finds (hr : Explains interfaces bound request) (h : t.Prepared interfaces)
    {x : Identity} (hx : x.index < t.entries.size) (hheight : t.height x < bound) :
    Ends (request (.ofClass x)) t
      (fun array t' => t.Added (fun _ => True) interfaces t' ∧ t'.arrayAt? x = some array)
      fun e _ => t.Lacks x e ∨ t.LacksAbove x e :=
  ((hr.requests.adds h.sound hx).and (hr.refused t x h hx hheight)).mono
    (fun _ _ h' => h'.1) fun _ _ h' => h'.2

/-- The requests for the arrays of the further supertypes of a class. -/
theorem Explains.others (hr : Explains interfaces bound request) {x : Identity}
    (others : List Identity) : ∀ {t : ClassTable} (secondary : List Identity),
      t.Prepared interfaces → x.index < t.entries.size → t.height x ≤ bound →
      (∀ other ∈ others, t.Above x other) →
      Ends (others.foldlM
          (fun secondary other => do
            let array ← request (.ofClass other)
            pure (appendNew secondary [array]))
          secondary) t (fun _ t' => t'.Prepared interfaces) fun e _ => t.LacksAbove x e := by
  induction others with
  | nil => exact fun _ h _ _ _ => Ends.pure h
  | cons other rest ih =>
      intro t secondary h hx hheight hall
      rw [List.foldlM_cons]
      have habove := hall other (by simp)
      have hfirst : Ends (do
            let array ← request (.ofClass other)
            pure (appendNew secondary [array])) t
          (fun _ t' => t.Added (fun _ => True) interfaces t') fun e _ => t.LacksAbove x e :=
        (hr.finds h (h.sound.known habove)
          (Nat.lt_of_lt_of_le (h.sound.height_lt habove) hheight)).bind
          (fun _ _ h' => Ends.pure h'.1) fun _ _ => .of_above habove
      refine hfirst.bind ?_ fun _ _ h' => h'
      intro out t' hadd
      have hrest := ih out (h.arrayMoves hadd.moves) (Nat.lt_of_lt_of_le hx hadd.size)
        (by rwa [hadd.height_eq h.sound hx])
        fun o ho => (hadd.above_iff hx).mpr (hall o (by simp [ho]))
      exact hrest.mono (fun _ _ h' => h') fun _ _ => hadd.lacksAbove h.sound hx

/-- The requests for the arrays of an element's supertypes. -/
theorem Explains.supertypes (hr : Explains interfaces bound request) (h : t.Prepared interfaces)
    {element : ElementType} {plan : ArrayPlan} (hplan : t.arrayPlan element = .ok plan)
    (hheight : ∀ x, element = .ofClass x → t.height x ≤ bound) :
    Ends (supertypeArrays request plan.lineage?) t (fun _ t' => t'.Prepared interfaces)
      fun e _ => ∃ x, element = .ofClass x ∧ t.LacksAbove x e := by
  cases hl : plan.lineage? with
  | none => exact Ends.pure h
  | some lineage =>
      obtain ⟨superElement, others⟩ := lineage
      cases element with
      | primitive type =>
          rw [lineage?_primitive hplan] at hl
          cases hl
      | ofClass x =>
          obtain ⟨hsuper, hothers⟩ := h.sound.above_of_lineage hplan hl
          obtain ⟨entry, body, hentry, -⟩ := arrayPlan_ofClass_eq_ok hplan
          have hx := index_lt_of_objectAt hentry
          have hle := hheight x rfl
          simp only [supertypeArrays]
          refine (hr.finds h (h.sound.known hsuper)
            (Nat.lt_of_lt_of_le (h.sound.height_lt hsuper) hle)).bind ?_
            fun _ _ h' => ⟨x, rfl, .of_above hsuper h'⟩
          rintro superArray t' ⟨hadd, ha⟩
          refine Ends.get_bind (Ends.lift_bind ?_ ?_)
          · rintro ⟨superEntry, superBody⟩ -
            refine (hr.others others superBody.ancestry.secondary (h.arrayMoves hadd.moves)
              (Nat.lt_of_lt_of_le hx hadd.size) (by rwa [hadd.height_eq h.sound hx])
              fun o ho => (hadd.above_iff hx).mpr (hothers o ho)).bind ?_
              fun _ _ h' => ⟨x, rfl, hadd.lacksAbove h.sound hx h'⟩
            exact fun _ _ h' => Ends.pure h'
          · intro e he
            exact ⟨x, rfl, superElement, .single hsuper,
              hadd.lacks h.sound (h.sound.known hsuper) ⟨superArray, Or.inr ha, he⟩⟩

/-- Making an array is refused at once, or for what is lacking above the element. -/
theorem Explains.make (hr : Explains interfaces bound request) (h : t.Prepared interfaces)
    {element : ElementType} (hheight : ∀ x, element = .ofClass x → t.height x ≤ bound) :
    Ends (makeArray interfaces request element) t (fun _ _ => True) fun e t' =>
      (t.arrayPlan element = .error e ∧ t' = t) ∨ ∃ x, element = .ofClass x ∧ t.LacksAbove x e := by
  refine Ends.get_bind (Ends.lift_bind ?_ fun _ he => Or.inl ⟨he, rfl⟩)
  intro plan hplan
  refine Ends.get_bind ?_
  split
  · exact Ends.pure trivial
  · refine (hr.supertypes h hplan hheight).bind ?_ fun _ _ => Or.inr
    rintro ⟨chain, inherited⟩ t' h'
    refine Ends.get_bind (Ends.lift_bind (fun _ _ => Ends.set_bind (Ends.pure trivial)) ?_)
    intro e he
    obtain ⟨out, hout⟩ := h'.addInterfaces inherited
    rw [hout] at he
    cases he

theorem loaded_of_arrayPlan_error {x : Identity} {e : TableRefusal}
    (h : t.arrayPlan (.ofClass x) = .error e) : t.loaded x = .error e := by
  simp only [arrayPlan] at h
  cases hl : t.loaded x with
  | error e' => simpa [hl, bind, Except.bind] using h
  | ok found => simp [hl, bind, Except.bind] at h

/-- One more request may nest where there may be one more class above. -/
theorem Explains.again (hr : Explains interfaces bound request) :
    Explains interfaces (bound + 1) (makeArray interfaces request) where
  requests := hr.requests.again
  refused := by
    intro t x h _ hheight
    have hle : ∀ y, ElementType.ofClass x = .ofClass y → t.height y ≤ bound := by
      rintro _ ⟨⟩
      exact Nat.le_of_lt_succ hheight
    refine (hr.make h hle).mono (fun _ _ _ => trivial) ?_
    rintro e t' (⟨he, -⟩ | ⟨_, ⟨⟩, hlacks⟩)
    · exact Or.inl ⟨x, Or.inl rfl, loaded_of_arrayPlan_error he⟩
    · exact Or.inr hlacks

end

/-- No class has less than no classes above it. -/
theorem explains_refused (interfaces : List Identity)
    (refusal : ClassTable → ElementType → TableRefusal) :
    Explains interfaces 0 (fun element => do throw (refusal (← get) element)) where
  requests := requests_refused interfaces refusal
  refused := fun _ _ _ _ hheight => absurd hheight (Nat.not_lt_zero _)

/-- As many requests may nest as there may be classes above. -/
theorem arrayWithin_explains (interfaces : List Identity) (depth : Nat) : ∃ request,
    Explains interfaces depth request ∧
      arrayWithin interfaces depth = makeArray interfaces request :=
  arrayWithin_cases interfaces (explains_refused interfaces _) (fun _ _ hr => hr.again) depth

/-- **A request whose interfaces are in order is refused at once, or for what is lacking** above the
element. -/
theorem arrayOf_explained (h : t.Prepared interfaces) (element : ElementType) :
    Ends (arrayOf element interfaces) t (fun _ _ => True) fun e t' =>
      (t.arrayPlan element = .error e ∧ t' = t) ∨ ∃ x, element = .ofClass x ∧ t.LacksAbove x e := by
  obtain ⟨request, hr, heq⟩ := arrayWithin_explains interfaces t.entries.size
  refine Ends.get_bind ?_
  rw [heq]
  exact hr.make h fun x _ => t.height_le x

end ClassTable

end RuntimeTypes
