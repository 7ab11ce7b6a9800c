/-
Chains of arrays.

The chain of an array is the root and then the arrays of the classes on the chain of its
element, in their order.  For an array that is made goes on from the array of its
element's superclass, whose chain is of that kind already: `Stacked` is the invariant, and
the steps that keep a table orderly keep it too.

So what is asked about chains has the same answer one level up.  Different classes have
different arrays, and the lineages of two arrays part where those of their elements do.

The root class has to have a name of its own, as for covariance.
-/
import RuntimeTypes.Proofs.Arrays.Covariance
import RuntimeTypes.Proofs.Capacity.Answers

namespace RuntimeTypes

/-- Lists of corresponding elements part at corresponding places. -/
theorem lastCommon?_of_forall₂ {α β : Type} [DecidableEq α] [DecidableEq β] {R : α → β → Prop}
    (hR : Relator.BiUnique R) {as bs : List α} {as' bs' : List β} (ha : List.Forall₂ R as as')
    (hb : List.Forall₂ R bs bs') : Option.Rel R (lastCommon? as bs) (lastCommon? as' bs') := by
  induction ha generalizing bs bs' with
  | nil => exact .none
  | @cons a a' as as' hfirst _ ih =>
      cases hb with
      | nil => exact .none
      | @cons b b' bs bs' hother hrest =>
          simp only [lastCommon?, Relator.rel_eq hR hfirst hother]
          split
          · refine .some ?_
            have h := ih hrest
            generalize lastCommon? as bs = c at h ⊢
            generalize lastCommon? as' bs' = c' at h ⊢
            cases h with
            | none => exact hfirst
            | some h => exact h
          · exact .none

namespace ClassTable

open Relation

variable {t t' : ClassTable} {made : ArrayLog} {log : LoadLog}
  {interfaces chain secondary : List Identity}
  {element : ElementType} {plan : ArrayPlan}

/-! ### The chain of one array -/

/-- The chain of an array is the root and then the arrays of the classes on the chain of its
element. -/
def ChainOfArrays (t : ClassTable) (element array : ClassBody) : Prop :=
  ∃ arrays, array.ancestry.chain = root :: arrays ∧
    List.Forall₂ (fun c C => t.arrayAt? c = some C) element.ancestry.chain arrays

theorem ChainOfArrays.grow (hg : Grows t t') {xb ab : ClassBody} (h : t.ChainOfArrays xb ab) :
    t'.ChainOfArrays xb ab := by
  obtain ⟨arrays, hchain, harrays⟩ := h
  exact ⟨arrays, hchain, harrays.imp fun _ _ => hg.arrayAt?⟩

/-- The invariant: the chain of whatever is found as an array is of this kind. -/
def Stacked (t : ClassTable) : Prop :=
  ∀ x array, t.arrayAt? x = some array → ∃ xb ab, t.bodyAt? x = some xb ∧
    t.bodyAt? array = some ab ∧ t.ChainOfArrays xb ab

theorem Stacked.grow (h : t.Stacked) (hk : SameArrays t t') : t'.Stacked := by
  intro x array ha
  obtain ⟨xb, ab, hx, hab, hchain⟩ := h x array (hk.found x array ha)
  exact ⟨xb, ab, hk.grows.bodies x xb hx, hk.grows.bodies array ab hab, hchain.grow hk.grows⟩

/-- The array of a class goes on from the array of the class's superclass. -/
theorem Makes.chainOfArrays {x : Identity} (hm : t.Makes (.ofClass x) interfaces plan chain secondary)
    (hs : t.Sound) (ho : t.Orderly made) (hc : Chronicle t.bodyAt? log t) (h : t.Stacked) :
    ∃ xb, t.bodyAt? x = some xb ∧ t.ChainOfArrays xb (t.arrayBody plan chain secondary) := by
  obtain ⟨entry, xb, he, hb, hplan⟩ := arrayPlan_ofClass_eq_ok hm.planned
  have hx : t.bodyAt? x = some xb := bodyAt?_eq_some.mpr ⟨entry, he, hb⟩
  refine ⟨xb, hx, ?_⟩
  by_cases hroot : x = root
  · subst hroot
    obtain ⟨rootBody, hf⟩ := hm.founded_none hs hc (by rw [hplan]; simp)
    obtain rfl := Option.some.inj (hx.symm.trans hf.superAt)
    have hempty := hc.coherent.chain_root hx
    refine ⟨[], ?_, ?_⟩
    · show chain = _
      rw [hf.chain_eq, hempty]
      rfl
    · rw [hempty]
      exact .nil
  · obtain ⟨p, pb, array, ab, hf⟩ := hm.foundedOn (ho.raised hc) hc hx hroot
      (by rw [hplan]; simp [hroot])
    obtain ⟨pb', ab', hp, hab, arrays, hchain, harrays⟩ := h p array hf.arrayOf
    obtain rfl := Option.some.inj (hf.superAt.symm.trans hp)
    obtain rfl := Option.some.inj (hf.founded.superAt.symm.trans hab)
    refine ⟨arrays ++ [array], ?_, ?_⟩
    · show chain = _
      rw [hf.founded.chain_eq, hchain]
      rfl
    · rw [hf.chain_super]
      exact List.rel_append harrays (.cons hf.arrayOf .nil)

/-! ### Operations -/

theorem Makes.stacked (hm : t.Makes element interfaces plan chain secondary) (hs : t.Sound)
    (ho : t.Orderly made) (hc : Chronicle t.bodyAt? log t) (h : t.Stacked) :
    (t.add
      { name := plan.name
        loader := plan.loader
        body? := some (t.arrayBody plan chain secondary) }).Stacked := by
  have hg := Grows.add (t := t)
    { name := plan.name
      loader := plan.loader
      body? := some (t.arrayBody plan chain secondary) } hm.unused
  intro x array ha
  rcases ho.neat.arrayAt?_add hs hm.unused ha with ⟨rfl, hkey⟩ | ha
  · obtain rfl := hm.arrayAt?_freshId hs hkey
    obtain ⟨xb, hx, hchain⟩ := hm.chainOfArrays hs ho hc h
    exact ⟨xb, _, hg.bodies x xb hx, by rw [bodyAt?_add, if_pos rfl], hchain.grow hg⟩
  · obtain ⟨xb, ab, hx, hab, hchain⟩ := h x array ha
    exact ⟨xb, ab, hg.bodies x xb hx, hg.bodies array ab hab, hchain.grow hg⟩

theorem stacked_arrayMoves (hm : ReflTransGen (ArrayMove interfaces) t t') (hs : t.Sound)
    (hc : Chronicle t.bodyAt? log t) (ho : t.Orderly made) (h : t.Stacked) : t'.Stacked := by
  induction hm with
  | refl => exact h
  | tail hmoves hmove ih =>
      have hadded := orderly_arrayMoves hmoves hs hc ho
      obtain ⟨element, hmove⟩ := hmove
      cases hmove with
      | array _ _ plan chain secondary hmakes =>
          exact hmakes.stacked hadded.sound hadded.orderly hadded.chronicle ih

/-- Every plain operation keeps the chains of arrays as they are to be. -/
theorem Ran.stacked {op : Op} {reply : Except TableRefusal Reply} (hr : Ran t op reply t')
    (hplain : op.Plain) (hs : t.Sound) (hc : Chronicle t.bodyAt? log t) (ho : t.Orderly made)
    (h : t.Stacked) : t'.Stacked := by
  cases hr with
  | refused op e => exact h
  | @newLoader parent _ hm =>
      cases hm with
      | newLoader _ _ => exact h.grow (ho.neat.sameArrays_loader (t.loaders.add parent))
  | define hm =>
      cases hm with
      | define d body sb _ hfree hl =>
          have hbody : ∀ b, some body = some b → b.shape.isArray = false := by
            rintro b ⟨⟩
            exact hl.notArray
          exact h.grow (ho.neat.sameArrays_add hs hfree hplain hbody)
  | declare hm =>
      cases hm with
      | declare loader name _ hfree =>
          exact h.grow (ho.neat.sameArrays_add hs hfree hplain (by rintro _ ⟨⟩))
  | complete hm =>
      cases hm with
      | complete id d entry body sb he hnone hl =>
          exact h.grow (ho.neat.sameArrays_complete he hnone hl.notArray)
  | unload => exact hplain.elim
  | array hm _ => exact stacked_arrayMoves hm hs hc ho h
  | arrayRefused e hm => exact stacked_arrayMoves hm hs hc ho h

theorem stacked_create (rootName : String) (capacity : Display.Capacity) :
    (create rootName capacity).Stacked := by
  intro x array ha
  rw [arrayAt?_create] at ha
  cases ha

/-! ### Asking for an array again -/

/-- Whoever asks for the array of the class is answered with this one, and nothing has to be made. -/
def HasArray (t : ClassTable) (x array : Identity) : Prop :=
  ∀ interfaces, arrayOf (.ofClass x) interfaces t = .ok array t

theorem hasArray_of_arrayAt? {x array : Identity} {b : ClassBody} (hb : t.bodyAt? x = some b)
    (ha : t.arrayAt? x = some array) : t.HasArray x array := by
  intro interfaces
  obtain ⟨request, -, heq⟩ := arrayWithin_eq interfaces t.entries.size
  obtain ⟨entry, he⟩ := bodyAt?_eq_some.mp hb
  have hplan : ∃ plan, t.arrayPlan (.ofClass x) = .ok plan :=
    ⟨_, by rw [arrayPlan, loaded_eq_ok_iff.mpr he]; rfl⟩
  obtain ⟨plan, hplan⟩ := hplan
  have hname : t.names.get? (plan.loader, plan.name) = some array := by
    rwa [arrayAt?, arrayKey?_of_arrayPlan hplan] at ha
  show arrayWithin interfaces t.entries.size (.ofClass x) t = .ok array t
  rw [heq]
  exact makeArray_of_some hplan hname

/-! ### Chains one level up -/

/-- A class has one array at most, and an array is that of one class at most. -/
theorem Sound.arrayAt?_biUnique (hs : t.Sound) :
    Relator.BiUnique fun c C => t.arrayAt? c = some C :=
  ⟨fun _ _ _ h h' => hs.arrayAt?_inj h h', fun _ _ _ h h' => Option.some.inj (h.symm.trans h')⟩

/-- On chains there are classes and arrays only. -/
theorem Orderly.interface_not_mem_chain (ho : t.Orderly made) (hs : t.Sound)
    (hc : Chronicle t.bodyAt? log t) {x y : Identity} {xb yb : ClassBody}
    (hx : t.bodyAt? x = some xb) (hy : t.bodyAt? y = some yb) (hinterface : yb.shape = .interface) :
    y ∉ xb.ancestry.chain := by
  intro hmem
  cases hn : xb.shape.isArray with
  | true =>
      rcases (ho.records x xb hx hn).chainArrays y hmem with rfl | ⟨yb', hy', harray⟩
      · obtain ⟨rootBody, hroot, hshape, -⟩ := hc.rootAt hs
        obtain rfl := Option.some.inj (hy.symm.trans hroot)
        rw [hinterface] at hshape
        cases hshape
      · obtain rfl := Option.some.inj (hy.symm.trans hy')
        rw [hinterface] at harray
        cases harray
  | false =>
      obtain ⟨yb', hy', hshape⟩ := (hc.lawful x xb hx hn).superclasses y hmem
      obtain rfl := Option.some.inj (hy.symm.trans hy')
      rw [hinterface] at hshape
      cases hshape

end ClassTable

namespace Program

open ClassTable

section

variable {p : Program ClassTable} {log : LoadLog} {made : ArrayLog}
  {found : List (Identity × Identity)}

theorem Kept.stacked_step (h : p.Kept log made found) (hst : p.heap.store.Stacked) {e : Event}
    (hplain : e.Plain) : (p.step e).heap.store.Stacked := by
  by_cases he : ∃ op, e = .perform op
  · obtain ⟨op, rfl⟩ := he
    exact (p.perform_ran h.recorded.sound op).1.stacked hplain h.recorded.sound
      h.recorded.chronicle h.orderly hst
  · rw [(h.recorded.idle fun op hop => he ⟨op, hop⟩).1]
    exact hst

/-- **The chains of arrays stay as they are to be**, whatever plain events there are. -/
theorem Kept.stacked_after (h : p.Kept log made found) (hst : p.heap.store.Stacked)
    {events : List Event} (hplain : ∀ e ∈ events, e.Plain) :
    (p.after events).heap.store.Stacked := by
  induction events generalizing p log made found with
  | nil => exact hst
  | cons e rest ih =>
      have he := hplain e List.mem_cons_self
      exact ih (h.step he) (h.stacked_step hst he) fun e' he' => hplain e' (List.mem_cons_of_mem e he')

section

variable {s : Session} {rx ry rX rY : HandleRef} {cx cy cX cY : Snapshot}

/-- The lineage of an array, as a session holds it. -/
theorem lineage_array (hst : p.heap.store.Stacked)
    (hf : s.Faithful p.heap.store.bodyAt?) (hx : s.Holds rx cx) (hX : s.Holds rX cX)
    (ha : p.heap.store.arrayAt? cx.identity = some cX.identity) :
    ∃ arrays, cX.lineage = root :: arrays ∧
      List.Forall₂ (fun c C => p.heap.store.arrayAt? c = some C) cx.lineage arrays := by
  obtain ⟨xb, hxb, hxt⟩ := hf.trueTo hx
  obtain ⟨Xb, hXb, hXt⟩ := hf.trueTo hX
  obtain ⟨xb', Xb', hxb', hXb', arrays, hchain, harrays⟩ := hst _ _ ha
  obtain rfl := Option.some.inj (hxb.symm.trans hxb')
  obtain rfl := Option.some.inj (hXb.symm.trans hXb')
  refine ⟨arrays ++ [cX.identity], ?_, ?_⟩
  · rw [Snapshot.lineage, hXt.chain, hchain]
    rfl
  · rw [Snapshot.lineage, hxt.chain]
    exact List.rel_append harrays (.cons ha .nil)

/-- Interfaces are on no chain that a session holds. -/
theorem Kept.isSubclass_iff (h : p.Kept log made found) (hf : s.Faithful p.heap.store.bodyAt?)
    (hx : s.Holds rx cx) (hy : s.Holds ry cy) :
    cx.isSubclass cy = true ↔ cy.identity ∈ cx.lineage := by
  obtain ⟨xb, hxb, hxt⟩ := hf.trueTo hx
  obtain ⟨yb, hyb, hyt⟩ := hf.trueTo hy
  refine Snapshot.isSubclass_iff fun hshape => ?_
  rw [hxt.chain]
  exact h.orderly.interface_not_mem_chain h.recorded.sound h.recorded.chronicle hxb hyb
    (hyt.shape ▸ hshape)

/-- An array is on the chain of another exactly if its element is on the chain of the other's. -/
theorem Kept.isSubclass_arrays (h : p.Kept log made found) (hst : p.heap.store.Stacked)
    (hf : s.Faithful p.heap.store.bodyAt?) (hx : s.Holds rx cx) (hy : s.Holds ry cy)
    (hX : s.Holds rX cX) (hY : s.Holds rY cY)
    (hxX : p.heap.store.arrayAt? cx.identity = some cX.identity)
    (hyY : p.heap.store.arrayAt? cy.identity = some cY.identity) :
    cX.isSubclass cY = cx.isSubclass cy := by
  obtain ⟨arrays, hlineage, harrays⟩ := lineage_array hst hf hx hX hxX
  -- The root is no array.
  have hroot : cY.identity ≠ root := by
    intro he
    obtain ⟨-, -, Yb, -, hYb, harray, -⟩ := h.orderly.mirrors _ _ hyY
    obtain ⟨rootBody, hrootBody, hshape, -⟩ := h.recorded.chronicle.rootAt h.recorded.sound
    rw [he] at hYb
    obtain rfl := Option.some.inj (hYb.symm.trans hrootBody)
    rw [hshape] at harray
    cases harray
  rw [Bool.eq_iff_iff, h.isSubclass_iff hf hX hY, h.isSubclass_iff hf hx hy, hlineage,
    List.mem_cons, or_iff_right hroot]
  exact (List.rel_mem h.recorded.sound.arrayAt?_biUnique hyY harrays).symm

/-- The lineages of two arrays part where those of their elements do. -/
theorem Kept.commonAncestor_arrays (h : p.Kept log made found) (hst : p.heap.store.Stacked)
    (hf : s.Faithful p.heap.store.bodyAt?) (hx : s.Holds rx cx) (hy : s.Holds ry cy)
    (hX : s.Holds rX cX) (hY : s.Holds rY cY)
    (hxX : p.heap.store.arrayAt? cx.identity = some cX.identity)
    (hyY : p.heap.store.arrayAt? cy.identity = some cY.identity) :
    ∃ c C, p.heap.store.arrayAt? c = some C ∧ cx.commonAncestor cy = .ok c ∧
      cX.commonAncestor cY = .ok C := by
  obtain ⟨arraysx, hlineagex, harraysx⟩ := lineage_array hst hf hx hX hxX
  obtain ⟨arraysy, hlineagey, harraysy⟩ := lineage_array hst hf hy hY hyY
  have hrel := lastCommon?_of_forall₂ h.recorded.sound.arrayAt?_biUnique harraysx harraysy
  obtain ⟨c, -, hc, -⟩ := h.recorded.deepestCommon hf hx hy
  rw [Snapshot.lastCommon?_of_commonAncestor hc] at hrel
  cases hlast : lastCommon? arraysx arraysy with
  | none => rw [hlast] at hrel; cases hrel
  | some C =>
      rw [hlast] at hrel
      cases hrel with
      | some hC =>
          refine ⟨c, C, hC, hc, Snapshot.commonAncestor_eq_ok ?_⟩
          rw [hlineagex, hlineagey, lastCommon?, if_pos rfl, hlast]
          rfl

end

end

/-- What the arrays `X` and `Y` of `x` and `y` have to do with each other, as far as chains go. -/
structure FollowElements (p : Program ClassTable) (x y X Y : Identity) : Prop where
  /-- The chain of the array is the root and then the arrays of the classes on the element's. -/
  chain : ∃ xb Xb arrays, p.heap.store.bodyAt? x = some xb ∧ p.heap.store.bodyAt? X = some Xb ∧
    Xb.ancestry.chain = root :: arrays ∧
      List.Forall₂ p.heap.store.HasArray xb.ancestry.chain arrays
  /-- Subclass checks have the same answer. -/
  isSubclass : ∀ (i : Nat) (s : Session) (rx ry rX rY : HandleRef) (cx cy cX cY : Snapshot),
    p.sessions[i]? = some s → s.Holds rx cx → s.Holds ry cy → s.Holds rX cX → s.Holds rY cY →
      cx.identity = x → cy.identity = y → cX.identity = X → cY.identity = Y →
        ∃ answer, s.isSubclass rX rY = .ok answer ∧ s.isSubclass rx ry = .ok answer
  /-- The common ancestor is the array of the common ancestor. -/
  commonAncestor : ∀ (i : Nat) (s : Session) (rx ry rX rY : HandleRef) (cx cy cX cY : Snapshot),
    p.sessions[i]? = some s → s.Holds rx cx → s.Holds ry cy → s.Holds rX cX → s.Holds rY cY →
      cx.identity = x → cy.identity = y → cX.identity = X → cY.identity = Y →
        ∃ c C, p.heap.store.HasArray c C ∧
          ComesTo { session := s, heap := p.heap } rx ry c ∧
          ComesTo { session := s, heap := p.heap } rX rY C

/-- **Chains follow the elements through arrays**: the chain of an array, subclass checks of arrays and
the common ancestors of arrays are what the elements make them. -/
theorem arrays_followElements (rootName : String) (capacity : Display.Capacity)
    (hroot : isArrayName rootName = false) {events : List Event} (hplain : ∀ e ∈ events, e.Plain)
    {x y X Y : Identity}
    (hX : (x, X) ∈ (start (create rootName capacity)).arraysFound events)
    (hY : (y, Y) ∈ (start (create rootName capacity)).arraysFound events) :
    ((start (create rootName capacity)).after events).FollowElements x y X Y := by
  have h := kept_after capacity hroot hplain
  have hst := (kept_start capacity hroot).stacked_after (stacked_create rootName capacity) hplain
  have hloaded : ∀ {c C}, ((start (create rootName capacity)).after events).heap.store.arrayAt? c
      = some C → ((start (create rootName capacity)).after events).heap.store.HasArray c C := by
    intro c C hC
    obtain ⟨cb, -, hcb, -⟩ := hst c C hC
    exact hasArray_of_arrayAt? hcb hC
  have hxX := h.found x X hX
  have hyY := h.found y Y hY
  refine ⟨?_, ?_, ?_⟩
  · obtain ⟨xb, Xb, hxb, hXb, arrays, hchain, harrays⟩ := hst x X hxX
    exact ⟨xb, Xb, arrays, hxb, hXb, hchain, harrays.imp fun _ _ => hloaded⟩
  · rintro i s rx ry rX rY cx cy cX cY hs hrx hry hrX hrY rfl rfl rfl rfl
    have hf := h.recorded.faithful i s hs
    refine ⟨_, hrX.isSubclass hrY, ?_⟩
    rw [hrx.isSubclass hry, h.isSubclass_arrays hst hf hrx hry hrX hrY hxX hyY]
  · rintro i s rx ry rX rY cx cy cX cY hs hrx hry hrX hrY rfl rfl rfl rfl
    have hf := h.recorded.faithful i s hs
    obtain ⟨c, C, hC, hc, hCC⟩ := h.commonAncestor_arrays hst hf hrx hry hrX hrY hxX hyY
    exact ⟨c, C, hloaded hC, h.comesTo hs hrx hry hc, h.comesTo hs hrX hrY hCC⟩

/-- Two classes below a third, their arrays, and a session that has resolved the two classes and the
two arrays and has asked for the common ancestor of the arrays. -/
def arraysOfSiblings : List Event :=
  [.perform (.define (ClassFile.ordinary "A")),
    .perform (.define { ClassFile.ordinary "B" with superclass := some (Identity.ofIndex 1) }),
    .perform (.define { ClassFile.ordinary "C" with superclass := some (Identity.ofIndex 1) }),
    .perform (.arrayOf (.ofClass (Identity.ofIndex 2)) []),
    .perform (.arrayOf (.ofClass (Identity.ofIndex 3)) []),
    .openSession {},
    .request 0 (.resolve (Identity.ofIndex 2)),
    .request 0 (.resolve (Identity.ofIndex 3)),
    .request 0 (.resolve (Identity.ofIndex 6)),
    .request 0 (.resolve (Identity.ofIndex 7)),
    .request 0 (.commonAncestor ⟨0, 2⟩ ⟨0, 3⟩)]

/-- The common ancestor of the two arrays is the array of the class above. -/
theorem arrays_followElements_siblings :
    isArrayName "Object" = false ∧ (∀ e ∈ arraysOfSiblings, e.Plain) ∧
      (start (create "Object" Display.Capacity.standard)).arraysFound arraysOfSiblings
        = [(Identity.ofIndex 2, Identity.ofIndex 6), (Identity.ofIndex 3, Identity.ofIndex 7)] ∧
      (∃ s c, ((start (create "Object" Display.Capacity.standard)).after
          arraysOfSiblings).sessions[0]? = some s ∧ s.Holds ⟨0, 4⟩ c ∧
        c.identity = Identity.ofIndex 5 ∧
        ((start (create "Object" Display.Capacity.standard)).after
          arraysOfSiblings).heap.store.arrayAt? (Identity.ofIndex 1) = some c.identity) ∧
      ((start (create "Object" Display.Capacity.standard)).after
          arraysOfSiblings).FollowElements
        (Identity.ofIndex 2) (Identity.ofIndex 3) (Identity.ofIndex 6) (Identity.ofIndex 7) := by
  have hplain : ∀ e ∈ arraysOfSiblings, e.Plain := by decide
  have hfound : (start (create "Object" Display.Capacity.standard)).arraysFound arraysOfSiblings
      = [(Identity.ofIndex 2, Identity.ofIndex 6), (Identity.ofIndex 3, Identity.ofIndex 7)] := rfl
  refine ⟨rfl, hplain, hfound, ⟨_, _, rfl, ⟨_, rfl, rfl⟩, rfl, rfl⟩, ?_⟩
  exact arrays_followElements "Object" Display.Capacity.standard rfl hplain
    (by rw [hfound]; exact List.mem_cons_self)
    (by rw [hfound]; exact List.mem_cons_of_mem _ List.mem_cons_self)

/-- Where the root is called what the array of `A` would be called, it is found in the place of that
array, and is not below its own array although `A` is below the root. -/
theorem not_followElements_arraysAtRoot :
    (∀ e ∈ arraysAtRoot, e.Plain) ∧
      (start (create "[LA;" Display.Capacity.standard)).arraysFound arraysAtRoot
        = [(Identity.ofIndex 1, root), (root, Identity.ofIndex 2)] ∧
      ¬((start (create "[LA;" Display.Capacity.standard)).after arraysAtRoot).FollowElements
        (Identity.ofIndex 1) root root (Identity.ofIndex 2) := by
  refine ⟨by decide, rfl, fun h => ?_⟩
  obtain ⟨answer, harrays, helements⟩ := h.isSubclass 0 _ ⟨0, 0⟩ ⟨0, 1⟩ ⟨0, 1⟩ ⟨0, 2⟩ _ _ _ _ rfl
    ⟨_, rfl, rfl⟩ ⟨_, rfl, rfl⟩ ⟨_, rfl, rfl⟩ ⟨_, rfl, rfl⟩ rfl rfl rfl rfl
  have hno : answer = false := (Except.ok.inj harrays).symm
  have hyes : answer = true := (Except.ok.inj helements).symm
  rw [hno] at hyes
  cases hyes

end Program

end RuntimeTypes
