/-
Where the recursion for arrays ends.

Making an array is one call of a recursion: it asks for the arrays of supertypes, each of
which is a call again.  `Asks` says which calls a computation makes.  With the same
answers to these it comes to the same result, whatever a request would answer otherwise,
and if one of them is refused, it is refused in the same way.  `Unwinds` takes a call
apart into the calls it makes, and these again, down to calls that make none.

The calls unwind because the arrays asked for are those of supertypes, and there are fewer
classes above a supertype (`height`).  Neither its identity nor the length of its chain would
do for a measure.  A class that was declared early and completed late is above classes
with larger identities, and what is off the chain may have a longer chain of its own.

A call adds one entry at most, when the calls it makes have ended.  So a list with a place
for each call, in the order in which they end, tells all that is added.  That the names are
new need not be seen call by call: the table is sound afterwards, so a name leads to one entry,
and to the old one if it was taken before.
-/
import Mathlib.Data.List.Nodup
import Mathlib.Data.List.ReduceOption
import Mathlib.Tactic.Choose
import RuntimeTypes.Proofs.Arrays.Nesting
import RuntimeTypes.Proofs.Table.Lasting

namespace RuntimeTypes

namespace ClassTable

open Relation

variable {α β : Type} {t t' : ClassTable} {interfaces : List Identity}

/-! ### Calls -/

/-- The table that a run leaves behind. -/
def tableAfter : EStateM.Result TableRefusal ClassTable α → ClassTable
  | .ok _ t => t
  | .error _ t => t

/-- A table with a further entry, if there is one. -/
def grown (t : ClassTable) : Option ClassObject → ClassTable
  | none => t
  | some entry => t.add entry

/-- One call of the recursion. -/
structure ArrayCall where
  /-- The array asked for is that of this element. -/
  element : ElementType
  /-- The table as it is when the call is made. -/
  table : ClassTable
  /-- How the call ends. -/
  outcome : EStateM.Result TableRefusal ClassTable Identity

/-- The request ends each of these calls as it is said to end. -/
def Answers (request : ElementType → Building Identity) (calls : List ArrayCall) : Prop :=
  ∀ c ∈ calls, request c.element c.table = c.outcome

/-- Each call is made with the table that the one before has left. -/
inductive Successive : ClassTable → List ArrayCall → ClassTable → Prop
  | nil (t : ClassTable) : Successive t [] t
  | cons (c : ArrayCall) {rest : List ArrayCall} {last : ClassTable} :
      Successive (tableAfter c.outcome) rest last → Successive c.table (c :: rest) last

theorem Successive.append {calls more : List ArrayCall} {last : ClassTable}
    (h : Successive t calls t') (h' : Successive t' more last) :
    Successive t (calls ++ more) last := by
  induction h with
  | nil => exact h'
  | cons c _ ih => exact .cons c (ih h')

/-- Run from a table, a computation makes these calls and no others, adds the entry afterwards, if
any, and comes to the result. -/
structure Asks (m : (ElementType → Building Identity) → Building α) (t : ClassTable)
    (calls : List ArrayCall) (own : Option ClassObject)
    (r : EStateM.Result TableRefusal ClassTable α) : Prop where
  successive : ∃ last, Successive t calls last ∧ tableAfter r = last.grown own
  /-- The answers to the calls settle the result. -/
  settled : ∀ request, Answers request calls → m request t = r
  /-- None of the calls can be left out: if it is refused, so is the whole. -/
  needed : ∀ before c later, calls = before ++ c :: later → ∀ request e t', Answers request before →
    request c.element c.table = .error e t' → m request t = .error e t'

namespace Asks

variable {m : (ElementType → Building Identity) → Building α}
  {k : α → (ElementType → Building Identity) → Building β} {calls more : List ArrayCall}
  {own : Option ClassObject}

/-- What does not ask for anything. -/
theorem const {r : EStateM.Result TableRefusal ClassTable α} (h : ∀ request, m request t = r)
    (hleft : tableAfter r = t.grown own) : Asks m t [] own r where
  successive := ⟨t, .nil t, hleft⟩
  settled := fun request _ => h request
  needed := by
    intro before c later heq
    simp at heq

theorem ask (element : ElementType) (r : EStateM.Result TableRefusal ClassTable Identity) :
    Asks (fun request => request element) t [⟨element, t, r⟩] none r where
  successive := ⟨tableAfter r, .cons ⟨element, t, r⟩ (.nil _), rfl⟩
  settled := fun request h => h ⟨element, t, r⟩ (by simp)
  needed := by
    intro before c later heq request e t' _ hrefused
    obtain ⟨rfl, rfl, -⟩ : before = [] ∧ c = ⟨element, t, r⟩ ∧ later = [] := by
      cases before with
      | nil => simpa [eq_comm] using heq
      | cons => simp at heq
    exact hrefused

/-- One computation after another: the calls of the first are made first. -/
theorem bind {a : α} {r : EStateM.Result TableRefusal ClassTable β}
    (h : Asks m t calls none (.ok a t')) (hk : Asks (k a) t' more own r) :
    Asks (fun request => m request >>= fun a => k a request) t (calls ++ more) own r where
  successive := by
    obtain ⟨_, hcalls, rfl⟩ := h.successive
    obtain ⟨last, hmore, hlast⟩ := hk.successive
    exact ⟨last, hcalls.append hmore, hlast⟩
  settled := by
    intro request hall
    have hfirst := h.settled request fun c hc => hall c (by simp [hc])
    have hrest := hk.settled request fun c hc => hall c (by simp [hc])
    simp only [Bind.bind, EStateM.bind, hfirst, hrest]
  needed := by
    intro before c later heq request e t'' hbefore hrefused
    rcases List.append_eq_append_iff.mp heq with ⟨between, rfl, hmore⟩ | ⟨between, rfl, hmore⟩
    · -- The refused call is one of the second.
      have hfirst := h.settled request fun d hd => hbefore d (by simp [hd])
      have hrest := hk.needed between c later hmore request e t''
        (fun d hd => hbefore d (by simp [hd])) hrefused
      simp only [Bind.bind, EStateM.bind, hfirst, hrest]
    · cases between with
      | nil =>
          have hfirst := h.settled request fun d hd => hbefore d (by simpa using hd)
          have hrest := hk.needed [] c later hmore.symm request e t'' (by simp [Answers]) hrefused
          simp only [Bind.bind, EStateM.bind, hfirst, hrest]
      | cons d rest =>
          obtain ⟨rfl, -⟩ : c = d ∧ _ := by simpa using hmore
          have hfirst := h.needed before c rest rfl request e t'' hbefore hrefused
          simp only [Bind.bind, EStateM.bind, hfirst]

/-- If the first is refused, the second is not run. -/
theorem bind_error {e : TableRefusal} (h : Asks m t calls none (.error e t')) :
    Asks (fun request => m request >>= fun a => k a request) t calls none (.error e t') where
  successive := h.successive
  settled := by
    intro request hall
    simp only [Bind.bind, EStateM.bind, h.settled request hall]
  needed := by
    intro before c later heq request e' t'' hbefore hrefused
    simp only [Bind.bind, EStateM.bind, h.needed before c later heq request e' t'' hbefore hrefused]

end Asks

/-- With this request a computation makes some calls, all of them for elements in `P`, and what it
adds itself is in `Own`. -/
def Traces (request : ElementType → Building Identity) (P : ElementType → Prop)
    (Own : Option ClassObject → Prop) (m : (ElementType → Building Identity) → Building α)
    (t : ClassTable) : Prop :=
  ∃ calls own, Answers request calls ∧ (∀ c ∈ calls, P c.element) ∧ Own own ∧
    Asks m t calls own (m request t)

namespace Traces

variable {request : ElementType → Building Identity} {P : ElementType → Prop}
  {Own : Option ClassObject → Prop} {m m' : (ElementType → Building Identity) → Building α}
  {k : α → (ElementType → Building Identity) → Building β}

theorem congr (h : Traces request P Own m t) (heq : ∀ request, m' request t = m request t) :
    Traces request P Own m' t := by
  obtain ⟨calls, own, hanswers, hP, hown, hasks⟩ := h
  refine ⟨calls, own, hanswers, hP, hown, ?_⟩
  rw [heq request]
  exact
    { successive := hasks.successive
      settled := fun request' h' => (heq request').trans (hasks.settled request' h')
      needed := fun before c later hcalls request' e t' hb hr =>
        (heq request').trans (hasks.needed before c later hcalls request' e t' hb hr) }

theorem const {x : Building α} {own : Option ClassObject} (hown : Own own)
    (h : tableAfter (x t) = t.grown own) : Traces request P Own (fun _ => x) t :=
  ⟨[], own, by simp [Answers], by simp, hown, .const (fun _ => rfl) h⟩

theorem ask {element : ElementType} (h : P element) :
    Traces request P (· = none) (fun request => request element) t :=
  ⟨[⟨element, t, request element t⟩], none, by simp [Answers], by simpa using h, rfl, .ask element _⟩

theorem bind (h : Traces request P (· = none) m t) (hnone : Own none)
    (hk : ∀ a t', m request t = .ok a t' → Traces request P Own (k a) t') :
    Traces request P Own (fun request => m request >>= fun a => k a request) t := by
  obtain ⟨calls, own, hanswers, hP, rfl, hasks⟩ := h
  cases hm : m request t with
  | error e t' =>
      rw [hm] at hasks
      refine ⟨calls, none, hanswers, hP, hnone, ?_⟩
      simpa only [Bind.bind, EStateM.bind, hm] using hasks.bind_error (k := k)
  | ok a t' =>
      obtain ⟨more, own, hanswers', hP', hown, hasks'⟩ := hk a t' hm
      rw [hm] at hasks
      refine ⟨calls ++ more, own, ?_, ?_, hown, ?_⟩
      · exact fun c hc => (List.mem_append.mp hc).elim (hanswers c) (hanswers' c)
      · exact fun c hc => (List.mem_append.mp hc).elim (hP c) (hP' c)
      · simpa only [Bind.bind, EStateM.bind, hm] using hasks.bind hasks'

end Traces

/-! ### What making an array asks for -/

section

variable {request : ElementType → Building Identity} {P : ElementType → Prop}
  {element : ElementType}

/-- The arrays of the further supertypes are asked for one after the other. -/
theorem traces_others (others : List Identity) :
    ∀ {t : ClassTable} (secondary : List Identity), (∀ other ∈ others, P (.ofClass other)) →
      Traces request P (· = none) (fun request => others.foldlM
        (fun secondary other => do
          let array ← request (.ofClass other)
          pure (appendNew secondary [array]))
        secondary) t := by
  induction others with
  | nil => exact fun _ _ => .const rfl rfl
  | cons other rest ih =>
      intro t secondary hall
      simp only [List.foldlM_cons]
      refine .bind (.bind (.ask (hall other (by simp))) rfl fun _ _ _ => .const rfl rfl) rfl ?_
      exact fun out t' _ => ih out fun o ho => hall o (by simp [ho])

/-- The arrays of an element's supertypes are asked for, and no others. -/
theorem traces_supertypeArrays (lineage? : Option (Identity × List Identity))
    (hall : ∀ superElement others, lineage? = some (superElement, others) →
      ∀ s ∈ superElement :: others, P (.ofClass s)) :
    Traces request P (· = none) (fun request => supertypeArrays request lineage?) t := by
  cases lineage? with
  | none => exact .const rfl rfl
  | some lineage =>
      obtain ⟨superElement, others⟩ := lineage
      have hP := hall superElement others rfl
      simp only [supertypeArrays]
      refine .bind (.ask (hP superElement (by simp))) rfl fun superArray t' _ => ?_
      refine .bind (m := fun _ => get) (.const rfl rfl) rfl ?_
      rintro _ _ ⟨⟩
      refine .bind (m := fun _ => Building.lift (t'.loaded superArray)) (.const rfl ?_) rfl ?_
      · cases t'.loaded superArray <;> rfl
      · rintro ⟨superEntry, superBody⟩ t'' _
        exact .bind (traces_others others _ fun o ho => hP o (by simp [ho])) rfl
          fun _ _ _ => .const rfl rfl

/-- The elements whose arrays stand directly above the array of an element. -/
def Lineal (t : ClassTable) (element : ElementType) (above : ElementType) : Prop :=
  ∃ plan superElement others s, t.arrayPlan element = .ok plan ∧
    plan.lineage? = some (superElement, others) ∧ s ∈ superElement :: others ∧ above = .ofClass s

/-- What is left to do when the supertype arrays are there. -/
def addArray (interfaces : List Identity) (plan : ArrayPlan) (lineage : List Identity × List Identity) :
    Building Identity := do
  let t ← get
  let supers ← Building.lift (t.addInterfaces lineage.2 interfaces)
  let secondary := appendNew supers (lineage.1.drop t.capacity.slots)
  set (t.add
    { name := plan.name
      loader := plan.loader
      body? := some (t.arrayBody plan lineage.1 secondary) })
  pure t.freshId

theorem exists_tableAfter_addArray (interfaces : List Identity) (plan : ArrayPlan)
    (lineage : List Identity × List Identity) (t : ClassTable) :
    ∃ own, tableAfter (addArray interfaces plan lineage t) = t.grown own := by
  have hends : Ends (addArray interfaces plan lineage) t (fun _ t' => ∃ own, t' = t.grown own)
      fun _ t' => ∃ own, t' = t.grown own :=
    Ends.get_bind (Ends.lift_bind (fun _ _ => Ends.set_bind (Ends.pure ⟨some _, rfl⟩))
      fun _ _ => ⟨none, rfl⟩)
  cases h : addArray interfaces plan lineage t with
  | ok _ _ => exact hends.of_ok h
  | error _ _ => exact hends.of_error h

theorem makeArray_of_none {plan : ArrayPlan} (h : t.arrayPlan element = .ok plan)
    (hname : t.names.get? (plan.loader, plan.name) = none) :
    makeArray interfaces request element t =
      (supertypeArrays request plan.lineage? >>= addArray interfaces plan) t := by
  have hget : (get : Building ClassTable) t = .ok t t := rfl
  simp only [makeArray, bind, EStateM.bind, hget, h, Building.lift, pure, EStateM.pure, hname]
  rfl

/-- **Making an array asks for arrays of supertypes**, and adds one entry at most when these are
there. -/
theorem traces_makeArray (request : ElementType → Building Identity) (element : ElementType)
    (interfaces : List Identity) (t : ClassTable) :
    Traces request (t.Lineal element) (fun _ => True)
      (fun request => makeArray interfaces request element) t := by
  cases hplan : t.arrayPlan element with
  | error e =>
      have hsame : tableAfter ((throw e : Building Identity) t) = t.grown none := rfl
      exact (Traces.const trivial hsame).congr fun _ => makeArray_of_error hplan
  | ok plan =>
      cases hname : t.names.get? (plan.loader, plan.name) with
      | some id =>
          have hsame : tableAfter ((pure id : Building Identity) t) = t.grown none := rfl
          exact (Traces.const trivial hsame).congr fun _ => makeArray_of_some hplan hname
      | none =>
          have hsupers : Traces request (t.Lineal element) (· = none)
              (fun request => supertypeArrays request plan.lineage?) t :=
            traces_supertypeArrays plan.lineage? fun superElement others hl s hs =>
              ⟨plan, superElement, others, s, hplan, hl, hs, rfl⟩
          refine (hsupers.bind (k := fun lineage _ => addArray interfaces plan lineage) trivial
            ?_).congr
            fun _ => makeArray_of_none hplan hname
          intro lineage t' _
          obtain ⟨own, hown⟩ := exists_tableAfter_addArray interfaces plan lineage t'
          exact .const trivial hown

end

/-! ### Unwinding -/

/-- The call ends, and so do the calls it makes, and the calls that these make, and so on.  There is a
place in the list for each call, in the order in which they end, and in it the entry that
the call adds, if any. -/
inductive Unwinds (interfaces : List Identity) : ArrayCall → List (Option ClassObject) → Prop
  | call {c : ArrayCall} {inner : List ArrayCall} {own : Option ClassObject}
      (log : ArrayCall → List (Option ClassObject)) :
      Asks (fun request => makeArray interfaces request c.element) c.table inner own c.outcome →
      (∀ d ∈ inner, Unwinds interfaces d (log d)) →
      Unwinds interfaces c (inner.flatMap log ++ [own])

/-- Requests for the arrays of classes with less than so many classes above are calls that unwind. -/
structure Unfolds (interfaces : List Identity) (bound : Nat)
    (request : ElementType → Building Identity) : Prop where
  requests : Requests interfaces request
  unwinds : ∀ t x, t.Sound → x.index < t.entries.size → t.height x < bound →
    ∃ made, Unwinds interfaces ⟨.ofClass x, t, request (.ofClass x) t⟩ made

section

variable {request : ElementType → Building Identity} {bound : Nat}

theorem Lineal.above (hs : t.Sound) {element above : ElementType} (h : t.Lineal element above) :
    ∃ x s, element = .ofClass x ∧ above = .ofClass s ∧ t.Above x s := by
  obtain ⟨plan, superElement, others, s, hplan, hl, hmem, rfl⟩ := h
  cases element with
  | primitive type =>
      rw [lineage?_primitive hplan] at hl
      cases hl
  | ofClass x =>
      obtain ⟨hsuper, hothers⟩ := hs.above_of_lineage hplan hl
      refine ⟨x, s, rfl, rfl, ?_⟩
      rcases List.mem_cons.mp hmem with rfl | hmem
      · exact hsuper
      · exact hothers s hmem

/-- When a call is made, the calls before it have added arrays and done nothing else. -/
theorem Requests.added (hr : Requests interfaces request) {calls : List ArrayCall}
    {last : ClassTable} (h : Successive t calls last) (hs : t.Sound)
    (hanswers : Answers request calls)
    (hclasses : ∀ c ∈ calls, ∃ s, c.element = .ofClass s ∧ s.index < t.entries.size) :
    ∀ c ∈ calls, t.Added (fun _ => True) interfaces c.table := by
  induction h with
  | nil => simp
  | @cons c rest last _ ih =>
      have hfirst : c.table.Added (fun _ => True) interfaces (tableAfter c.outcome) := by
        obtain ⟨s, helement, hlt⟩ := hclasses c (by simp)
        have hends := hr.adds hs hlt
        rw [← helement] at hends
        rw [← hanswers c (by simp)]
        cases hc : request c.element c.table with
        | ok _ _ => exact (hends.of_ok hc).1
        | error _ _ => exact hends.of_error hc
      have hrest := ih (hs.arrayMoves hfirst.moves) (fun d hd => hanswers d (by simp [hd]))
        fun d hd => by
          obtain ⟨s, helement, hlt⟩ := hclasses d (by simp [hd])
          exact ⟨s, helement, Nat.lt_of_lt_of_le hlt hfirst.size⟩
      intro d hd
      rcases List.mem_cons.mp hd with rfl | hd
      · exact .refl _ _ _
      · exact hfirst.trans (hrest d hd)

/-- **Making an array unwinds** where there are few enough classes above the element for the calls it
makes to do so. -/
theorem Unfolds.make (hr : Unfolds interfaces bound request) (hs : t.Sound) {element : ElementType}
    (hheight : ∀ x, element = .ofClass x → t.height x ≤ bound) :
    ∃ made, Unwinds interfaces ⟨element, t, makeArray interfaces request element t⟩ made := by
  obtain ⟨calls, own, hanswers, hlineal, -, hasks⟩ := traces_makeArray request element interfaces t
  obtain ⟨last, hsuccessive, -⟩ := hasks.successive
  have hadded := hr.requests.added hsuccessive hs hanswers fun c hc => by
    obtain ⟨x, s, -, helement, habove⟩ := (hlineal c hc).above hs
    exact ⟨s, helement, hs.known habove⟩
  have hinner : ∀ c ∈ calls, ∃ made, Unwinds interfaces c made := by
    intro c hc
    obtain ⟨x, s, rfl, helement, habove⟩ := (hlineal c hc).above hs
    have hlt := hs.known habove
    have hc' := hr.unwinds c.table s (hs.arrayMoves (hadded c hc).moves)
      (Nat.lt_of_lt_of_le hlt (hadded c hc).size) <| by
        rw [(hadded c hc).height_eq hs hlt]
        exact Nat.lt_of_lt_of_le (hs.height_lt habove) (hheight x rfl)
    rwa [← helement, hanswers c hc] at hc'
  choose! log hlog using hinner
  exact ⟨_, .call log hasks hlog⟩

theorem Unfolds.again (hr : Unfolds interfaces bound request) :
    Unfolds interfaces (bound + 1) (makeArray interfaces request) where
  requests := hr.requests.again
  unwinds := by
    intro t x hs _ hheight
    refine hr.make hs ?_
    rintro _ ⟨⟩
    exact Nat.le_of_lt_succ hheight

end

theorem arrayWithin_unfolds (interfaces : List Identity) (depth : Nat) : ∃ request,
    Unfolds interfaces depth request ∧
      arrayWithin interfaces depth = makeArray interfaces request :=
  arrayWithin_cases interfaces
    ⟨requests_refused interfaces _, fun _ _ _ _ hheight => absurd hheight (Nat.not_lt_zero _)⟩
    (fun _ _ hr => hr.again) depth

/-- A request for an array unwinds: no more calls nest than there are entries. -/
theorem Sound.arrayOf_unwinds (hs : t.Sound) (element : ElementType) (interfaces : List Identity) :
    ∃ made, Unwinds interfaces ⟨element, t, arrayOf element interfaces t⟩ made := by
  obtain ⟨request, hr, heq⟩ := arrayWithin_unfolds interfaces t.entries.size
  have hmake : ∃ made, Unwinds interfaces ⟨element, t, makeArray interfaces request element t⟩ made :=
    hr.make hs fun x _ => t.height_le x
  rwa [← heq] at hmake

/-! ### What the calls add -/

/-- What is added stands behind what was there. -/
def Extends (t t' : ClassTable) (made : List (Option ClassObject)) : Prop :=
  t'.entries = t.entries ++ (made.reduceOption.map some).toArray

theorem Extends.append {made more : List (Option ClassObject)} {last : ClassTable}
    (h : t.Extends t' made) (h' : t'.Extends last more) : t.Extends last (made ++ more) := by
  unfold Extends at h h' ⊢
  rw [h', h]
  simp [List.reduceOption_append]

theorem extends_grown (t : ClassTable) (own : Option ClassObject) :
    t.Extends (t.grown own) [own] := by
  cases own with
  | none => simp [Extends, grown]
  | some entry => simp [Extends, grown, add]

theorem Successive.extends {calls : List ArrayCall} {last : ClassTable}
    {log : ArrayCall → List (Option ClassObject)} (h : Successive t calls last)
    (hlog : ∀ c ∈ calls, c.table.Extends (tableAfter c.outcome) (log c)) :
    t.Extends last (calls.flatMap log) := by
  induction h with
  | nil => simp [Extends]
  | cons c _ ih =>
      rw [List.flatMap_cons]
      exact (hlog c (by simp)).append (ih fun d hd => hlog d (by simp [hd]))

/-- **A call adds the entries that are in the list**, in this order. -/
theorem Unwinds.extends {c : ArrayCall} {made : List (Option ClassObject)}
    (h : Unwinds interfaces c made) : c.table.Extends (tableAfter c.outcome) made := by
  induction h with
  | call log hasks _ ih =>
      obtain ⟨last, hsuccessive, hlast⟩ := hasks.successive
      rw [hlast]
      exact (hsuccessive.extends ih).append (extends_grown last _)

/-- **The bound is not needed**: whatever calls itself for the arrays of the supertypes comes to the
same result. -/
theorem Unwinds.unbounded {c : ArrayCall} {made : List (Option ClassObject)}
    (h : Unwinds interfaces c made) {recursion : ElementType → Building Identity}
    (hcalls : ∀ element, recursion element = makeArray interfaces recursion element) :
    recursion c.element c.table = c.outcome := by
  induction h with
  | call log hasks _ ih =>
      rw [hcalls]
      exact hasks.settled recursion ih

/-! ### Every request ends -/

theorem Extends.objectAt {made : List (Option ClassObject)} (h : t.Extends t' made) {i : Nat}
    {entry : ClassObject} (hi : made.reduceOption[i]? = some entry) :
    t'.objectAt (.ofIndex (t.entries.size + i)) = some entry := by
  unfold ClassTable.objectAt
  rw [h, Identity.index_ofIndex, Array.getElem?_append_right (Nat.le_add_right _ _)]
  simp [hi]

/-- A request for the array of an element ends. -/
structure Finishes (t : ClassTable) (element : ElementType) (interfaces : List Identity)
    (made : List (Option ClassObject)) : Prop where
  /-- It unwinds into as many calls as there are places in the list. -/
  unwinds : Unwinds interfaces ⟨element, t, arrayOf element interfaces t⟩ made
  /-- So does what calls itself without a bound. -/
  unbounded : ∀ recursion : ElementType → Building Identity,
    (∀ e, recursion e = makeArray interfaces recursion e) →
      recursion element t = arrayOf element interfaces t
  /-- All that it adds has been added by one of the calls, and each call has added one entry at
  most. -/
  adds : t.Extends (tableAfter (arrayOf element interfaces t)) made
  /-- A new entry is found under its name, to which nothing led before. -/
  named : ∀ (i : Nat) (entry : ClassObject), made.reduceOption[i]? = some entry →
    t.names.get? (entry.loader, entry.name) = none ∧
      (tableAfter (arrayOf element interfaces t)).names.get? (entry.loader, entry.name)
        = some (.ofIndex (t.entries.size + i))
  /-- No two of the new entries have the same name. -/
  distinct : (made.reduceOption.map fun e => (e.loader, e.name)).Nodup

theorem Sound.finishes (hs : t.Sound) (element : ElementType) (interfaces : List Identity) :
    ∃ made, t.Finishes element interfaces made := by
  obtain ⟨made, hunwinds⟩ := hs.arrayOf_unwinds element interfaces
  have hextends : t.Extends (tableAfter (arrayOf element interfaces t)) made := hunwinds.extends
  have hadded : t.Added (t.WantedNames element) interfaces
      (tableAfter (arrayOf element interfaces t)) := by
    have hends := arrayOf_added hs element interfaces
    cases hr : arrayOf element interfaces t with
    | ok _ _ => exact (hends.of_ok hr).1
    | error _ _ => exact hends.of_error hr
  have hfound : ∀ (i : Nat) (entry : ClassObject), made.reduceOption[i]? = some entry →
      (tableAfter (arrayOf element interfaces t)).names.get? (entry.loader, entry.name)
        = some (.ofIndex (t.entries.size + i)) := fun i entry hi =>
    ((hs.arrayMoves hadded.moves).named _ _).mpr ⟨entry, hextends.objectAt hi, rfl⟩
  refine ⟨made, hunwinds, fun recursion => hunwinds.unbounded, hextends, ?_, ?_⟩
  · intro i entry hi
    refine ⟨?_, hfound i entry hi⟩
    cases hold : t.names.get? (entry.loader, entry.name) with
    | none => rfl
    | some old =>
        -- A name that was taken would still lead to the old entry, which is no new one.
        obtain rfl := Option.some.inj ((hadded.kept _ _ hold).symm.trans (hfound i entry hi))
        obtain ⟨_, he, -⟩ := (hs.named _ _).mp hold
        exact absurd (index_lt_of_objectAt he) (Nat.not_lt_of_le (Nat.le_add_right _ _))
  · rw [List.nodup_iff_getElem?_ne_getElem?]
    intro i j hij hj heq
    rw [List.length_map] at hj
    have hi' := List.getElem?_eq_getElem (Nat.lt_trans hij hj)
    have hj' := List.getElem?_eq_getElem hj
    rw [List.getElem?_map, List.getElem?_map, hi', hj'] at heq
    have hkey : (made.reduceOption[i].loader, made.reduceOption[i].name)
        = (made.reduceOption[j].loader, made.reduceOption[j].name) := Option.some.inj heq
    -- One name cannot lead to two places.
    have hsame := (hfound i _ hi').symm.trans ((congrArg _ hkey).trans (hfound j _ hj'))
    have hindex := congrArg Identity.index (Option.some.inj hsame)
    rw [Identity.index_ofIndex, Identity.index_ofIndex] at hindex
    omega

/-- **The recursion for arrays ends.**  Whatever has happened to a table, and whatever array it is
asked for, a request ends after finitely many calls, each of which adds one entry at most, under a
name that was not taken. -/
theorem arrayOf_finishes (rootName : String) (capacity : Display.Capacity) (ops : List Op)
    (element : ElementType) (interfaces : List Identity) :
    ∃ made, ((create rootName capacity).after ops).Finishes element interfaces made :=
  ((sound_create rootName capacity).continues ops).1.finishes element interfaces

end ClassTable

end RuntimeTypes
