/-
Displays fit together.

A session shows the ancestor of a type at a depth by resolving the class in that slot of the
type's display.  Two things make the answers for different types agree.  The display is the
chain as far as there are slots, and what stands on a chain has the chain in front of it for
its own: so the ancestor's display is that of the type up to the ancestor.  And a class that
stands on a chain has been loaded, so it is resolved to the one loaded handle that the
session keeps for it from then on.
-/
import RuntimeTypes.Proofs.Acyclicity
import RuntimeTypes.Proofs.Arrays.Checks
import RuntimeTypes.Proofs.CommonAncestor
import RuntimeTypes.Proofs.Session.Cache
import RuntimeTypes.Proofs.Table.Names

namespace RuntimeTypes

open Relation

/-! ### The capacity of a table -/

namespace ClassTable

theorem Ran.capacity_eq {t t' : ClassTable} {op : Op} {reply : Except TableRefusal Reply}
    (hr : Ran t op reply t') : t'.capacity = t.capacity := by
  cases hr with
  | refused => rfl
  | newLoader hm | define hm | declare hm | complete hm | unload hm => cases hm; rfl
  | array hm | arrayRefused _ hm => exact (grows_arrayMoves hm).capacity

end ClassTable

/-! ### One question -/

/-- The class in the slot is resolved, if the slot is in use. -/
theorem Workspace.serve_ancestorAt {σ : Type} [MetadataSource σ] {w : Workspace σ} {a : HandleRef}
    {ca : Snapshot} (ha : w.session.Holds a ca) (depth : Nat) :
    w.serve (.ancestorAt a depth) =
      match ca.ancestry.superAt? depth with
      | none => (.ok (.type? none), w)
      | some id =>
        match Query.resolve id w with
        | .ok r next => (.ok (.type? (some r)), next)
        | .error e next => (.error e, next) := by
  have hask : Query.ask (fun s => s.snapshot a "super_of_depth") w = .ok ca w :=
    Query.ask_apply (ha.snapshot _)
  simp only [serve, Request.run, Query.ancestorAt, Functor.map, EStateM.map, Query.bind_apply, hask]
  cases ca.ancestry.superAt? depth with
  | none => rfl
  | some id => cases hr : Query.resolve id w <;> simp [hr, EStateM.map]

namespace Program

open ClassTable

variable {p : Program ClassTable} {A : Archive} {log : LoadLog} {i : Nat} {s : Session}

/-! ### Sessions go on -/

theorem request_of_getElem? (hs : p.sessions[i]? = some s) (r : Request) :
    p.request i r = some
      ((Workspace.serve { session := s, heap := p.heap } r).1,
        { heap := (Workspace.serve { session := s, heap := p.heap } r).2.heap
          sessions := p.sessions.setIfInBounds i
            (Workspace.serve { session := s, heap := p.heap } r).2.session }) := by
  simp [request, hs]

theorem step_session (hs : p.sessions[i]? = some s) (e : Event) :
    ∃ s', (p.step e).sessions[i]? = some s' ∧ s.Moves s' := by
  have hlt := (Array.getElem?_eq_some_iff.mp hs).1
  cases e with
  | perform op => exact ⟨s, hs, .refl⟩
  | atGate gate => exact ⟨s, hs, .refl⟩
  | openSession options =>
      refine ⟨s, ?_, .refl⟩
      rw [Program.step, Program.openSession, Array.getElem?_push, if_neg (Nat.ne_of_lt hlt), hs]
  | request j r =>
      cases hj : p.sessions[j]? with
      | none => exact ⟨s, by simpa [Program.step, Program.request, hj] using hs, .refl⟩
      | some asked =>
          have hmoves := Session.serve_moves { session := asked, heap := p.heap } r
          by_cases hij : j = i
          · subst hij
            obtain rfl := Option.some.inj (hs.symm.trans hj)
            refine ⟨_, ?_, hmoves⟩
            simp [Program.step, request_of_getElem? hs, hlt]
          · refine ⟨s, ?_, .refl⟩
            simpa [Program.step, request_of_getElem? hj, Array.getElem?_setIfInBounds, hij] using hs

theorem after_session (hs : p.sessions[i]? = some s) (events : List Event) :
    ∃ s', (p.after events).sessions[i]? = some s' ∧ s.Moves s' := by
  induction events generalizing p s with
  | nil => exact ⟨s, hs, .refl⟩
  | cons e rest ih =>
      obtain ⟨s', hs', hmoves⟩ := step_session hs e
      obtain ⟨s'', hs'', hmoves'⟩ := ih hs'
      exact ⟨s'', hs'', hmoves.trans hmoves'⟩

theorem step_of_request {r : Request} {outcome : Except QueryFailure Answer}
    {p' : Program ClassTable} (h : p.request i r = some (outcome, p')) :
    p.step (.request i r) = p' := by
  simp [Program.step, h]

/-! ### What is shown -/

section

variable {a h : HandleRef} {ca ch : Snapshot} {depth : Nat}

/-- An answer is that the slot is not in use, or the handle of the class in it, which is loaded. -/
theorem Recorded.ancestorAt_answer (hp : p.Recorded A log) (hs : p.sessions[i]? = some s)
    (ha : s.Holds a ca) (hknown : ∀ id ∈ ca.ancestry.chain, ∃ b, A id = some b) {answer : Answer}
    {p' : Program ClassTable} (hask : p.request i (.ancestorAt a depth) = some (.ok answer, p')) :
    (ca.ancestry.superAt? depth = none ∧ answer = .type? none) ∨
      ∃ id r s' cr, ca.ancestry.superAt? depth = some id ∧ answer = .type? (some r) ∧
        p'.sessions[i]? = some s' ∧ s'.Holds r cr ∧ cr.identity = id := by
  have hlt := (Array.getElem?_eq_some_iff.mp hs).1
  rw [request_of_getElem? hs, Workspace.serve_ancestorAt ha] at hask
  cases hat : ca.ancestry.superAt? depth with
  | none =>
      rw [hat] at hask
      obtain ⟨hanswer, -⟩ := Prod.mk.inj (Option.some.inj hask)
      exact Or.inl ⟨rfl, (Except.ok.inj hanswer).symm⟩
  | some id =>
      rw [hat] at hask
      cases hr : Query.resolve id { session := s, heap := p.heap } with
      | error e next =>
          simp only [hr] at hask
          obtain ⟨hanswer, -⟩ := Prod.mk.inj (Option.some.inj hask)
          cases hanswer
      | ok r next =>
          simp only [hr] at hask
          obtain ⟨hanswer, rfl⟩ := Prod.mk.inj (Option.some.inj hask)
          have hmem : id ∈ ca.ancestry.chain := List.mem_of_mem_take (List.mem_of_getElem? hat)
          obtain ⟨-, cr, hcr, hid⟩ := hp.resolve_held (hp.faithful i s hs) (hknown id hmem) hr
          exact Or.inr ⟨id, r, next.session, cr, rfl, (Except.ok.inj hanswer).symm, by simp [hlt],
            hcr, hid⟩

/-- A class that the session holds already is shown without fail. -/
theorem Recorded.ancestorAt_of_held (hp : p.Recorded A log) (hs : p.sessions[i]? = some s)
    (ha : s.Holds a ca) {id : Identity} (hat : ca.ancestry.superAt? depth = some id)
    {r : HandleRef} {cr : Snapshot} (hr : s.Holds r cr) (hid : cr.identity = id) :
    ∃ p', p.request i (.ancestorAt a depth) = some (.ok (.type? (some r)), p') := by
  have hfinal := (hp.faithful i s hs).finalHandle?_eq_some.mpr ⟨cr, hr, hid⟩
  rw [request_of_getElem? hs, Workspace.serve_ancestorAt ha, hat]
  simp only [Query.resolve_of_final (w := { session := s, heap := p.heap }) hfinal]
  exact ⟨_, rfl⟩

end

/-- The handle is the session's one loaded handle of the class at this depth of the type's chain, and
what it says of its own chain is what the type says. -/
structure IsAncestor (s : Session) (ca : Snapshot) (depth : Nat) (h : HandleRef) (ch : Snapshot) :
    Prop where
  held : s.Holds h ch
  unique : ∀ r cr, s.Holds r cr → cr.identity = ch.identity → r = h
  onChain : ca.ancestry.chain[depth]? = some ch.identity
  superDepth : ch.ancestry.depth = depth
  chain : ch.ancestry.chain = ca.ancestry.chain.take depth

/-- Two handles of a session show the same ancestors above a depth, from now on. -/
structure ShowAlike (p : Program ClassTable) (i : Nat) (a h : HandleRef) (depth : Nat) : Prop where
  /-- At any moment the same question has the same outcome. -/
  same : ∀ j < depth, ∀ later,
    (p.after later).request i (.ancestorAt h j) = (p.after later).request i (.ancestorAt a j)
  /-- An answer about the one is the answer about the other at any later moment. -/
  lasting : ∀ j < depth, ∀ later answer p',
    (p.after later).request i (.ancestorAt h j) = some (.ok answer, p') →
      ∀ later', ∃ p'', (p'.after later').request i (.ancestorAt a j) = some (.ok answer, p'')

/-- What a session shows of the ancestor of a type at a depth. -/
structure Shows (p : Program ClassTable) (capacity : Display.Capacity) (i : Nat) (a : HandleRef)
    (ca : Snapshot) (depth : Nat) : Prop where
  /-- Nothing exactly from the end of the display on. -/
  none_iff : (∃ p', p.request i (.ancestorAt a depth) = some (.ok (.type? none), p')) ↔
    min ca.ancestry.depth capacity.slots ≤ depth
  shown : ∀ h p', p.request i (.ancestorAt a depth) = some (.ok (.type? (some h)), p') →
    (∃ s ch, p'.sessions[i]? = some s ∧ IsAncestor s ca depth h ch) ∧ p'.ShowAlike i a h depth

/-- Every snapshot has as many slots in use as its chain and the table allow. -/
theorem displayLength_of_holds (rootName : String) (capacity : Display.Capacity)
    {events : List Event} {a : HandleRef} {ca : Snapshot}
    (hs : ((start (create rootName capacity)).after events).sessions[i]? = some s)
    (ha : s.Holds a ca) :
    ca.ancestry.displayLength = min ca.ancestry.chain.length capacity.slots := by
  obtain ⟨hd, hr, hc⟩ := ha
  have hportrayed : (start (create rootName capacity)).Portrayed events :=
    portrayed_after _ events
  obtain ⟨entry, ⟨past, -, he⟩, hportrays⟩ := hportrayed i s hs a hd ca hr hc
  obtain ⟨b, hb, htrue⟩ := hportrays.body
  -- The record was placed when the class was in the table.
  have hstart := Checkable.start rootName capacity
  obtain ⟨A', -, hpast⟩ := hstart.after past
  have hcapacity := hstart.recorded.store_after (P := fun t => t.capacity = capacity)
    (fun _ hran hcap => hran.capacity_eq.trans hcap) rfl past
  obtain ⟨may, hplaced⟩ := (hpast.proper _ b (bodyAt?_eq_some.mpr ⟨entry, he, hb⟩)).placed
  have hslots : b.ancestry.capacity = capacity.slots := by
    rw [hplaced, hcapacity]
    rfl
  rw [htrue.displayLength, htrue.chain, hslots]

/-- Two handles of which the one is an ancestor of the other show the same above it. -/
theorem Recorded.showAlike (hp : p.Recorded A log) (hs : p.sessions[i]? = some s)
    {a h : HandleRef} {ca ch : Snapshot} {depth : Nat} (ha : s.Holds a ca) (hh : s.Holds h ch)
    (hknown : ∀ id ∈ ch.ancestry.chain, ∃ b, A id = some b)
    (hsame : ∀ j < depth, ch.ancestry.superAt? j = ca.ancestry.superAt? j) :
    p.ShowAlike i a h depth := by
  have hrequests : ∀ j < depth, ∀ later,
      (p.after later).request i (.ancestorAt h j) = (p.after later).request i (.ancestorAt a j) := by
    intro j hj later
    obtain ⟨s', hs', hmoves⟩ := after_session hs later
    rw [request_of_getElem? hs', request_of_getElem? hs',
      Workspace.serve_ancestorAt (w := ⟨s', _⟩) (hmoves.grows.holds hh),
      Workspace.serve_ancestorAt (w := ⟨s', _⟩) (hmoves.grows.holds ha), hsame j hj]
  refine ⟨hrequests, fun j hj later answer p' hask later' => ?_⟩
  obtain ⟨A₁, hA₁, hp₁⟩ := hp.after later
  obtain ⟨s₁, hs₁, hmoves₁⟩ := after_session hs later
  have hknown₁ : ∀ id ∈ ch.ancestry.chain, ∃ b, A₁ id = some b := fun id hid =>
    (hknown id hid).imp fun b hb => hA₁ id b hb
  have hp' : (p.after later).step (.request i (.ancestorAt h j)) = p' := step_of_request hask
  obtain ⟨A₂, -, hp₂⟩ := hp₁.step (.request i (.ancestorAt h j))
  rw [hp'] at hp₂
  obtain ⟨A₃, -, hp₃⟩ := hp₂.after later'
  obtain ⟨s₂, hs₂, hmoves₂⟩ := step_session hs₁ (.request i (.ancestorAt h j))
  rw [hp'] at hs₂
  obtain ⟨s₃, hs₃, hmoves₃⟩ := after_session hs₂ later'
  have ha₃ : s₃.Holds a ca :=
    hmoves₃.grows.holds (hmoves₂.grows.holds (hmoves₁.grows.holds ha))
  rcases hp₁.ancestorAt_answer hs₁ (hmoves₁.grows.holds hh) hknown₁ hask with
    ⟨hat, rfl⟩ | ⟨id, r, s', cr, hat, rfl, hs', hr, hid⟩
  · rw [request_of_getElem? hs₃, Workspace.serve_ancestorAt ha₃, ← hsame j hj, hat]
    exact ⟨_, rfl⟩
  · obtain rfl := Option.some.inj (hs₂.symm.trans hs')
    exact hp₃.ancestorAt_of_held hs₃ ha₃ (hsame j hj ▸ hat) (hmoves₃.grows.holds hr) hid

/-- What stands on the chain of a type has been loaded, with the chain in front of it for its own. -/
theorem Recorded.chain_of_holds (hp : p.Recorded A log) (hs : p.sessions[i]? = some s)
    {a : HandleRef} {ca : Snapshot} (ha : s.Holds a ca) {j : Nat} {id : Identity}
    (hid : ca.ancestry.chain[j]? = some id) :
    ∃ b, A id = some b ∧ b.ancestry.chain = ca.ancestry.chain.take j := by
  obtain ⟨ba, hba, hca⟩ := (hp.faithful i s hs).trueTo ha
  rw [hca.chain] at hid ⊢
  exact hp.chronicle.coherent.chain_take _ hba rfl j id hid

theorem Recorded.known_of_holds (hp : p.Recorded A log) (hs : p.sessions[i]? = some s)
    {a : HandleRef} {ca : Snapshot} (ha : s.Holds a ca) :
    ∀ id ∈ ca.ancestry.chain, ∃ b, A id = some b := by
  intro id hid
  obtain ⟨j, hj⟩ := List.mem_iff_getElem?.mp hid
  exact (hp.chain_of_holds hs ha hj).imp fun b hb => hb.1

/-- A loaded handle of a class on the chain of a type. -/
theorem Recorded.isAncestor (hp : p.Recorded A log) (hs : p.sessions[i]? = some s)
    {a h : HandleRef} {ca ch : Snapshot} {depth : Nat} (ha : s.Holds a ca) (hh : s.Holds h ch)
    (hat : ca.ancestry.chain[depth]? = some ch.identity) : IsAncestor s ca depth h ch := by
  have hf := hp.faithful i s hs
  obtain ⟨b, hb, hbchain⟩ := hp.chain_of_holds hs ha hat
  obtain ⟨b', hb', hch⟩ := hf.trueTo hh
  obtain rfl := Option.some.inj (hb.symm.trans hb')
  have hchain : ch.ancestry.chain = ca.ancestry.chain.take depth := hch.chain.trans hbchain
  refine ⟨hh, fun r cr hr hid => hf.ref_inj hr hh hid, hat, ?_, hchain⟩
  rw [Ancestry.depth, hchain, List.length_take]
  exact Nat.min_eq_left (Nat.le_of_lt (List.getElem?_eq_some_iff.mp hat).1)

/-- **Displays fit together**, whatever has happened to the program: a session shows nothing from the
end of a display on, and before it the one loaded handle for the class at that depth of the chain, which
stands where it is shown and shows the same ancestors as the type does. -/
theorem shows_after (rootName : String) (capacity : Display.Capacity) (events : List Event)
    {a : HandleRef} {ca : Snapshot}
    (hs : ((start (create rootName capacity)).after events).sessions[i]? = some s)
    (ha : s.Holds a ca) (depth : Nat) :
    ((start (create rootName capacity)).after events).Shows capacity i a ca depth := by
  obtain ⟨A, hp⟩ := recorded_after rootName capacity events
  have hlength := displayLength_of_holds rootName capacity hs ha
  have hknown := hp.known_of_holds hs ha
  refine ⟨?_, fun h p' hask => ?_⟩
  · rw [← Ancestry.superAt?_eq_none_iff hlength]
    constructor
    · rintro ⟨p', hask⟩
      rcases hp.ancestorAt_answer hs ha hknown hask with ⟨hat, -⟩ | ⟨_, _, _, _, -, hanswer, -⟩
      · exact hat
      · cases hanswer
    · intro hat
      rw [request_of_getElem? hs, Workspace.serve_ancestorAt ha, hat]
      exact ⟨_, rfl⟩
  · have hp' := step_of_request hask
    obtain ⟨A', -, hp₁⟩ := hp.step (.request i (.ancestorAt a depth))
    obtain ⟨s', hs', hmoves⟩ := step_session hs (.request i (.ancestorAt a depth))
    rw [hp'] at hp₁ hs'
    have ha' := hmoves.grows.holds ha
    rcases hp.ancestorAt_answer hs ha hknown hask with
      ⟨-, hanswer⟩ | ⟨id, r, s'', ch, hat, hanswer, hs'', hh, rfl⟩
    · cases hanswer
    obtain rfl := Option.some.inj (Answer.type?.inj hanswer)
    obtain rfl := Option.some.inj (hs'.symm.trans hs'')
    have hslot : depth < capacity.slots ∧ ca.ancestry.chain[depth]? = some ch.identity := by
      rwa [Ancestry.superAt?_eq hlength, Option.ite_none_right_eq_some] at hat
    have hancestor := hp₁.isAncestor hs' ha' hh hslot.2
    have hafter : (start (create rootName capacity)).after
        (events ++ [.request i (.ancestorAt a depth)]) = p' := (after_append _ _ _).trans hp'
    have hlength' := displayLength_of_holds rootName capacity (by rw [hafter]; exact hs') hh
    refine ⟨⟨s', ch, hs', hancestor⟩, hp₁.showAlike hs' ha' hh (hp₁.known_of_holds hs' hh) ?_⟩
    intro j hj
    rw [Ancestry.superAt?_eq hlength', Ancestry.superAt?_eq hlength, hancestor.chain,
      List.getElem?_take_of_lt hj]

/-- Three classes below one another, and a session that has resolved the last and the first, which is
then removed. -/
def threeDeep : List Event :=
  [.perform (.define (.ordinary "A")),
    .perform (.define { ClassFile.ordinary "B" with superclass := some (Identity.ofIndex 1) }),
    .perform (.define { ClassFile.ordinary "C" with superclass := some (Identity.ofIndex 2) }),
    .openSession {},
    .request 0 (.resolve (Identity.ofIndex 3)),
    .request 0 (.resolve (Identity.ofIndex 1)),
    .perform (.unload (Identity.ofIndex 1))]

/-- With two slots the last class shows its ancestors at depths 0 and 1 and nothing at depth 2.  The
one at depth 1 is shown although it has been removed, and what it shows at depth 0 the last class shows
too. -/
theorem shows_threeDeep :
    let p := (start (create "Object" twoSlots)).after threeDeep
    let p' := p.step (.request 0 (.ancestorAt ⟨0, 0⟩ 1))
    ∃ s ca, p.sessions[0]? = some s ∧ s.Holds ⟨0, 0⟩ ca ∧ ca.ancestry.depth = 3 ∧
      (∀ depth, p.Shows twoSlots 0 ⟨0, 0⟩ ca depth) ∧
      (∃ p'', p.request 0 (.ancestorAt ⟨0, 0⟩ 2) = some (.ok (.type? none), p'')) ∧
      p.request 0 (.ancestorAt ⟨0, 0⟩ 1) = some (.ok (.type? (some ⟨0, 1⟩)), p') ∧
      p'.ShowAlike 0 ⟨0, 0⟩ ⟨0, 1⟩ 1 ∧
      (p'.request 0 (.ancestorAt ⟨0, 1⟩ 0)).map (·.1) = some (.ok (.type? (some ⟨0, 2⟩))) := by
  intro p p'
  have hshows := shows_after "Object" twoSlots threeDeep (i := 0) (a := ⟨0, 0⟩) rfl
    ⟨_, rfl, rfl⟩
  have hask : p.request 0 (.ancestorAt ⟨0, 0⟩ 1) = some (.ok (.type? (some ⟨0, 1⟩)), p') := rfl
  exact ⟨_, _, rfl, ⟨_, rfl, rfl⟩, rfl, hshows, (hshows 2).none_iff.mpr (Nat.min_le_right _ _), hask,
    ((hshows 1).shown _ _ hask).2, rfl⟩

end Program

end RuntimeTypes
