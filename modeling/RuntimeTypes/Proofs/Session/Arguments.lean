/-
The types that a request is about, and where they come from.

A compilation asks about types that it has been given, by the answers of its own session.  A
reference carries the number of the session that has given it, so what another compilation
has been given is turned down, whatever handle of its own a session may have at that place.
What a session has given stays with it: `Received.exists_handle` goes from the one request that was
answered to everything that the session has been asked since.

Half of the requests are about types, and each of these begins with asking the session for a
snapshot of every one of them.  So a bad argument is found out before anything is done,
before the gate and before two equal references are taken for equal types.  Behind that
point no failure is for the arguments any more.
-/
import RuntimeTypes.Proofs.Session.NameIndex
import RuntimeTypes.Proofs.Session.Placeholders
import RuntimeTypes.Proofs.Session.Scopes

namespace RuntimeTypes

/-! ### What a session gives away -/

namespace Session

variable {s s' : Session} {r : HandleRef}

/-- The handles of primitive types are handles of the session. -/
def HasPrimitives (s : Session) : Prop :=
  ∀ type r, s.primitives.get? type = some r → ∃ h, s.handle r = .ok h

theorem Move.hasPrimitives (hm : s.Move s') (h : s.HasPrimitives) : s'.HasPrimitives := by
  have hkept : ∀ {r}, (∃ h, s.handle r = .ok h) → ∃ h, s'.handle r = .ok h := by
    rintro r ⟨hd, hr⟩
    exact ⟨hd, hm.grows.kept hr⟩
  cases hm with
  | hit | scope | name => exact h
  | ofClass _ _ _ hs =>
      obtain ⟨rfl, rfl⟩ := addClass_eq_ok hs
      exact fun type r hr => hkept (h type r hr)
  | placeholder _ _ _ hs =>
      obtain ⟨rfl, rfl⟩ := addPlaceholder_eq_ok hs
      exact fun type r hr => hkept (h type r hr)
  | primitive _ _ _ hs =>
      obtain ⟨rfl, rfl⟩ := addPrimitive_eq_ok hs
      intro type r hr
      rw [Index.get?_insert] at hr
      split at hr
      · obtain rfl := Option.some.inj hr
        exact ⟨_, handle_eq_ok.mpr ⟨rfl, Array.getElem?_push_size⟩⟩
      · exact hkept (h type r hr)

theorem Moves.hasPrimitives {number : Nat} {options : Options}
    (h : (start number options).Moves s) : s.HasPrimitives := by
  induction h with
  | refl => exact nofun
  | tail _ hmove ih => exact hmove.hasPrimitives ih

theorem Moves.exists_handle {number : Nat} {options : Options} (h : (start number options).Moves s)
    (hr : s.LeadsTo r) : ∃ hd, s.handle r = .ok hd := by
  cases hr with
  | cached hcached =>
      obtain ⟨loaded, hd, hr, -⟩ := (Moves.keeps h).1.own hcached
      exact ⟨hd, hr⟩
  | placeholder hshared =>
      obtain ⟨hd, hint, hr, -⟩ := h.sharesPlaceholders _ _ hshared
      exact ⟨hd, hr⟩
  | primitive hfound => exact h.hasPrimitives _ _ hfound
  | held hr => exact ⟨_, hr⟩

theorem Moves.exists_handle_of_cachedByName? {number : Nat} {options : Options}
    (h : (start number options).Moves s) {text : String} (hr : s.cachedByName? text = some r) :
    ∃ hd, s.handle r = .ok hd := by
  obtain ⟨name, -, hbest⟩ := Option.bind_eq_some_iff.mp hr
  rw [h.indexed] at hbest
  obtain ⟨hd, hr, -⟩ := bestOf?_some hbest
  exact ⟨hd, hr⟩

theorem through_append {σ : Type} [MetadataSource σ] (s : Session)
    (past later : List (Heap σ × Request)) :
    s.through (past ++ later) = (s.through past).through later := List.foldl_append

end Session

/-- A compilation: its session has been opened with a number and options, and it has made these
requests, each to a heap of its own. -/
structure Compilation (σ : Type) where
  /-- The number of the session. -/
  number : Nat
  /-- The settings. -/
  options : Options := {}
  /-- What has been asked so far. -/
  history : List (Heap σ × Request) := []

namespace Compilation

variable {σ : Type} [MetadataSource σ] {c : Compilation σ} {r : HandleRef}

/-- The session after these requests. -/
def sessionAfter (c : Compilation σ) (requests : List (Heap σ × Request)) : Session :=
  (Session.start c.number c.options).through requests

/-- The session as it is now. -/
def session (c : Compilation σ) : Session := c.sessionAfter c.history

/-- The compilation has been given the type at some time, as an answer or by looking it up. -/
inductive Received (c : Compilation σ) (r : HandleRef) : Prop
  | answered {past later : List (Heap σ × Request)} {heap : Heap σ} {request : Request}
      {answer : Answer} : c.history = past ++ (heap, request) :: later →
      (Workspace.serve ⟨c.sessionAfter past, heap⟩ request).1 = .ok answer → r ∈ answer.types →
      Received c r
  | cached {past later : List (Heap σ × Request)} {id : Identity} : c.history = past ++ later →
      (c.sessionAfter past).cached? id = some r → Received c r
  | cachedByName {past later : List (Heap σ × Request)} {text : String} :
      c.history = past ++ later → (c.sessionAfter past).cachedByName? text = some r → Received c r

theorem moves (c : Compilation σ) (requests : List (Heap σ × Request)) :
    (Session.start c.number c.options).Moves (c.sessionAfter requests) :=
  Session.through_moves _ _

theorem number_session (c : Compilation σ) : c.session.number = c.number :=
  (c.moves c.history).number

/-- What has been a handle of the session is one still. -/
theorem exists_handle_of_past {past later : List (Heap σ × Request)} (hpast : c.history = past ++ later)
    (h : ∃ hd, (c.sessionAfter past).handle r = .ok hd) : ∃ hd, c.session.handle r = .ok hd := by
  obtain ⟨hd, hr⟩ := h
  refine ⟨hd, ?_⟩
  rw [session, hpast, sessionAfter, Session.through_append]
  exact (Session.Moves.grows (Session.through_moves _ later)).kept hr

theorem Received.exists_handle (h : c.Received r) : ∃ hd, c.session.handle r = .ok hd := by
  cases h with
  | @answered past later heap request answer hpast hserve hmem =>
      have hthen : c.history = (past ++ [(heap, request)]) ++ later := by simp [hpast]
      refine exists_handle_of_past hthen (Session.Moves.exists_handle (c.moves _) ?_)
      rw [sessionAfter, Session.through_append]
      show (Workspace.serve ⟨c.sessionAfter past, heap⟩ request).2.session.LeadsTo r
      have hmoving := Request.moving (w := ⟨c.sessionAfter past, heap⟩) request
      cases hrun : request.run ⟨c.sessionAfter past, heap⟩ with
      | ok given w =>
          rw [Workspace.serve_of_ok hrun] at hserve ⊢
          obtain rfl := Except.ok.inj hserve
          exact (hmoving.of_ok hrun).2 r hmem
      | error e w =>
          rw [Workspace.serve_of_error hrun] at hserve
          cases hserve
  | cached hpast hcached =>
      exact exists_handle_of_past hpast (Session.Moves.exists_handle (c.moves _) (.cached hcached))
  | cachedByName hpast hcached =>
      exact exists_handle_of_past hpast
        (Session.Moves.exists_handle_of_cachedByName? (c.moves _) hcached)

theorem Received.session_eq (h : c.Received r) : r.session = c.number := by
  obtain ⟨hd, hr⟩ := h.exists_handle
  exact (Session.handle_eq_ok.mp hr).1.trans c.number_session

end Compilation

/-! ### Arguments that fit -/

/-- The types that a request is about. -/
def Request.types : Request → List HandleRef
  | find origin _ | findOrPlaceholder origin _ => [origin]
  | isSubtype a b | isSubclass a b | commonAncestor a b => [a, b]
  | ancestorAt r _ => [r]
  | resolve _ | placeholder _ _ | primitive _ => []

theorem Handle.isClass_iff {h : Handle} : h.isClass = true ↔ ∃ c, h.state = .loaded c := by
  unfold isClass isLoaded isPrimitive
  cases h.state <;> simp

namespace Session

variable {α : Type} {s : Session} {r a b : HandleRef}

/-- The type is a class of the session, and loaded. -/
def IsClass (s : Session) (r : HandleRef) : Prop := ∃ h, s.handle r = .ok h ∧ h.isClass = true

theorem isClass_iff : s.IsClass r ↔ ∃ c, s.Holds r c := by
  constructor
  · rintro ⟨h, hr, hclass⟩
    obtain ⟨c, hc⟩ := Handle.isClass_iff.mp hclass
    exact ⟨c, h, hr, hc⟩
  · rintro ⟨c, h, hr, hc⟩
    exact ⟨h, hr, Handle.isClass_iff.mpr ⟨c, hc⟩⟩

/-- The outcome is that arguments have been turned down. -/
def TurnedDown (outcome : Except QueryFailure α) : Prop :=
  ∃ operation breach, outcome = .error (.precondition operation breach)

theorem TurnedDown.bind {β : Type} {outcome : Except QueryFailure α} (h : TurnedDown outcome)
    (k : α → Except QueryFailure β) : TurnedDown (outcome >>= k) := by
  obtain ⟨operation, breach, rfl⟩ := h
  exact ⟨operation, breach, rfl⟩

theorem handle_cases (s : Session) (r : HandleRef) :
    (∃ h, s.handle r = .ok h) ∨ TurnedDown (s.handle r) := by
  unfold handle
  split
  · exact .inr ⟨_, _, rfl⟩
  · split
    · exact .inl ⟨_, rfl⟩
    · exact .inr ⟨_, _, rfl⟩

theorem turnedDown_loaded {h : Handle} (hclass : h.isClass = false) (operation : String) :
    TurnedDown (h.loaded operation) := by
  unfold Handle.loaded
  split
  · rename_i c hc
    rw [Handle.isClass_iff.mpr ⟨c, hc⟩] at hclass
    cases hclass
  · exact ⟨_, _, rfl⟩
  · exact ⟨_, _, rfl⟩

/-- Of all types only loaded classes have a snapshot, and another is the fault of who asks for it. -/
theorem turnedDown_snapshot (h : ¬s.IsClass r) (operation : String) :
    TurnedDown (s.snapshot r operation) := by
  rcases s.handle_cases r with ⟨hd, hr⟩ | hturned
  · have hclass : hd.isClass = false := Bool.eq_false_iff.mpr fun hclass => h ⟨hd, hr, hclass⟩
    unfold snapshot
    rw [hr]
    exact turnedDown_loaded hclass operation
  · exact hturned.bind _

/-- Of two types one is enough. -/
theorem turnedDown_snapshots (h : ∃ r ∈ [a, b], ¬s.IsClass r) (operation : String)
    (k : Snapshot → Snapshot → Except QueryFailure α) :
    TurnedDown (do
      let first ← s.snapshot a operation
      let second ← s.snapshot b operation
      k first second) := by
  by_cases ha : s.IsClass a
  · have hb : ¬s.IsClass b := by simpa [ha] using h
    obtain ⟨c, hc⟩ := isClass_iff.mp ha
    rw [hc.snapshot]
    exact (turnedDown_snapshot hb operation).bind _
  · exact (turnedDown_snapshot ha operation).bind _

theorem exists_holds (h : ∀ r ∈ [a, b], s.IsClass r) :
    ∃ first second, s.Holds a first ∧ s.Holds b second := by
  obtain ⟨first, hfirst⟩ := isClass_iff.mp (h a (by simp))
  obtain ⟨second, hsecond⟩ := isClass_iff.mp (h b (by simp))
  exact ⟨first, second, hfirst, hsecond⟩

theorem isSubtype_of_isClass (h : ∀ r ∈ [a, b], s.IsClass r) :
    ∃ answer, s.isSubtype a b = .ok answer := by
  obtain ⟨first, second, hfirst, hsecond⟩ := exists_holds h
  unfold isSubtype
  rw [hfirst.snapshot, hsecond.snapshot]
  exact ⟨_, rfl⟩

theorem isSubclass_of_isClass (h : ∀ r ∈ [a, b], s.IsClass r) :
    ∃ answer, s.isSubclass a b = .ok answer := by
  obtain ⟨first, second, hfirst, hsecond⟩ := exists_holds h
  unfold isSubclass
  rw [hfirst.snapshot, hsecond.snapshot]
  exact ⟨_, rfl⟩

theorem handle_bind_loader (s : Session) (r : HandleRef) :
    (s.handle r).bind Handle.loader = (s.snapshot r "loader").map (·.loader) := by
  unfold snapshot
  cases s.handle r <;> rfl

end Session

namespace Query

open Session

variable {σ α β : Type} {w : Workspace σ} {r a b : HandleRef}

/-- The query turns its arguments down, and has done nothing before. -/
def Refused (q : Query σ α) (w : Workspace σ) : Prop :=
  ∃ operation breach, q w = .error (.precondition operation breach) w

theorem Refused.ask {f : Session → Except QueryFailure α} (h : TurnedDown (f w.session)) :
    Refused (ask f) w := by
  obtain ⟨operation, breach, hf⟩ := h
  exact ⟨operation, breach, by simp only [Query.ask, hf]⟩

theorem Refused.bind {q : Query σ α} (h : Refused q w) (k : α → Query σ β) : Refused (q >>= k) w := by
  obtain ⟨operation, breach, hq⟩ := h
  exact ⟨operation, breach, by simp only [bind_apply, hq]⟩

theorem Refused.map {q : Query σ α} (h : Refused q w) (f : α → β) : Refused (f <$> q) w := by
  obtain ⟨operation, breach, hq⟩ := h
  exact ⟨operation, breach, by simp only [Functor.map, EStateM.map, hq]⟩

theorem refused_snapshots (h : ∃ r ∈ [a, b], ¬w.session.IsClass r) (operation : String)
    (k : Snapshot → Snapshot → Query σ β) : Refused (do
      let first ← Query.ask fun s => s.snapshot a operation
      let second ← Query.ask fun s => s.snapshot b operation
      k first second) w := by
  by_cases ha : w.session.IsClass a
  · have hb : ¬w.session.IsClass b := by simpa [ha] using h
    obtain ⟨c, hc⟩ := isClass_iff.mp ha
    have hsecond : Refused (Query.ask fun s => s.snapshot b operation) w :=
      .ask (turnedDown_snapshot hb operation)
    obtain ⟨rule, breach, hrefused⟩ := hsecond.bind (k c)
    exact ⟨rule, breach, (bind_of_ok (ask_apply (hc.snapshot operation))).trans hrefused⟩
  · exact (Refused.ask (turnedDown_snapshot ha operation)).bind _

variable [MetadataSource σ]

theorem find_refused (h : ¬w.session.IsClass r) (name : String) : Refused (find r name) w := by
  refine (Refused.ask ?_).bind _
  rw [handle_bind_loader]
  obtain ⟨operation, breach, hturned⟩ := turnedDown_snapshot h "loader"
  exact ⟨operation, breach, by rw [hturned]; rfl⟩

theorem findOrPlaceholder_refused (h : ¬w.session.IsClass r) (name : String) :
    Refused (findOrPlaceholder r name) w := by
  obtain ⟨operation, breach, hfind⟩ := find_refused h name
  exact ⟨operation, breach, findOrPlaceholder_of_error hfind nofun⟩

/-- A request about a type that is no loaded class of the session is turned down at once. -/
theorem request_refused {request : Request} (h : ∃ r ∈ request.types, ¬w.session.IsClass r) :
    Refused request.run w := by
  have hone : ∀ {r}, (∃ r' ∈ [r], ¬w.session.IsClass r') → ¬w.session.IsClass r := by simp
  cases request with
  | resolve | placeholder | primitive =>
      obtain ⟨r, hr, -⟩ := h
      cases hr
  | find origin name => exact (find_refused (hone h) name).map _
  | findOrPlaceholder origin name => exact (findOrPlaceholder_refused (hone h) name).map _
  | isSubtype a b => exact (Refused.ask (turnedDown_snapshots h _ _)).map _
  | isSubclass a b => exact (Refused.ask (turnedDown_snapshots h _ _)).map _
  | ancestorAt r depth => exact ((Refused.ask (turnedDown_snapshot (hone h) _)).bind _).map _
  | commonAncestor a b => exact (refused_snapshots h _ _).map _

/-! ### No other failure is for the arguments -/

theorem resolve_granted (id : Identity) : Blameless (resolve id) w fun _ => True := by
  refine remembered_blameless_bind (fun r w' _ => trivial) fun _ => ?_
  exact inScope_blameless fun gate => resolveInside_blameless.mono fun _ _ => trivial

theorem find_granted {c : Snapshot} (hc : w.session.Holds r c) (name : String) :
    Blameless (find r name) w fun _ => True := by
  refine ask_blameless_bind (b := c.loader) ?_ (find_blameless c.loader name)
  rw [handle_bind_loader, hc.snapshot]
  rfl

theorem ancestorAt_granted {c : Snapshot} (hc : w.session.Holds r c) (depth : Nat) :
    Blameless (ancestorAt r depth) w fun _ => True := by
  refine ask_blameless_bind (hc.snapshot _) ?_
  split
  · exact Ends.map (resolve_granted _)
  · exact trivial

theorem commonAncestor_granted {first second : Snapshot} (ha : w.session.Holds a first)
    (hb : w.session.Holds b second) : Blameless (commonAncestor a b) w fun _ => True := by
  refine ask_blameless_bind (ha.snapshot _) (ask_blameless_bind (hb.snapshot _) ?_)
  split
  · exact trivial
  · split
    · exact trivial
    · -- Two chains without a class in common are the store's fault.
      refine (ask_still _ fun e he => ?_).blameless_bind fun common w' _ => resolve_granted common
      cases hcommon : first.commonAncestor second with
      | ok id =>
          rw [hcommon] at he
          cases he
      | error e' =>
          rw [hcommon] at he
          cases he
          exact nofun

omit [MetadataSource σ] in
theorem ask_granted {f : Session → Except QueryFailure α} (hf : ∃ answer, f w.session = .ok answer) :
    Blameless (Query.ask f) w fun _ => True := by
  obtain ⟨answer, hanswer⟩ := hf
  exact ends_ask (fun _ _ => trivial) fun e he => by cases hanswer.symm.trans he

/-- A request about loaded classes of the session does not fail for its arguments. -/
theorem request_granted {request : Request} (habout : request.types ≠ [])
    (h : ∀ r ∈ request.types, w.session.IsClass r) : Blameless request.run w fun _ => True := by
  cases request with
  | resolve | placeholder | primitive => exact absurd rfl habout
  | find origin name =>
      obtain ⟨c, hc⟩ := isClass_iff.mp (List.forall_mem_singleton.mp h)
      exact Ends.map (find_granted hc name)
  | findOrPlaceholder origin name =>
      obtain ⟨c, hc⟩ := isClass_iff.mp (List.forall_mem_singleton.mp h)
      exact Ends.map (find_granted hc name).orPlaceholder
  | isSubtype a b => exact Ends.map (ask_granted (isSubtype_of_isClass h))
  | isSubclass a b => exact Ends.map (ask_granted (isSubclass_of_isClass h))
  | ancestorAt r depth =>
      obtain ⟨c, hc⟩ := isClass_iff.mp (List.forall_mem_singleton.mp h)
      exact Ends.map (ancestorAt_granted hc depth)
  | commonAncestor a b =>
      obtain ⟨first, second, ha, hb⟩ := exists_holds h
      exact Ends.map (commonAncestor_granted ha hb)

end Query

/-! ### Exactly the bad arguments -/

/-- The request is a check of one type against another. -/
def Request.IsCheck : Request → Prop
  | isSubtype _ _ | isSubclass _ _ => True
  | _ => False

namespace Workspace

open Session Query

variable {σ : Type} [MetadataSource σ] {w : Workspace σ} {request : Request}

theorem serve_of_bad (h : ∃ r ∈ request.types, ¬w.session.IsClass r) :
    TurnedDown (w.serve request).1 ∧ (w.serve request).2 = w := by
  obtain ⟨operation, breach, hrun⟩ := request_refused h
  rw [serve_of_error hrun]
  exact ⟨⟨operation, breach, rfl⟩, rfl⟩

theorem serve_of_good (habout : request.types ≠ []) (h : ∀ r ∈ request.types, w.session.IsClass r) :
    ¬TurnedDown (w.serve request).1 := by
  have hblameless := request_granted habout h
  cases hrun : request.run w with
  | ok answer next =>
      rw [serve_of_ok hrun]
      exact nofun
  | error e next =>
      rw [serve_of_error hrun]
      rintro ⟨operation, breach, he⟩
      exact hblameless.of_error hrun operation breach (Except.error.inj he)

theorem serve_check_of_good (hcheck : request.IsCheck) (h : ∀ r ∈ request.types, w.session.IsClass r) :
    ∃ answer, w.serve request = (.ok (.truth answer), w) := by
  have hanswered : ∀ {f : Session → Except QueryFailure Bool}, (∃ answer, f w.session = .ok answer) →
      ∃ answer, (Answer.truth <$> ask f) w = .ok (.truth answer) w := by
    rintro f ⟨answer, hf⟩
    exact ⟨answer, by simp only [Functor.map, EStateM.map, ask_apply hf]⟩
  have hrun : ∃ answer, request.run w = .ok (.truth answer) w := by
    cases request with
    | isSubtype a b => exact hanswered (isSubtype_of_isClass h)
    | isSubclass a b => exact hanswered (isSubclass_of_isClass h)
    | _ => exact hcheck.elim
  obtain ⟨answer, hrun⟩ := hrun
  exact ⟨answer, serve_of_ok hrun⟩

end Workspace

namespace Compilation

open Session

variable {σ : Type} [MetadataSource σ]

/-- The compilation has been given the type by its own session, and there it is a loaded class. -/
def Owns (c : Compilation σ) (r : HandleRef) : Prop := c.Received r ∧ c.session.IsClass r

/-- What others have been given is no class of the session. -/
theorem owns_iff {ι : Type} {all : ι → Compilation σ}
    (hnumbers : Function.Injective fun i => (all i).number) {r : HandleRef}
    (hgiven : ∃ j, (all j).Received r) (i : ι) : (all i).Owns r ↔ (all i).session.IsClass r := by
  refine ⟨And.right, fun hclass => ⟨?_, hclass⟩⟩
  obtain ⟨j, hj⟩ := hgiven
  obtain ⟨h, hr, -⟩ := hclass
  have hnumber : (all j).number = (all i).number := by
    rw [← hj.session_eq, (handle_eq_ok.mp hr).1, number_session]
  rwa [hnumbers hnumber] at hj

/-- **Requests about types fail for their arguments exactly if those are bad.**  Of any number of
compilations, whose sessions have different numbers, one makes a request about types that some of
them have been given.  It is turned down exactly if one of the types is not a loaded class of its own
session, and then session and heap are left as they are.  A check has no other way to fail. -/
theorem serve_refuses_iff {ι : Type} (all : ι → Compilation σ)
    (hnumbers : Function.Injective fun i => (all i).number) (i : ι) (heap : Heap σ)
    (request : Request) (habout : request.types ≠ [])
    (hgiven : ∀ r ∈ request.types, ∃ j, (all j).Received r) :
    let w : Workspace σ := { session := (all i).session, heap := heap }
    let good := ∀ r ∈ request.types, (all i).Owns r
    ((∃ operation breach, (w.serve request).1 = .error (.precondition operation breach)) ↔ ¬good) ∧
      (¬good → (w.serve request).2 = w) ∧
      (request.IsCheck → ((∃ answer, (w.serve request).1 = .ok answer) ↔ good)) := by
  intro w good
  have hgood : good ↔ ∀ r ∈ request.types, w.session.IsClass r :=
    forall₂_congr fun r hr => owns_iff hnumbers (hgiven r hr) i
  have hbad : ¬good ↔ ∃ r ∈ request.types, ¬w.session.IsClass r := by
    rw [hgood]
    simp only [Classical.not_forall, exists_prop]
  refine ⟨⟨fun hrefused hall => ?_, fun h => (Workspace.serve_of_bad (hbad.mp h)).1⟩,
    fun h => (Workspace.serve_of_bad (hbad.mp h)).2,
    fun hcheck => ⟨fun ⟨answer, hok⟩ => ?_, fun hall => ?_⟩⟩
  · exact Workspace.serve_of_good habout (hgood.mp hall) hrefused
  · refine Classical.byContradiction fun h => ?_
    obtain ⟨⟨operation, breach, herror⟩, -⟩ := Workspace.serve_of_bad (hbad.mp h)
    cases hok.symm.trans herror
  · obtain ⟨answer, hserve⟩ := Workspace.serve_check_of_good hcheck (hgood.mp hall)
    exact ⟨_, congrArg Prod.fst hserve⟩

/-- Two compilations that have come by the same class. -/
def withRoot (second : Bool) : Compilation ClassTable where
  number := second.toNat
  history := [(rootOnly, .resolve ClassTable.root)]

/-- The first is refused where it brings what the second has been given, and answered about its own. -/
theorem serve_refuses_iff_foreign :
    let w : Workspace ClassTable := { session := (withRoot false).session, heap := rootOnly }
    (∃ operation breach, (w.serve (.isSubtype ⟨0, 0⟩ ⟨1, 0⟩)).1
        = .error (.precondition operation breach)) ∧
      (w.serve (.isSubtype ⟨0, 0⟩ ⟨1, 0⟩)).2 = w ∧
      ∃ answer, (w.serve (.isSubtype ⟨0, 0⟩ ⟨0, 0⟩)).1 = .ok answer := by
  have hnumbers : Function.Injective fun second => (withRoot second).number := by
    intro a b h
    cases a <;> cases b <;> first | rfl | cases h
  have hgiven : ∀ second, (withRoot second).Received ⟨second.toNat, 0⟩ := by
    intro second
    have hcached : ((withRoot second).sessionAfter (withRoot second).history).cached? ClassTable.root
        = some ⟨second.toNat, 0⟩ := by cases second <;> rfl
    exact .cached (List.append_nil _).symm hcached
  have hown : (withRoot false).Owns ⟨0, 0⟩ := ⟨hgiven false, _, rfl, rfl⟩
  have hforeign : ¬(withRoot false).Owns ⟨1, 0⟩ := fun h => by cases h.1.session_eq
  have hboth : ∀ r ∈ (Request.isSubtype ⟨0, 0⟩ ⟨1, 0⟩).types, ∃ j, (withRoot j).Received r :=
    List.forall_mem_cons.mpr
      ⟨⟨false, hgiven false⟩, List.forall_mem_singleton.mpr ⟨true, hgiven true⟩⟩
  have hself : ∀ r ∈ (Request.isSubtype ⟨0, 0⟩ ⟨0, 0⟩).types, (withRoot false).Owns r :=
    List.forall_mem_cons.mpr ⟨hown, List.forall_mem_singleton.mpr hown⟩
  obtain ⟨hrefused, hsame, -⟩ := serve_refuses_iff withRoot hnumbers false rootOnly
    (.isSubtype ⟨0, 0⟩ ⟨1, 0⟩) (List.cons_ne_nil _ _) hboth
  obtain ⟨-, -, hanswered⟩ := serve_refuses_iff withRoot hnumbers false rootOnly
    (.isSubtype ⟨0, 0⟩ ⟨0, 0⟩) (List.cons_ne_nil _ _) fun r hr => ⟨false, (hself r hr).1⟩
  have hbad : ¬∀ r ∈ (Request.isSubtype ⟨0, 0⟩ ⟨1, 0⟩).types, (withRoot false).Owns r := fun h =>
    hforeign (h _ (List.mem_cons_of_mem _ (List.mem_singleton_self _)))
  exact ⟨hrefused.mpr hbad, hsame hbad, (hanswered trivial).mpr hself⟩

end Compilation

end RuntimeTypes
