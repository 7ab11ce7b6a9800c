/-
What holds of a program after any events.

A program's table has a chronicle and its sessions are faithful to the archive of it,
whatever has happened: operations that were refused, requests that failed, other threads
at the gate.  `Recorded.after` is the induction over the events that says so.
-/
import RuntimeTypes.Proofs.Chronicle
import RuntimeTypes.Proofs.Session.Queries

namespace RuntimeTypes

namespace Program

open ClassTable

/-- What each event of a list yields in its turn, one after the other. -/
def collect {α : Type} (f : Program ClassTable → Event → List α) (p : Program ClassTable) :
    List Event → List α
  | [] => []
  | e :: rest => f p e ++ collect f (p.step e) rest

/-- What an event loads into the program's table. -/
def Event.loads (p : Program ClassTable) : Event → LoadLog
  | .perform op => op.loads (p.perform op).1
  | _ => []

theorem Event.loads_eq_nil {p : Program ClassTable} {e : Event} (he : ∀ op, e ≠ .perform op) :
    Event.loads p e = [] := by
  cases e with
  | perform op => exact absurd rfl (he op)
  | openSession _ | request _ _ | atGate _ => rfl

/-- What a list of events loads into the program's table. -/
def loads (p : Program ClassTable) (events : List Event) : LoadLog := p.collect Event.loads events

/-- The table has a chronicle, and the sessions are faithful to it. -/
structure Recorded (p : Program ClassTable) (A : Archive) (log : LoadLog) : Prop where
  sound : p.heap.store.Sound
  chronicle : Chronicle A log p.heap.store
  faithful : ∀ (i : Nat) (s : Session), p.sessions[i]? = some s → s.Faithful A

/-- An operation is run on the table, unless the gate keeps it out. -/
theorem perform_cases (p : Program ClassTable) (op : Op) :
    (∃ e, (p.perform op).1 = .error e ∧ (p.perform op).2.heap.store = p.heap.store) ∨
      (p.perform op).1 = (op.run p.heap.store).1 ∧
        (p.perform op).2.heap.store = (op.run p.heap.store).2 := by
  cases op with
  | unload id =>
      simp only [perform, Heap.perform, Heap.unload]
      cases p.heap.gate.pause with
      | error e => exact .inl ⟨_, rfl, rfl⟩
      | ok gate => exact .inr ⟨rfl, rfl⟩
  | _ => exact .inr ⟨rfl, rfl⟩

/-- An operation ends as one on the table does, or the gate keeps it out. -/
theorem perform_ran (p : Program ClassTable) (h : p.heap.store.Sound) (op : Op) :
    Ran p.heap.store op (p.perform op).1 (p.perform op).2.heap.store ∧
      (p.perform op).2.sessions = p.sessions := by
  refine ⟨?_, rfl⟩
  obtain ⟨e, hreply, hstore⟩ | ⟨hreply, hstore⟩ := p.perform_cases op
  · rw [hreply, hstore]
    exact .refused op e
  · rw [hreply, hstore]
    exact run_ran h op

/-- A request for the array of a type that is answered only makes arrays, and answers with what is then
found as the array of the type, which was loaded. -/
theorem perform_arrayOf_eq_ok {p : Program ClassTable} (h : p.heap.store.Sound)
    {x array : Identity} {interfaces : List Identity}
    (hreply : (p.perform (.arrayOf (.ofClass x) interfaces)).1 = .ok (.made array)) :
    Relation.ReflTransGen (ArrayMove interfaces) p.heap.store
        (p.perform (.arrayOf (.ofClass x) interfaces)).2.heap.store ∧
      (p.perform (.arrayOf (.ofClass x) interfaces)).2.heap.store.arrayAt? x = some array ∧
      ∃ b, p.heap.store.bodyAt? x = some b := by
  have hran := (p.perform_ran h (.arrayOf (.ofClass x) interfaces)).1
  rw [hreply] at hran
  cases hran with
  | array hm hfound => exact ⟨hm, hfound x rfl⟩

namespace Recorded

variable {p : Program ClassTable} {A A' : Archive} {log log' : LoadLog}

theorem sees (h : p.Recorded A log) {i : Nat} {s : Session} (hs : p.sessions[i]? = some s) :
    Workspace.Sees { session := s, heap := p.heap } A :=
  ⟨h.chronicle.live, h.faithful i s hs⟩

/-- An operation touches no session. -/
theorem performed (h : p.Recorded A log) {op : Op} (hA : Archive.Within A A')
    (hc : Chronicle A' log' (p.perform op).2.heap.store) : (p.perform op).2.Recorded A' log' where
  sound := (p.perform_ran h.sound op).1.sound h.sound
  chronicle := hc
  faithful := fun i s hs => by
    rw [(p.perform_ran h.sound op).2] at hs
    exact (h.faithful i s hs).mono hA

theorem perform (h : p.Recorded A log) (op : Op) :
    ∃ A', Archive.Gains A (p.perform op).2.heap.store.bodyAt? A' ∧
      (p.perform op).2.Recorded A' (log ++ op.loads (p.perform op).1) := by
  obtain ⟨A', hA', hc⟩ := (p.perform_ran h.sound op).1.chronicle h.chronicle
  exact ⟨A', hA', h.performed hA'.keeps hc⟩

theorem openSession (h : p.Recorded A log) (options : Options) :
    (p.openSession options).Recorded A log where
  sound := h.sound
  chronicle := h.chronicle
  faithful := by
    intro i s hs
    rw [Program.openSession, Array.getElem?_push] at hs
    split at hs
    · obtain rfl := Option.some.inj hs
      exact .start _ _ A
    · exact h.faithful i s hs

theorem request (h : p.Recorded A log) {i : Nat} {s : Session} {w : Workspace ClassTable}
    (hw : Workspace.Leads A { session := s, heap := p.heap } w) :
    Recorded { heap := w.heap, sessions := p.sessions.setIfInBounds i w.session } A log where
  sound := by
    rw [show w.heap.store = p.heap.store from hw.store]
    exact h.sound
  chronicle := by
    rw [show w.heap.store = p.heap.store from hw.store]
    exact h.chronicle
  faithful := by
    intro j s' hs'
    rw [Array.getElem?_setIfInBounds] at hs'
    split at hs'
    · split at hs'
      · obtain rfl := Option.some.inj hs'
        exact hw.learns.faithful
      · cases hs'
    · exact h.faithful j s' hs'

theorem idle (h : p.Recorded A log) {e : Event} (he : ∀ op, e ≠ .perform op) :
    (p.step e).heap.store = p.heap.store ∧ (p.step e).Recorded A log := by
  cases e with
  | perform op => exact absurd rfl (he op)
  | openSession options => exact ⟨rfl, h.openSession options⟩
  | atGate gate => exact ⟨rfl, h.sound, h.chronicle, h.faithful⟩
  | request i r =>
      simp only [Program.step, Program.request]
      cases hs : p.sessions[i]? with
      | none => exact ⟨rfl, h⟩
      | some s =>
          have hrun := Request.harmless (h.sees hs) r
          simp only [Option.map_some, Option.getD_some, Workspace.serve]
          cases hr : r.run { session := s, heap := p.heap } with
          | ok answer w =>
              have hw := (Ends.of_ok hrun hr).1
              exact ⟨hw.store, h.request hw⟩
          | error e w =>
              have hw := (Ends.of_error hrun hr).1
              exact ⟨hw.store, h.request hw⟩

theorem step_store (h : p.Recorded A log) (e : Event) :
    (p.step e).heap.store = p.heap.store ∨
      ∃ op : Op, (p.step e).heap.store = (op.run p.heap.store).2 := by
  by_cases he : ∃ op, e = .perform op
  · obtain ⟨op, rfl⟩ := he
    obtain ⟨_, -, hstore⟩ | ⟨-, hstore⟩ := p.perform_cases op
    · exact .inl hstore
    · exact .inr ⟨op, hstore⟩
  · exact .inl (h.idle fun op hop => he ⟨op, hop⟩).1

theorem step (h : p.Recorded A log) (e : Event) :
    ∃ A', Archive.Within A A' ∧ (p.step e).Recorded A' (log ++ Event.loads p e) := by
  by_cases he : ∃ op, e = .perform op
  · obtain ⟨op, rfl⟩ := he
    obtain ⟨A', hA', h'⟩ := h.perform op
    exact ⟨A', hA'.keeps, h'⟩
  · rw [Event.loads_eq_nil fun op hop => he ⟨op, hop⟩, List.append_nil]
    exact ⟨A, .refl A, (h.idle fun op hop => he ⟨op, hop⟩).2⟩

end Recorded

section

variable {p : Program ClassTable} {A : Archive} {log : LoadLog}

/-- What one event keeps, while the archive grows and the log goes on, any number of them keep.  What
is asked of the events, `G`, may depend on the program that each of them meets. -/
theorem logged_after {I : Program ClassTable → Archive → LoadLog → Prop}
    {G : Program ClassTable → List Event → Prop}
    (hstep : ∀ {p A log e rest}, I p A log → G p (e :: rest) → G (p.step e) rest ∧
      ∃ A', Archive.Within A A' ∧ I (p.step e) A' (log ++ Event.loads p e))
    {events : List Event} (hG : G p events) (h : I p A log) :
    ∃ A', Archive.Within A A' ∧ I (p.after events) A' (log ++ p.loads events) := by
  induction events generalizing p A log with
  | nil => exact ⟨A, .refl A, by simpa [Program.after, loads, collect] using h⟩
  | cons e rest ih =>
      obtain ⟨hrest, A', hA', h'⟩ := hstep h hG
      obtain ⟨A'', hA'', h''⟩ := ih hrest h'
      refine ⟨A'', hA'.trans hA'', ?_⟩
      rw [show p.loads (e :: rest) = Event.loads p e ++ (p.step e).loads rest from rfl,
        ← List.append_assoc]
      exact h''

/-- **Every program stays recorded**, with all that its events load. -/
theorem Recorded.after (h : p.Recorded A log) (events : List Event) :
    ∃ A', Archive.Within A A' ∧ (p.after events).Recorded A' (log ++ p.loads events) :=
  logged_after (G := fun _ _ => True) (fun h _ => ⟨trivial, h.step _⟩) trivial h

end

theorem recorded_start (rootName : String) (capacity : Display.Capacity) :
    (start (create rootName capacity)).Recorded (create rootName capacity).bodyAt? [] where
  sound := sound_create rootName capacity
  chronicle := chronicle_create rootName capacity
  faithful := by simp [start]

/-- What has been loaded since a table was created. -/
theorem recorded_after (rootName : String) (capacity : Display.Capacity) (events : List Event) :
    ∃ A, ((start (create rootName capacity)).after events).Recorded A
      ((start (create rootName capacity)).loads events) := by
  obtain ⟨A, -, h⟩ := (recorded_start rootName capacity).after events
  exact ⟨A, by simpa using h⟩

end Program

end RuntimeTypes
