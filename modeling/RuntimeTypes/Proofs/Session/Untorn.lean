/-
No torn snapshots.

A class is resolved by reads that other threads may come between.  They may even complete the
class meanwhile, so what a read says of it depends on when it comes.  It does not show: the
first read tells whether the class is loaded.  If it is, the entry does not change any more.  If
it is not, only the name is read besides, and that stays.  So the query ends as it would on a
table that stands still as the first read has found it.

Nothing is removed between the reads, as that takes a pause and the query has a scope open
(`Heap.unload_of_open`).  `Reading` is what holds from the first read on: the entry that is
there by now has come from the one that was there then.
-/
import RuntimeTypes.Store.Shared
import RuntimeTypes.Proofs.Immutability
import RuntimeTypes.Proofs.Session.Abreast

namespace RuntimeTypes

namespace ClassTable

variable {t : ClassTable}

/-- An operation that removes nothing. -/
def Op.Additive : Op → Prop
  | .unload _ => False
  | _ => True

instance : DecidablePred Op.Additive
  | .unload _ => inferInstanceAs (Decidable False)
  | .newLoader _ | .define _ | .declare _ _ | .complete _ _ | .arrayOf _ _ =>
    inferInstanceAs (Decidable True)

theorem Op.Additive.removes {op : Op} (h : op.Additive) (reply : Except TableRefusal Reply) :
    op.removes reply = [] := by
  cases op with
  | unload id => exact h.elim
  | _ => rfl

theorem Sound.additive (h : t.Sound) {ops : List Op} (hops : ∀ op ∈ ops, op.Additive) :
    (t.after ops).Sound ∧ t.Continues [] (t.after ops) := by
  induction ops generalizing t with
  | nil => exact ⟨h, .refl t⟩
  | cons op rest ih =>
      obtain ⟨hop, hrest⟩ := List.forall_mem_cons.mp hops
      have hran := run_ran h op
      obtain ⟨hsound, hcontinues⟩ := ih (hran.sound h) hrest
      have hfirst := hran.continues
      rw [hop.removes] at hfirst
      exact ⟨hsound, hfirst.trans hcontinues⟩

end ClassTable

open ClassTable

/-- While a scope is open nothing is removed from the table. -/
theorem Heap.unload_of_open {h : Heap ClassTable} (hopen : 0 < h.gate.openScopes) (id : Identity) :
    ∃ e, h.unload id = (.error (.heap e), h) := by
  have hpause : ∃ e, h.gate.pause = .error e := by
    unfold Gate.pause Gate.tryPause Gate.tryDrain
    split <;> rename_i next hv
    · split at hv
      · cases hv
      split at hv
      · cases hv
      split at hv
      · rename_i hclosed
        exact absurd hclosed (Nat.ne_of_gt hopen)
      · cases hv
    · exact ⟨_, rfl⟩
    · exact ⟨_, rfl⟩
  obtain ⟨e, he⟩ := hpause
  exact ⟨e, by simp only [unload, he]⟩

namespace SharedTable

variable {s : SharedTable}

/-- The reads so far have been answered if the first one has. -/
def Consistent (s : SharedTable) : Prop :=
  s.answered.head? = some true → ∀ b ∈ s.answered, b = true

/-- The table is sound, and the turns to come remove nothing. -/
structure Quiet (s : SharedTable) : Prop where
  sound : s.table.Sound
  turns : ∀ turn ∈ s.turns, ∀ op ∈ turn, op.Additive

theorem Quiet.next_turn (h : s.Quiet) : ∀ op ∈ s.turns.headD [], op.Additive := by
  cases hturns : s.turns with
  | nil => simp
  | cons turn rest => exact h.turns turn (by simp [hturns])

theorem Quiet.next (h : s.Quiet) (answered : Bool) : (s.next s.upcoming answered).Quiet where
  sound := (h.sound.additive h.next_turn).1
  turns := fun turn hturn => h.turns turn (List.mem_of_mem_tail hturn)

/-- The entry of the class has come from the one in `t`, which was there at the first read, and all
reads have been answered. -/
structure Reading (id : Identity) (e : ClassObject) (s : SharedTable) (t : ClassTable) : Prop where
  entry : t.objectAt id = some e
  quiet : s.Quiet
  lasting : ∃ e', s.table.objectAt id = some e' ∧ Matures e e'
  begun : s.answered ≠ []
  answered : ∀ b ∈ s.answered, b = true

theorem Reading.upcoming {id : Identity} {e : ClassObject} {t : ClassTable} (h : Reading id e s t) :
    ∃ e', s.upcoming.objectAt id = some e' ∧ Matures e e' := by
  obtain ⟨now, hnow, hm⟩ := h.lasting
  obtain ⟨e', he', hm'⟩ := (h.quiet.sound.additive h.quiet.next_turn).2.kept id now hnow nofun
  exact ⟨e', he', hm.trans hm'⟩

/-- What an answered read leaves, be it the first one or not. -/
theorem Quiet.reading {id : Identity} {e e' : ClassObject} {t : ClassTable} (h : s.Quiet)
    (he : t.objectAt id = some e) (hnow : s.upcoming.objectAt id = some e') (hm : Matures e e')
    (hanswered : ∀ b ∈ s.answered, b = true) : Reading id e (s.next s.upcoming true) t where
  entry := he
  quiet := h.next true
  lasting := ⟨e', hnow, hm⟩
  begun := by simp [SharedTable.next]
  answered := by
    intro b hb
    obtain hb | rfl : b ∈ s.answered ∨ b = true := by simpa [SharedTable.next] using hb
    · exact hanswered b hb
    · rfl

/-- What holds after the reads of a query among these turns: the first one has found the table after
`ops`, if there has been any. -/
structure Passed (turns : List (List Op)) (ops : List Op) (s : SharedTable) (_ : ClassTable) : Prop
    where
  reads : s.Consistent
  passed : ops <+: (turns.take s.answered.length).flatten

/-- Before the first read: the other store has the table that the read is going to find. -/
structure Starting (turns : List (List Op)) (s : SharedTable) (t : ClassTable) : Prop where
  quiet : s.Quiet
  turns : s.turns = turns
  unread : s.answered = []
  upcoming : t = s.upcoming

theorem passed_of_read {turns : List (List Op)} {t : ClassTable} (hreads : s.Consistent)
    (hbegun : s.answered ≠ []) : Passed turns (turns.headD []) s t := by
  refine ⟨hreads, ?_⟩
  cases turns with
  | nil => exact List.nil_prefix
  | cons turn rest =>
      obtain ⟨b, more, hcons⟩ := List.exists_cons_of_ne_nil hbegun
      rw [hcons, List.length_cons, List.take_succ_cons, List.flatten_cons]
      exact List.prefix_append turn _

theorem Reading.passed {id : Identity} {e : ClassObject} {t : ClassTable} (h : Reading id e s t)
    (turns : List (List Op)) : Passed turns (turns.headD []) s t :=
  passed_of_read (fun _ => h.answered) h.begun

end SharedTable

namespace Query

open Workspace SharedTable

variable {F : SharedTable → ClassTable → Prop} {w : Workspace SharedTable} {v : Workspace ClassTable}
  {id : Identity} {e : ClassObject}

/-- A read yields the same of the entry that other threads have made as of the one that they have
made it from. -/
theorem read_matured {S : SharedTable → ClassTable → Prop} {α : Type}
    {f : ClassObject → Except HeapFailure α} {a : α} {e' : ClassObject} (h : Beside S w v)
    (hreading : Reading id e (w.heap.store.next w.heap.store.upcoming true) v.heap.store)
    (hnow : w.heap.store.upcoming.objectAt id = some e') (hf : f e = .ok a) (hf' : f e' = .ok a) :
    ∃ w', read (SharedTable.read (readObject id f)) w = .ok a w' ∧ read (readObject id f) v = .ok a v ∧
      Beside (Reading id e) w' v := by
  refine ⟨{ w with heap := { w.heap with
    store := w.heap.store.next w.heap.store.upcoming true } }, ?_, ?_, h.session, h.gate, hreading⟩
  · simp only [read, Heap.read, SharedTable.read, readObject, hnow, hf']
  · simp only [read, Heap.read, readObject, hreading.entry, hf]

/-- A read of what does not change any more yields the same on both stores. -/
theorem read_abreast {α : Type} {f : ClassObject → Except HeapFailure α} {a : α}
    (h : Beside (Reading id e) w v) (hf : ∀ e', Matures e e' → f e' = .ok a) :
    Abreast (Reading id e) F (read (SharedTable.read (readObject id f))) (read (readObject id f))
      w v := by
  obtain ⟨e', hnow, hm⟩ := h.store.upcoming
  obtain ⟨w', hread, hread', hb⟩ := read_matured h
    (h.store.quiet.reading h.store.entry hnow hm h.store.answered) hnow (hf e (.refl e)) (hf e' hm)
  exact .of_ok hread hread' hb

/-- The parts of a loaded class are the same on both stores. -/
theorem snapshot_abreast {b : ClassBody} (h : Beside (Reading id e) w v) (hb : e.body? = some b)
    (hF : ∀ s t, Reading id e s t → F s t) (name : String) :
    Abreast (Reading id e) F (snapshot id name) (snapshot id name) w v := by
  have hsame {α : Type} (f : ClassObject → α) (e' : ClassObject) (hm : Matures e e') :
      (.ok (f e') : Except HeapFailure α) = .ok (f e) := by rw [hm.loaded b hb]
  have hancestry (e' : ClassObject) (hm : Matures e e') : ancestryOf e' = .ok b.ancestry := by
    rw [hm.loaded b hb]
    simp [ancestryOf, hb]
  refine (read_abreast h hancestry).bind fun record w v h => ?_
  refine (ask_abreast h hF _).bind fun ancestry w v h => ?_
  refine (read_abreast h (hsame ClassObject.shape)).bind fun shape w v h => ?_
  refine (read_abreast h (hsame ClassObject.layout)).bind fun layout w v h => ?_
  refine (read_abreast h (hsame ClassObject.flags)).bind fun flags w v h => ?_
  refine (read_abreast h (hsame ClassObject.loader)).bind fun loader w v h => ?_
  refine (read_abreast h (hsame fun _ => unlockedHeader)).bind fun header w v h => ?_
  exact .pure h _

/-- A handle is built alike, if it is the one for the load status that the first read has found. -/
theorem build_abreast (h : Beside (Reading id e) w v) (hF : ∀ s t, Reading id e s t → F s t) :
    Abreast (Reading id e) F (build id e.loadStatus) (build id e.loadStatus) w v := by
  have hname (e' : ClassObject) (hm : Matures e e') :
      (.ok e'.name : Except HeapFailure String) = .ok e.name := by rw [hm.name]
  refine (read_abreast h hname).bind fun text w v h => ?_
  refine (learn_abreast h hF _).bind fun name w v h => ?_
  cases hb : e.body? with
  | none =>
      simp only [ClassObject.loadStatus, hb]
      exact (Abreast.pure h _).bind fun content w v h => learn_abreast h hF _
  | some b =>
      simp only [ClassObject.loadStatus, hb]
      exact ((snapshot_abreast h hb hF text).map _).bind fun content w v h => learn_abreast h hF _

/-- The first read of a class that is there. -/
theorem read_first {turns : List (List Op)} (h : Beside (Starting turns) w v)
    (he : v.heap.store.objectAt id = some e) {α : Type} {f : ClassObject → Except HeapFailure α} {a : α}
    (hf : f e = .ok a) :
    ∃ w', read (SharedTable.read (readObject id f)) w = .ok a w' ∧ read (readObject id f) v = .ok a v ∧
      Beside (Reading id e) w' v := by
  have hnow := h.store.upcoming ▸ he
  have hanswered : ∀ b ∈ w.heap.store.answered, b = true := by simp [h.store.unread]
  exact read_matured h (h.store.quiet.reading he hnow (.refl e) hanswered) hnow hf hf

/-- The first read of one that is not. -/
theorem read_unknown {turns : List (List Op)} (h : Beside (Starting turns) w v)
    (he : v.heap.store.objectAt id = none) {α : Type} (f : ClassObject → Except HeapFailure α) :
    Abreast (fun _ _ => False) (Passed turns (turns.headD []))
      (read (SharedTable.read (readObject id f))) (read (readObject id f)) w v := by
  have hnow := h.store.upcoming ▸ he
  have hread : read (SharedTable.read (readObject id f)) w = .error (.heap (.unknownIdentity id))
      { w with heap := { w.heap with store := w.heap.store.next w.heap.store.upcoming false } } := by
    simp only [read, Heap.read, SharedTable.read, readObject, hnow]
  have hread' : read (readObject id f) v = .error (.heap (.unknownIdentity id)) v := by
    simp only [read, Heap.read, readObject, he]
  refine .of_error hread hread' ⟨h.session, h.gate, passed_of_read (fun hfirst => ?_) ?_⟩
  · simp [SharedTable.next, h.store.unread] at hfirst
  · simp [SharedTable.next]

/-- Inside a scope the query ends as on the table that the first read finds. -/
theorem resolveInside_abreast {turns : List (List Op)} (h : Beside (Starting turns) w v)
    (hnone : w.session.finalHandle? id = none) :
    Abreast (Passed turns (turns.headD [])) (Passed turns (turns.headD []))
      (resolveInside id) (resolveInside id) w v := by
  refine Abreast.bind_of_ok (remembered_of_none hnone) (remembered_of_none (h.session ▸ hnone)) ?_
  cases he : v.heap.store.objectAt id with
  | none => exact (read_unknown h he fun e => .ok e.loadStatus).bind fun _ _ _ h => h.store.elim
  | some e =>
      obtain ⟨w', hread, hread', h⟩ := read_first h he (f := fun e => .ok e.loadStatus) rfl
      have hF (s : SharedTable) (t : ClassTable) (h : Reading id e s t) := h.passed turns
      refine Abreast.bind_of_ok hread hread' (Abreast.mono (S := Reading id e) ?_ hF)
      refine (ask_abreast h hF _).bind fun found w v h => ?_
      have hbuild := build_abreast h hF
      cases found with
      | none => exact hbuild
      | some r =>
          cases hstate : e.loadStatus with
          | unloaded => exact .pure h r
          | loaded => rw [hstate] at hbuild; exact hbuild

/-- **Amid the turns of other threads** a class is resolved as on a table that stands still. -/
theorem resolve_amid {w : Workspace ClassTable} (hsound : w.heap.store.Sound)
    {turns : List (List Op)} (hturns : ∀ turn ∈ turns, ∀ op ∈ turn, op.Additive) (id : Identity) :
    ∃ ops, (∀ op ∈ ops, op.Additive) ∧ Abreast (Passed turns ops) (Passed turns ops)
      (resolve id) (resolve id) (w.amid turns) (w.following ops) := by
  have hquiet : SharedTable.Quiet { table := w.heap.store, turns := turns } := ⟨hsound, hturns⟩
  have hunread : Beside (Passed turns []) (w.amid turns) (w.following []) :=
    ⟨rfl, rfl, nofun, List.nil_prefix⟩
  cases hfinal : w.session.finalHandle? id with
  | some r => exact ⟨[], nofun, resolve_abreast_of_final hunread hfinal⟩
  | none =>
      cases hgate : w.heap.gate.enter w.session.options.waitBound with
      | error e =>
          exact ⟨[], nofun, resolve_abreast_of_refused hunread (fun _ _ h => h) hfinal hgate⟩
      | ok gate =>
          have hstart : Beside (Starting turns) (w.amid turns) (w.following (turns.headD [])) :=
            ⟨rfl, rfl, hquiet, rfl, rfl, rfl⟩
          refine ⟨turns.headD [], hquiet.next_turn, ?_⟩
          refine Abreast.bind_of_ok (remembered_of_none hfinal) (remembered_of_none hfinal) ?_
          exact inScope_abreast hstart hgate
            (resolveInside_abreast (entered_beside hstart gate) hfinal)

end Query

namespace Program

open Workspace

theorem after_additive (p : Program ClassTable) {ops : List Op} (hops : ∀ op ∈ ops, op.Additive) :
    p.after (ops.map .perform) =
      { p with heap := { p.heap with store := p.heap.store.after ops } } := by
  induction ops generalizing p with
  | nil => rfl
  | cons op rest ih =>
      obtain ⟨hop, hrest⟩ := List.forall_mem_cons.mp hops
      have hstep : p.step (.perform op) =
          { p with heap := { p.heap with store := (op.run p.heap.store).2 } } := by
        cases op with
        | unload id => exact hop.elim
        | _ => rfl
      show (p.step (.perform op)).after (rest.map .perform) = _
      rw [ih _ hrest, hstep]
      rfl

/-- How the class `id` is resolved in a workspace `w` that is there after `events`, where other threads
take these turns between the reads. -/
structure Untorn (p : Program ClassTable) (events : List Event) (w : Workspace ClassTable)
    (turns : List (List Op)) (id : Identity) (ops : List Op) : Prop where
  /-- After `ops` the table was as some time between the first turn and the last read. -/
  passed : ops <+: (turns.take
    ((w.amid turns).serve (.resolve id)).2.heap.store.answered.length).flatten
  /-- The answer is the one on that table, without any turns. -/
  answer : ((w.amid turns).serve (.resolve id)).1 = ((w.following ops).serve (.resolve id)).1
  /-- So is what the session has learnt. -/
  session : ((w.amid turns).serve (.resolve id)).2.session =
    ((w.following ops).serve (.resolve id)).2.session
  gate : ((w.amid turns).serve (.resolve id)).2.heap.gate =
    ((w.following ops).serve (.resolve id)).2.heap.gate
  /-- The handle is an unloaded one, or all of it is copied from one entry that the class has had. -/
  handle : ∀ r, ((w.amid turns).serve (.resolve id)).1 = .ok (.type r) → ∃ h,
    ((w.amid turns).serve (.resolve id)).2.session.handle r = .ok h ∧
      ((∃ type, h.state = .unloaded (some id) type) ∨
        ∃ c e, c.identity = id ∧ p.Knew (events ++ ops.map .perform) id e ∧
          h.Portrays ((w.amid turns).serve (.resolve id)).2.session.names c e)
  /-- If the first read has been answered, so have the others. -/
  reads : ((w.amid turns).serve (.resolve id)).2.heap.store.Consistent

section

variable {p : Program ClassTable} {A : Archive} {log : LoadLog} {events : List Event} {i : Nat}
  {s : Session}

/-- Without any turns the handle is an unloaded one, or a portrait. -/
theorem Recorded.resolve_portrays (h : (p.after events).Recorded A log) (hp : p.Portrayed events)
    (hs : (p.after events).sessions[i]? = some s) (id : Identity) {r : HandleRef}
    (hr : (serve { session := s, heap := (p.after events).heap } (.resolve id)).1 = .ok (.type r)) :
    ∃ h, (serve { session := s, heap := (p.after events).heap } (.resolve id)).2.session.handle r
        = .ok h ∧
      ((∃ type, h.state = .unloaded (some id) type) ∨
        ∃ c e, c.identity = id ∧ p.Knew events id e ∧ h.Portrays
          (serve { session := s, heap := (p.after events).heap } (.resolve id)).2.session.names c e) := by
  have hcopies := Request.copies (.resolve id) { session := s, heap := (p.after events).heap }
  have hyields := Query.resolve_refuses (h.sees hs) id
  cases hq : Query.resolve id { session := s, heap := (p.after events).heap } with
  | error e w' => simp [serve, Request.run, Functor.map, EStateM.map, hq] at hr
  | ok r' w' =>
      obtain ⟨hd, hhd, hid, -⟩ := (Ends.of_ok hyields hq).2
      have hserve : serve { session := s, heap := (p.after events).heap } (.resolve id) =
          (.ok (.type r'), w') := by simp [serve, Request.run, Functor.map, EStateM.map, hq]
      rw [hserve] at hr hcopies ⊢
      obtain rfl : r' = r := by simpa using hr
      refine ⟨hd, hhd, ?_⟩
      cases hstate : hd.state with
      | primitive type => simp [Handle.identity?, hstate] at hid
      | unloaded identity? type =>
          obtain rfl : identity? = some id := by simpa [Handle.identity?, hstate] using hid
          exact .inl ⟨type, rfl⟩
      | loaded c =>
          obtain rfl : c.identity = id := by simpa [Handle.identity?, hstate] using hid
          obtain hold | ⟨e, he, hportrays⟩ := hcopies.handle r' hd c hhd hstate
          · obtain ⟨e, hknew, hportrays⟩ := hp i s hs r' hd c hold hstate
            exact .inr ⟨c, e, rfl, hknew, hportrays.mono hcopies.names⟩
          · exact .inr ⟨c, e, rfl, ⟨events, List.prefix_refl events, he⟩, hportrays⟩

end

/-- **No torn snapshots**: whatever other threads declare, define, complete and make between the reads
of one class, the class is resolved as on a table that stands still. -/
theorem resolve_untorn (rootName : String) (capacity : Display.Capacity) (events : List Event)
    {i : Nat} {s : Session}
    (hs : ((start (create rootName capacity)).after events).sessions[i]? = some s)
    {turns : List (List Op)} (hturns : ∀ turn ∈ turns, ∀ op ∈ turn, op.Additive) (id : Identity) :
    ∃ ops, (start (create rootName capacity)).Untorn events
      { session := s, heap := ((start (create rootName capacity)).after events).heap } turns id ops := by
  obtain ⟨A, hrecorded⟩ := recorded_after rootName capacity events
  obtain ⟨ops, hops, habreast⟩ := Query.resolve_amid
    (w := { session := s, heap := ((start (create rootName capacity)).after events).heap })
    hrecorded.sound hturns id
  obtain ⟨hanswer, hbeside⟩ := Query.Abreast.serve (.resolve id) (habreast.map Answer.type)
  refine ⟨ops, hbeside.store.passed, hanswer, hbeside.session, hbeside.gate, ?_, hbeside.store.reads⟩
  -- On the table that stands still the query is an event like any other.
  have hstill : (start (create rootName capacity)).after (events ++ ops.map .perform) = _ :=
    (after_append _ events _).trans (after_additive _ hops)
  obtain ⟨A', hrecorded'⟩ := recorded_after rootName capacity (events ++ ops.map .perform)
  have hportrayed : (start (create rootName capacity)).Portrayed (events ++ ops.map .perform) :=
    portrayed_after _ _
  intro r hr
  rw [hanswer] at hr
  rw [hbeside.session]
  have hsession : ((start (create rootName capacity)).after
      (events ++ ops.map .perform)).sessions[i]? = some s := by rw [hstill]; exact hs
  have hhandle := hrecorded'.resolve_portrays hportrayed hsession id (r := r)
  rw [hstill] at hhandle
  exact hhandle hr

/-- A session is opened, and a class is declared. -/
def declared : List Event := [.openSession {}, .perform (.declare Loader.bootstrap "A")]

/-- The session's workspace. -/
def beforeCompletion : Workspace ClassTable where
  session := Session.start 0 {}
  heap := ((start (create "Object" Display.Capacity.standard)).after declared).heap

/-- Other threads complete the class before it is read, and go on making classes, arrays and loaders
before each of the reads that follow. -/
def completedEarly : List (List Op) :=
  [[.complete (Identity.ofIndex 1) (.ordinary "A")], [.arrayOf (.ofClass (Identity.ofIndex 1)) []],
    [.newLoader Loader.bootstrap, .define (.ordinary "B")],
    [.complete (Identity.ofIndex 1) (.interface "A")], [.declare Loader.bootstrap "C"],
    [.define (.ordinary "A")], [.arrayOf (.primitive .int) []], [.declare Loader.bootstrap "D"]]

/-- Other threads complete the class once the first read has found it declared. -/
def completedLate : List (List Op) := [[], [.complete (Identity.ofIndex 1) (.ordinary "A")]]

/-- In the one case the handle is a loaded one, in the other it is not. -/
theorem resolve_untorn_completed :
    ((start (create "Object" Display.Capacity.standard)).after declared).sessions[0]?
        = some (Session.start 0 {}) ∧
      (∀ turn ∈ completedEarly, ∀ op ∈ turn, op.Additive) ∧
      (∀ turn ∈ completedLate, ∀ op ∈ turn, op.Additive) ∧
      (((beforeCompletion.amid completedEarly).serve (.resolve (Identity.ofIndex 1))).2.session.handle
        ⟨0, 0⟩).map (·.isLoaded) = .ok true ∧
      (((beforeCompletion.amid completedLate).serve (.resolve (Identity.ofIndex 1))).2.session.handle
        ⟨0, 0⟩).map (·.isLoaded) = .ok false ∧
      (∃ ops, (start (create "Object" Display.Capacity.standard)).Untorn declared beforeCompletion
        completedEarly (Identity.ofIndex 1) ops) ∧
      ∃ ops, (start (create "Object" Display.Capacity.standard)).Untorn declared beforeCompletion
        completedLate (Identity.ofIndex 1) ops := by
  have hs : ((start (create "Object" Display.Capacity.standard)).after declared).sessions[0]?
      = some (Session.start 0 {}) := rfl
  have hearly : ∀ turn ∈ completedEarly, ∀ op ∈ turn, op.Additive := by decide
  have hlate : ∀ turn ∈ completedLate, ∀ op ∈ turn, op.Additive := by decide
  exact ⟨hs, hearly, hlate, rfl, rfl,
    resolve_untorn "Object" Display.Capacity.standard declared hs hearly (Identity.ofIndex 1),
    resolve_untorn "Object" Display.Capacity.standard declared hs hlate (Identity.ofIndex 1)⟩

end Program

end RuntimeTypes
