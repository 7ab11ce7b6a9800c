/-
What a program has read of a class it would read again.

The identities that a table hands out for new entries are all different, and what is read
of a loaded class stays the same until the class is removed, after which it is unknown for
good.  So it does not matter when a session has looked: at whatever moments two sessions
have come by a loaded handle of one class, both handles are portraits of one entry, and
the two sessions answer alike.

`Knew` speaks of all moments of a run at once.  Between two of them the table continues, so
an entry that was loaded at the first is the same at the second.
-/
import Mathlib.Data.List.Induction
import RuntimeTypes.Proofs.Capacity.Answers
import RuntimeTypes.Proofs.Session.Portraits
import RuntimeTypes.Proofs.Table.Lasting

namespace RuntimeTypes

namespace Session

/-- Two sessions hold one class as loaded, under these references. -/
def Corresponds (s s' : Session) (r r' : HandleRef) : Prop :=
  ∃ c c', s.Holds r c ∧ s'.Holds r' c' ∧ c.identity = c'.identity

/-- Two sessions say the same of the classes that both hold as loaded. -/
structure Agrees (s s' : Session) : Prop where
  /-- Their handles differ in nothing but the number that the session has given the name. -/
  handle : ∀ r r', s.Corresponds s' r r' → ∃ h h', s.handle r = .ok h ∧ s'.handle r' = .ok h' ∧
    h' = { h with name := h'.name }
  /-- The number stands for the same name. -/
  name : ∀ r r', s.Corresponds s' r r' → s.nameText r = s'.nameText r'
  isSubtype : ∀ a b a' b', s.Corresponds s' a a' → s.Corresponds s' b b' →
    s.isSubtype a b = s'.isSubtype a' b'
  isSubclass : ∀ a b a' b', s.Corresponds s' a a' → s.Corresponds s' b b' →
    s.isSubclass a b = s'.isSubclass a' b'

end Session

namespace Program

open ClassTable

/-- What an event removes from the program's table. -/
def Event.removes (p : Program ClassTable) : Event → List Identity
  | .perform op => op.removes (p.perform op).1
  | _ => []

/-- The identities that an event hands out for entries that it has made. -/
def Event.issues (p : Program ClassTable) : Event → List Identity
  | .perform op => op.issues p.heap.store (p.perform op).1
  | _ => []

/-- What a list of events removes from the program's table. -/
def removed (p : Program ClassTable) (events : List Event) : List Identity :=
  p.collect Event.removes events

/-- The identities that a list of events hands out for new entries, one after the other. -/
def issued (p : Program ClassTable) (events : List Event) : List Identity :=
  p.collect Event.issues events

theorem after_append (p : Program ClassTable) (events later : List Event) :
    p.after (events ++ later) = (p.after events).after later := List.foldl_append

/-! ### The table goes on -/

section

variable {p : Program ClassTable} {A : Archive} {log : LoadLog}

theorem perform_issues (h : p.heap.store.Sound) (op : Op) {id : Identity}
    (hid : id ∈ op.issues p.heap.store (p.perform op).1) :
    p.heap.store.entries.size ≤ id.index ∧
      ∃ entry, (p.perform op).2.heap.store.objectAt id = some entry := by
  obtain ⟨e, hreply, -⟩ | ⟨hreply, hstore⟩ := p.perform_cases op
  · simp [hreply] at hid
  · rw [hreply] at hid
    rw [hstore]
    exact Op.issues_run h op hid

/-- **Each event continues the table.** -/
theorem Recorded.continues_step (h : p.Recorded A log) (e : Event) :
    p.heap.store.Continues (Event.removes p e) (p.step e).heap.store := by
  by_cases he : ∃ op, e = .perform op
  · obtain ⟨op, rfl⟩ := he
    exact (p.perform_ran h.sound op).1.continues
  · have hidle := (h.idle fun op hop => he ⟨op, hop⟩).1
    have hremoves : Event.removes p e = [] := by
      cases e with
      | perform op => exact absurd ⟨op, rfl⟩ he
      | _ => rfl
    rw [hremoves]
    exact .of_objectAt_eq (by rw [hidle]) fun _ => by rw [hidle]

theorem Recorded.continues (h : p.Recorded A log) (events : List Event) :
    p.heap.store.Continues (p.removed events) (p.after events).heap.store := by
  induction events generalizing p A log with
  | nil => exact .refl _
  | cons e rest ih =>
      obtain ⟨A', -, h'⟩ := h.step e
      exact (h.continues_step e).trans (ih h')

/-- An event hands out identities that have not been in use. -/
theorem Recorded.issues_step (h : p.Recorded A log) {e : Event} {id : Identity}
    (hid : id ∈ Event.issues p e) :
    p.heap.store.entries.size ≤ id.index ∧ id.index < (p.step e).heap.store.entries.size := by
  cases e with
  | perform op =>
      obtain ⟨hfresh, entry, he⟩ := perform_issues h.sound op hid
      exact ⟨hfresh, index_lt_of_objectAt he⟩
  | _ => cases hid

theorem Event.issues_nodup (p : Program ClassTable) (e : Event) : (Event.issues p e).Nodup := by
  cases e with
  | perform op => exact op.issues_nodup _ _
  | _ => exact List.nodup_nil

/-- **No identity is handed out twice** for new entries. -/
theorem Recorded.issued_nodup (h : p.Recorded A log) (events : List Event) :
    (p.issued events).Nodup ∧ ∀ id ∈ p.issued events, p.heap.store.entries.size ≤ id.index := by
  induction events generalizing p A log with
  | nil => exact ⟨List.nodup_nil, nofun⟩
  | cons e rest ih =>
      obtain ⟨A', -, h'⟩ := h.step e
      obtain ⟨hnodup, hlater⟩ := ih h'
      have hsize := (h.continues_step e).size
      refine ⟨List.nodup_append.mpr ⟨e.issues_nodup p, hnodup, ?_⟩, ?_⟩
      · rintro id hid _ hid' rfl
        have hnow := (h.issues_step hid).2
        have hthen := hlater id hid'
        omega
      · intro id hid
        rcases List.mem_append.mp hid with hid | hid
        · exact (h.issues_step hid).1
        · exact Nat.le_trans hsize (hlater id hid)

/-! ### All moments of a run -/

/-- At some moment of a run the table has had this entry. -/
def Knew (p : Program ClassTable) (events : List Event) (id : Identity) (e : ClassObject) : Prop :=
  ∃ past, past <+: events ∧ (p.after past).heap.store.objectAt id = some e

theorem Knew.mono {events later : List Event} (hbefore : events <+: later) {id : Identity}
    {e : ClassObject} (h : p.Knew events id e) : p.Knew later id e := by
  obtain ⟨past, hpast, he⟩ := h
  exact ⟨past, hpast.trans hbefore, he⟩

/-- An entry that is still there later has at most been completed. -/
theorem Recorded.matures (h : p.Recorded A log) {past later : List Event} (hbefore : past <+: later)
    {id : Identity} {e e' : ClassObject} (he : (p.after past).heap.store.objectAt id = some e)
    (he' : (p.after later).heap.store.objectAt id = some e') : Matures e e' := by
  obtain ⟨meanwhile, rfl⟩ := hbefore
  obtain ⟨A', -, h'⟩ := h.after past
  rw [after_append] at he'
  have hcontinues := h'.continues meanwhile
  by_cases hid : id ∈ (p.after past).removed meanwhile
  · rw [(hcontinues.gone id hid).2] at he'
    cases he'
  · obtain ⟨e'', he'', hm⟩ := hcontinues.kept id e he hid
    exact Option.some.inj (he''.symm.trans he') ▸ hm

/-- A loaded entry is the same at all moments at which there is one. -/
theorem Recorded.eq_of_prefix (h : p.Recorded A log) {past later : List Event}
    (hbefore : past <+: later) {id : Identity} {e e' : ClassObject} {b : ClassBody}
    (he : (p.after past).heap.store.objectAt id = some e) (hb : e.body? = some b)
    (he' : (p.after later).heap.store.objectAt id = some e') : e' = e :=
  (h.matures hbefore he he').loaded b hb

/-- **A class is loaded once**: at all moments of a run its loaded entry is the same. -/
theorem Knew.unique (h : p.Recorded A log) {events : List Event} {id : Identity}
    {e e' : ClassObject} {b b' : ClassBody} (hk : p.Knew events id e) (hb : e.body? = some b)
    (hk' : p.Knew events id e') (hb' : e'.body? = some b') : e = e' := by
  obtain ⟨past, hpast, he⟩ := hk
  obtain ⟨past', hpast', he'⟩ := hk'
  rcases List.prefix_or_prefix_of_prefix hpast hpast' with hbefore | hbefore
  · exact (h.eq_of_prefix hbefore he hb he').symm
  · exact h.eq_of_prefix hbefore he' hb' he

theorem Recorded.not_knew (h : p.Recorded A log) {events later : List Event} {id : Identity}
    (hid : id ∈ (p.after events).issued later) (e : ClassObject) : ¬p.Knew events id e := by
  rintro ⟨past, ⟨meanwhile, rfl⟩, he⟩
  obtain ⟨A', -, hpast⟩ := h.after past
  obtain ⟨A'', -, hnow⟩ := hpast.after meanwhile
  rw [after_append] at hid
  have hused := index_lt_of_objectAt he
  have hsize := (hpast.continues meanwhile).size
  have hfresh := (hnow.issued_nodup later).2 id hid
  omega

/-! ### What sessions have copied -/

/-- Every loaded handle portrays an entry that the table has had. -/
def Portrayed (p : Program ClassTable) (past : List Event) : Prop :=
  ∀ (i : Nat) (s : Session), (p.after past).sessions[i]? = some s → ∀ r h c, s.handle r = .ok h →
    h.state = .loaded c → ∃ e, p.Knew past c.identity e ∧ h.Portrays s.names c e

/-- Every handle of a class describes an entry that the class has had. -/
def Described (p : Program ClassTable) (past : List Event) : Prop :=
  ∀ (i : Nat) (s : Session), (p.after past).sessions[i]? = some s → ∀ r h id, s.handle r = .ok h →
    h.identity? = some id → ∃ e, p.Knew past id e ∧ h.Describes s.names e

theorem Described.portrayed {past : List Event} (h : p.Described past) : p.Portrayed past := by
  intro i s hs r hd c hr hc
  obtain ⟨e, hknew, hdescribes⟩ := h i s hs r hd c.identity hr (Handle.identity?_loaded hc)
  exact ⟨e, hknew, hdescribes.loaded c hc⟩

/-- A session after an event has been there before as it is, or has just been opened, or has served a
request. -/
theorem step_sessions {e : Event} {i : Nat} {s : Session} (hs : (p.step e).sessions[i]? = some s) :
    p.sessions[i]? = some s ∨ (∃ number options, s = Session.start number options) ∨
      ∃ asked request, p.sessions[i]? = some asked ∧
        s = (Workspace.serve { session := asked, heap := p.heap } request).2.session := by
  cases e with
  | perform op => exact .inl hs
  | atGate gate => exact .inl hs
  | openSession options =>
      rw [Program.step, Program.openSession, Array.getElem?_push] at hs
      split at hs
      · exact .inr (.inl ⟨_, options, (Option.some.inj hs).symm⟩)
      · exact .inl hs
  | request j request =>
      cases hj : p.sessions[j]? with
      | none =>
          simp only [Program.step, Program.request, hj, Option.map_none, Option.getD_none] at hs
          exact .inl hs
      | some asked =>
          simp only [Program.step, Program.request, hj, Option.map_some, Option.getD_some,
            Array.getElem?_setIfInBounds] at hs
          split at hs
          · rename_i hij
            split at hs
            · exact .inr (.inr ⟨asked, request, hij ▸ hj, (Option.some.inj hs).symm⟩)
            · cases hs
          · exact .inl hs

theorem Described.step {past : List Event} (h : p.Described past) (e : Event) :
    p.Described (past ++ [e]) := by
  intro i s hs r hd id hr hid
  have hbefore : past <+: past ++ [e] := List.prefix_append past [e]
  rw [after_append] at hs
  rcases step_sessions hs with hs | ⟨number, options, rfl⟩ | ⟨asked, request, hasked, rfl⟩
  · obtain ⟨entry, hknew, hdescribes⟩ := h i s hs r hd id hr hid
    exact ⟨entry, hknew.mono hbefore, hdescribes⟩
  · have hnone := (Session.handle_eq_ok.mp hr).2
    simp [Session.start] at hnone
  · have htakes := request.takes { session := asked, heap := (p.after past).heap }
    rcases htakes.handle r hd id hr hid with hr | ⟨entry, he, hdescribes⟩
    · obtain ⟨entry, hknew, hdescribes⟩ := h i asked hasked r hd id hr hid
      exact ⟨entry, hknew.mono hbefore, hdescribes.mono htakes.names⟩
    · exact ⟨entry, ⟨past, hbefore, he⟩, hdescribes⟩

/-- **Sessions describe what the table has had**, whatever happens to a program. -/
theorem described_after (store : ClassTable) (events : List Event) :
    (start store).Described events := by
  induction events using List.reverseRecOn with
  | nil => simp [Described, start, Program.after]
  | append_singleton past e ih => exact ih.step e

theorem portrayed_after (store : ClassTable) (events : List Event) :
    (start store).Portrayed events :=
  (described_after store events).portrayed

/-- Two sessions, each at some moment of a run. -/
theorem Portrayed.agrees (h : p.Recorded A log) {past later : List Event} (hbefore : past <+: later)
    (hpast : p.Portrayed past) (hlater : p.Portrayed later) {i j : Nat} {s s' : Session}
    (hs : (p.after past).sessions[i]? = some s) (hs' : (p.after later).sessions[j]? = some s') :
    s.Agrees s' := by
  have hboth : ∀ r r', s.Corresponds s' r r' → ∃ hd hd' c c' e, s.Holds r c ∧ s'.Holds r' c' ∧
      s.handle r = .ok hd ∧ s'.handle r' = .ok hd' ∧ hd.Portrays s.names c e ∧
      hd'.Portrays s'.names c' e ∧ c.identity = c'.identity := by
    rintro r r' ⟨c, c', ⟨hd, hr, hc⟩, ⟨hd', hr', hc'⟩, hid⟩
    obtain ⟨e, hknew, hp⟩ := hpast i s hs r hd c hr hc
    obtain ⟨e', hknew', hp'⟩ := hlater j s' hs' r' hd' c' hr' hc'
    obtain ⟨b, hb, -⟩ := hp.body
    obtain ⟨b', hb', -⟩ := hp'.body
    obtain rfl := (hknew.mono hbefore).unique h hb (hid ▸ hknew') hb'
    exact ⟨hd, hd', c, c', e, ⟨hd, hr, hc⟩, ⟨hd', hr', hc'⟩, hr, hr', hp, hp', hid⟩
  have hsame : ∀ r r', s.Corresponds s' r r' → ∃ c, s.Holds r c ∧ s'.Holds r' c := by
    intro r r' hrr
    obtain ⟨_, _, c, c', e, hr, hr', -, -, hp, hp', hid⟩ := hboth r r' hrr
    exact ⟨c, hr, hp.snapshot_eq hp' hid ▸ hr'⟩
  refine ⟨fun r r' hrr => ?_, fun r r' hrr => ?_, fun a b a' b' ha hb => ?_,
    fun a b a' b' ha hb => ?_⟩
  · obtain ⟨hd, hd', c, c', e, -, -, hr, hr', hp, hp', hid⟩ := hboth r r' hrr
    exact ⟨hd, hd', hr, hr', hp.eq hp' hid⟩
  · obtain ⟨hd, hd', c, c', e, -, -, hr, hr', hp, hp', hid⟩ := hboth r r' hrr
    simp [Session.nameText, hr, hr', hp.name, hp'.name, bind, Except.bind]
  · obtain ⟨ca, hca, hca'⟩ := hsame a a' ha
    obtain ⟨cb, hcb, hcb'⟩ := hsame b b' hb
    rw [hca.isSubtype hcb, hca'.isSubtype hcb']
  · obtain ⟨ca, hca, hca'⟩ := hsame a a' ha
    obtain ⟨cb, hcb, hcb'⟩ := hsame b b' hb
    rw [hca.isSubclass hcb, hca'.isSubclass hcb']

end

/-- What a run keeps of the classes of a program, from the moment after `events` to the one after
`later`. -/
structure Lasts (p : Program ClassTable) (events later : List Event) : Prop where
  /-- No identity is handed out twice for new entries. -/
  issued : (p.issued (events ++ later)).Nodup
  /-- Nor one that has been known before, be it that of the root or of an array made along with
  another. -/
  fresh : ∀ id ∈ (p.after events).issued later, ∀ e, ¬p.Knew events id e
  /-- What is read of a class lasts until the class is removed: name and loader in any case, and
  everything once it is loaded. -/
  reads : ∀ id, ∃ r r', (p.after events).heap.store.Reads id r ∧
    ((p.after events).after later).heap.store.Reads id r' ∧
      (id ∉ (p.after events).removed later → r.Matures r')
  /-- A class that has been removed is unknown, and stays so. -/
  gone : ∀ id, id ∈ p.removed events ∨ id ∈ (p.after events).removed later →
    ((p.after events).after later).heap.store.Reads id (.unknown id)
  /-- Two sessions say the same of the classes that they have come by, the one at the first moment and
  the other at the second. -/
  agrees : ∀ (i j : Nat) (s s' : Session), (p.after events).sessions[i]? = some s →
    ((p.after events).after later).sessions[j]? = some s' → s.Agrees s'

/-- **Loaded metadata never changes and identities are never handed out again**, whatever happens to
a program. -/
theorem lasts_after (rootName : String) (capacity : Display.Capacity) (events later : List Event) :
    (start (create rootName capacity)).Lasts events later := by
  have hstart := recorded_start rootName capacity
  obtain ⟨A, -, hevents⟩ := hstart.after events
  have hcontinues := hevents.continues later
  refine ⟨(hstart.issued_nodup (events ++ later)).1, fun id hid e => hstart.not_knew hid e,
    fun id => ?_, fun id hid => ?_, ?_⟩
  · obtain ⟨r, r', hr, hr', hm, -⟩ := hcontinues.reads id
    exact ⟨r, r', hr, hr', hm⟩
  · have hgone : id ∈ (start (create rootName capacity)).removed events
        ++ ((start (create rootName capacity)).after events).removed later :=
      List.mem_append.mpr hid
    obtain ⟨-, r', -, hr', -, hunknown⟩ := ((hstart.continues events).trans hcontinues).reads id
    exact hunknown hgone ▸ hr'
  · intro i j s s' hs hs'
    rw [← after_append] at hs'
    exact Portrayed.agrees hstart (List.prefix_append events later) (portrayed_after _ events)
      (portrayed_after _ (events ++ later)) hs hs'

/-- A name that is free again leads to a new identity. -/
example :
    (start (create "Object" Display.Capacity.standard)).issued
      [.perform (.define (.ordinary "A")), .perform (.unload (Identity.ofIndex 1)),
        .perform (.define (.ordinary "A"))] = [Identity.ofIndex 1, Identity.ofIndex 2] := rfl

end Program

end RuntimeTypes
