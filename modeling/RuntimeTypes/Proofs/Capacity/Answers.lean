/-
Answers do not depend on the number of display slots.

Two programs perform the same operations on tables that differ in that number.  The
tables stay alike, so every operation has the same reply.  A query is answered from
records, and those name the same types above the same classes, along the same chains: a
check finds what a record names, and the deepest common class is worked out from chains.
Sessions, requests and what happens at the gate may be as different as they like.

The root may not be named like an array.  A check then finds what records name only as
long as the display is deep enough.
-/
import RuntimeTypes.Proofs.Arrays.Checks
import RuntimeTypes.Proofs.Capacity.Operations
import RuntimeTypes.Proofs.Verification

namespace RuntimeTypes

/-! ### Operations one after the other -/

namespace ClassTable

/-- The replies to a list of operations. -/
def replies (t : ClassTable) : List Op → List (Except TableRefusal Reply)
  | [] => []
  | op :: rest => (op.run t).1 :: replies (op.run t).2 rest

/-- **Operations have the same replies on alike tables**, and leave them alike. -/
theorem Alike.after {t t' : ClassTable} (h : t.Alike t') (hs : t.Sound) (hs' : t'.Sound)
    (ops : List Op) : t.replies ops = t'.replies ops ∧ (t.after ops).Alike (t'.after ops) := by
  induction ops generalizing t t' with
  | nil => exact ⟨rfl, h⟩
  | cons op rest ih =>
      obtain ⟨hreply, hnext⟩ := h.run hs hs' op
      obtain ⟨hreplies, hafter⟩ := ih hnext ((run_ran hs op).sound hs) ((run_ran hs' op).sound hs')
      exact ⟨by simp only [replies, hreply, hreplies], hafter⟩

end ClassTable

namespace Program

open ClassTable

/-- The operations among some events. -/
def operations (events : List Event) : List Op :=
  events.filterMap fun
    | .perform op => some op
    | _ => none

/-- What an event has the table reply. -/
def Event.replies (p : Program ClassTable) : Event → List (Except TableRefusal Reply)
  | .perform op => [(p.perform op).1]
  | _ => []

/-- What a list of events has the table reply. -/
def replies (p : Program ClassTable) (events : List Event) : List (Except TableRefusal Reply) :=
  p.collect Event.replies events

theorem plain_of_operations {events : List Event} (h : ∀ op ∈ operations events, op.Plain) :
    ∀ e ∈ events, e.Plain := by
  intro e he
  cases e with
  | perform op => exact h op (List.mem_filterMap.mpr ⟨.perform op, he, rfl⟩)
  | _ => trivial

section

variable {p p' : Program ClassTable} {log log' : LoadLog} {made made' : ArrayLog}
  {found found' : List (Identity × Identity)}

/-- A plain operation does not wait for the gate. -/
theorem perform_plain (p : Program ClassTable) {op : Op} (hplain : op.Plain) :
    (p.perform op).1 = (op.run p.heap.store).1 ∧
      (p.perform op).2.heap.store = (op.run p.heap.store).2 := by
  cases op with
  | unload id => exact hplain.elim
  | _ => exact ⟨rfl, rfl⟩

/-- Only the operations among the events matter to the table. -/
theorem Kept.operations (h : p.Kept log made found) {events : List Event}
    (hplain : ∀ e ∈ events, e.Plain) :
    p.replies events = p.heap.store.replies (Program.operations events) ∧
      (p.after events).heap.store = p.heap.store.after (Program.operations events) := by
  induction events generalizing p log made found with
  | nil => exact ⟨rfl, rfl⟩
  | cons e rest ih =>
      have he := hplain e List.mem_cons_self
      obtain ⟨hreplies, hafter⟩ :=
        ih (h.step he) fun e' he' => hplain e' (List.mem_cons_of_mem e he')
      cases e with
      | perform op =>
          obtain ⟨hreply, hstore⟩ := p.perform_plain he
          refine ⟨?_, ?_⟩
          · rw [show p.replies (.perform op :: rest)
              = (p.perform op).1 :: (p.step (.perform op)).replies rest from rfl, hreplies, hreply]
            exact congrArg (fun t => _ :: ClassTable.replies t (Program.operations rest)) hstore
          · exact hafter.trans (congrArg (ClassTable.after · _) hstore)
      | openSession options => exact ⟨hreplies, hafter⟩
      | atGate gate => exact ⟨hreplies, hafter⟩
      | request i r =>
          have hstore := (h.recorded.idle (e := .request i r) (by intro op he; cases he)).1
          exact ⟨hreplies.trans (congrArg (ClassTable.replies · _) hstore),
            hafter.trans (congrArg (ClassTable.after · _) hstore)⟩

end

end Program

/-! ### Queries -/

namespace Snapshot.TrueTo

variable {c c' : Snapshot} {b b' : ClassBody}

theorem chain_eq (h : c.TrueTo b) (h' : c'.TrueTo b') (hb : b.Alike b') :
    c.ancestry.chain = c'.ancestry.chain := by
  rw [h.chain, h'.chain, hb.chain]

theorem shape_eq (h : c.TrueTo b) (h' : c'.TrueTo b') (hb : b.Alike b') : c.shape = c'.shape := by
  rw [h.shape, h'.shape, hb.shape]

end Snapshot.TrueTo

theorem Session.Holds.isSubclass {s : Session} {a b : HandleRef} {ca cb : Snapshot}
    (ha : s.Holds a ca) (hb : s.Holds b cb) : s.isSubclass a b = .ok (ca.isSubclass cb) := by
  unfold Session.isSubclass
  simp only [ha.snapshot, hb.snapshot, bind, Except.bind]
  by_cases hab : a = b
  · subst hab
    obtain rfl := ha.inj hb
    simp [Snapshot.isSubclass]
  · simp [hab]

/-- Looking for the common ancestor of two types comes to the loaded handle of `c`, unless the gate
keeps the session out or the session has no room for another handle. -/
structure ComesTo (w : Workspace ClassTable) (a b : HandleRef) (c : Identity) : Prop where
  answer : ∀ l w', Query.commonAncestor a b w = .ok l w' →
    ∃ cl, w'.session.Holds l cl ∧ cl.identity = c
  failure : ∀ e w', Query.commonAncestor a b w = .error e w' →
    (∃ refusal, w.heap.gate.enter w.session.options.waitBound = .error refusal ∧ e = .heap refusal) ∨
      ∃ text, w.session.RunsOut text e

/-- Two types are to each other in one workspace what two types are in another. -/
structure SameAnswers (w w' : Workspace ClassTable) (a b a' b' : HandleRef) : Prop where
  isSubtype : w.session.isSubtype a b = w'.session.isSubtype a' b'
  isSubclass : w.session.isSubclass a b = w'.session.isSubclass a' b'
  commonAncestor : ∃ c, ComesTo w a b c ∧ ComesTo w' a' b' c

namespace Program

open ClassTable

section

variable {p p' : Program ClassTable} {log log' : LoadLog} {made made' : ArrayLog}
  {found found' : List (Identity × Identity)}

/-- Resolving a loaded class fails at the gate or for want of room. -/
theorem Kept.admits (h : p.Kept log made found) {id : Identity} {b : ClassBody}
    (hb : p.heap.store.bodyAt? id = some b) (s : Session) {F : QueryFailure → Prop}
    (hcrowded : ∀ text e, s.RunsOut text e → F e) : Query.Admits F p.heap.store s id where
  unknown := fun hnone => by
    obtain ⟨entry, he, -⟩ := bodyAt?_eq_some.mp hb
    rw [hnone] at he
    cases he
  malformed := fun b' name e hb' he => by
    obtain ⟨may, hplaced⟩ := (h.orderly.regular h.recorded.chronicle hb').placed
    obtain ⟨ancestry, hok⟩ := h.recorded.chronicle.ofRecord_ok h.recorded.sound hb' hplaced name
      s.options.verifyRecords
    rw [hok] at he
    cases he
  crowded := fun entry e _ _ => hcrowded entry.name e

/-- The deepest common class is what the search comes to. -/
theorem Kept.comesTo (h : p.Kept log made found) {i : Nat} {s : Session}
    (hs : p.sessions[i]? = some s) {a b : HandleRef} {ca cb : Snapshot} (ha : s.Holds a ca)
    (hb : s.Holds b cb) {c : Identity} (hc : ca.commonAncestor cb = .ok c) :
    ComesTo { session := s, heap := p.heap } a b c := by
  have hf := h.recorded.faithful i s hs
  obtain ⟨c', hdeep, hab, hba, body, hbody⟩ := h.recorded.deepestCommon hf ha hb
  obtain rfl := Except.ok.inj (hc.symm.trans hab)
  have hfinds := h.recorded.findsCommon hf ha hb hdeep hab hba ⟨body, hbody⟩
  refine ⟨fun l w' hl => (hfinds.answer l w' hl).1, fun e w' he => ?_⟩
  rw [Query.commonAncestor_apply (w := { session := s, heap := p.heap }) ha hb hab] at he
  split at he
  · cases he
  · split at he
    · cases he
    · have hadmits := h.admits hbody s
        (F := fun e => (∃ refusal, p.heap.gate.enter s.options.waitBound = .error refusal ∧
            e = .heap refusal) ∨ ∃ text, s.RunsOut text e)
        fun text e hcrowded => .inr ⟨text, hcrowded⟩
      have hresolve := Query.resolve_learning (h.recorded.sees hs) hadmits
        fun refusal hgate => .inl ⟨refusal, hgate, rfl⟩
      exact (Ends.of_error hresolve he).2

/-- Two programs with alike tables give the same answers. -/
theorem Kept.sameAnswers (h : p.Kept log made found) (h' : p'.Kept log' made' found')
    (ht : p.heap.store.Alike p'.heap.store) {i j : Nat} {s s' : Session}
    (hs : p.sessions[i]? = some s) (hs' : p'.sessions[j]? = some s') {a b a' b' : HandleRef}
    {ca cb ca' cb' : Snapshot} (ha : s.Holds a ca) (hb : s.Holds b cb) (ha' : s'.Holds a' ca')
    (hb' : s'.Holds b' cb') (hida : ca.identity = ca'.identity) (hidb : cb.identity = cb'.identity) :
    SameAnswers { session := s, heap := p.heap } { session := s', heap := p'.heap } a b a' b' := by
  obtain ⟨ab, hab, hta⟩ := (h.recorded.faithful i s hs).trueTo ha
  obtain ⟨bb, hbb, htb⟩ := (h.recorded.faithful i s hs).trueTo hb
  obtain ⟨ab', hab', hta'⟩ := (h'.recorded.faithful j s' hs').trueTo ha'
  obtain ⟨bb', hbb', htb'⟩ := (h'.recorded.faithful j s' hs').trueTo hb'
  have halike : ab.Alike ab' := by
    obtain ⟨x, hx, hax⟩ := ht.bodyAt? hab
    obtain rfl := Option.some.inj (hx.symm.trans (hida ▸ hab'))
    exact hax
  have hblike : bb.Alike bb' := by
    obtain ⟨x, hx, hbx⟩ := ht.bodyAt? hbb
    obtain rfl := Option.some.inj (hx.symm.trans (hidb ▸ hbb'))
    exact hbx
  have hchaina := hta.chain_eq hta' halike
  have hchainb := htb.chain_eq htb' hblike
  have hsubtype : ca.isSubtype cb = ca'.isSubtype cb' := by
    rw [Bool.eq_iff_iff, h.isSubtype_iff hab hta hbb htb, h'.isSubtype_iff hab' hta' hbb' htb',
      halike.mem_supers_iff, hida, hidb]
  have hsubclass : ca.isSubclass cb = ca'.isSubclass cb' := by
    unfold Snapshot.isSubclass
    rw [hida, hidb, hchaina, htb.shape_eq htb' hblike]
  have hcommon : ca.commonAncestor cb = ca'.commonAncestor cb' := by
    unfold Snapshot.commonAncestor Snapshot.lineage
    rw [hida, hidb, hchaina, hchainb]
  obtain ⟨c, -, hc, -⟩ := h.recorded.deepestCommon (h.recorded.faithful i s hs) ha hb
  refine ⟨?_, ?_, c, h.comesTo hs ha hb hc, h'.comesTo hs' ha' hb' (hcommon ▸ hc)⟩
  · rw [ha.isSubtype hb, ha'.isSubtype hb', hsubtype]
  · rw [ha.isSubclass hb, ha'.isSubclass hb', hsubclass]

end

/-- **Nothing depends on the number of display slots**: neither the replies to the operations of a
program nor the answers to its queries. -/
theorem sameAnswers_capacity (rootName : String) (capacity capacity' : Display.Capacity)
    (hroot : isArrayName rootName = false) {events events' : List Event}
    (hops : operations events = operations events') (hplain : ∀ op ∈ operations events, op.Plain) :
    (start (create rootName capacity)).replies events
        = (start (create rootName capacity')).replies events' ∧
      ∀ (i j : Nat) (s s' : Session) (a b a' b' : HandleRef) (ca cb ca' cb' : Snapshot),
        ((start (create rootName capacity)).after events).sessions[i]? = some s →
        ((start (create rootName capacity')).after events').sessions[j]? = some s' →
        s.Holds a ca → s.Holds b cb → s'.Holds a' ca' → s'.Holds b' cb' →
        ca.identity = ca'.identity → cb.identity = cb'.identity →
        SameAnswers
          { session := s, heap := ((start (create rootName capacity)).after events).heap }
          { session := s', heap := ((start (create rootName capacity')).after events').heap }
          a b a' b' := by
  have hevents := plain_of_operations hplain
  have hevents' := plain_of_operations (hops ▸ hplain)
  have halike := (alike_create rootName capacity capacity').after (sound_create rootName capacity)
    (sound_create rootName capacity') (operations events)
  have hfresh : ∀ c, (start (create rootName c)).Kept [] [] [] := fun c =>
    ⟨recorded_start rootName c, orderly_create c hroot, nofun⟩
  obtain ⟨hreplies, hstore⟩ := (hfresh capacity).operations hevents
  obtain ⟨hreplies', hstore'⟩ := (hfresh capacity').operations hevents'
  refine ⟨?_, ?_⟩
  · rw [hreplies, hreplies', ← hops]
    exact halike.1
  · intro i j s s' a b a' b' ca cb ca' cb' hs hs' ha hb ha' hb' hida hidb
    refine (kept_after capacity hroot hevents).sameAnswers (kept_after capacity' hroot hevents') ?_
      hs hs' ha hb ha' hb' hida hidb
    rw [hstore, hstore', ← hops]
    exact halike.2

/-- A display of three slots. -/
def threeSlots : Display.Capacity := ⟨3, by decide, by decide⟩

/-- With two slots and with eight, the array of the class at the end is a subtype of the array above
it. -/
theorem sameAnswers_arraysTooDeep :
    isArrayName "Object" = false ∧ (∀ op ∈ operations arraysTooDeep, op.Plain) ∧
      ∃ s s' ca cb ca' cb',
        ((start (create "Object" twoSlots)).after arraysTooDeep).sessions[0]? = some s ∧
          ((start (create "Object" Display.Capacity.standard)).after arraysTooDeep).sessions[0]?
            = some s' ∧
          s.Holds ⟨0, 0⟩ ca ∧ s.Holds ⟨0, 1⟩ cb ∧ s'.Holds ⟨0, 0⟩ ca' ∧ s'.Holds ⟨0, 1⟩ cb' ∧
          ca.identity = ca'.identity ∧ cb.identity = cb'.identity ∧
          s.isSubtype ⟨0, 0⟩ ⟨0, 1⟩ = .ok true ∧
          SameAnswers
            { session := s, heap := ((start (create "Object" twoSlots)).after arraysTooDeep).heap }
            { session := s'
              heap := ((start (create "Object" Display.Capacity.standard)).after arraysTooDeep).heap }
            ⟨0, 0⟩ ⟨0, 1⟩ ⟨0, 0⟩ ⟨0, 1⟩ := by
  have hplain : ∀ op ∈ operations arraysTooDeep, op.Plain := by decide
  refine ⟨rfl, hplain, _, _, _, _, _, _, rfl, rfl, ⟨_, rfl, rfl⟩, ⟨_, rfl, rfl⟩, ⟨_, rfl, rfl⟩,
    ⟨_, rfl, rfl⟩, rfl, rfl, rfl, ?_⟩
  have hops : operations arraysTooDeep = operations arraysTooDeep := rfl
  have h := (sameAnswers_capacity "Object" twoSlots Display.Capacity.standard rfl hops hplain).2
  exact h 0 0 _ _ _ _ _ _ _ _ _ _ rfl rfl ⟨_, rfl, rfl⟩ ⟨_, rfl, rfl⟩ ⟨_, rfl, rfl⟩ ⟨_, rfl, rfl⟩ rfl
    rfl

/-- Where the root is called what the array of `A` would be called, three slots are enough to find
the array of `B` above that of `C`, and two are not. -/
theorem not_sameAnswers_arraysPastRoot :
    (∀ op ∈ operations arraysPastRoot, op.Plain) ∧
      ∃ s s' ca cb ca' cb',
        ((start (create "[LA;" twoSlots)).after arraysPastRoot).sessions[0]? = some s ∧
          ((start (create "[LA;" threeSlots)).after arraysPastRoot).sessions[0]? = some s' ∧
          s.Holds ⟨0, 0⟩ ca ∧ s.Holds ⟨0, 1⟩ cb ∧ s'.Holds ⟨0, 0⟩ ca' ∧ s'.Holds ⟨0, 1⟩ cb' ∧
          ca.identity = ca'.identity ∧ cb.identity = cb'.identity ∧
          s.isSubtype ⟨0, 0⟩ ⟨0, 1⟩ = .ok false ∧ s'.isSubtype ⟨0, 0⟩ ⟨0, 1⟩ = .ok true := by
  refine ⟨by decide, _, _, _, _, _, _, rfl, rfl, ⟨_, rfl, rfl⟩, ⟨_, rfl, rfl⟩, ⟨_, rfl, rfl⟩,
    ⟨_, rfl, rfl⟩, rfl, rfl, rfl, rfl⟩

end Program

end RuntimeTypes
