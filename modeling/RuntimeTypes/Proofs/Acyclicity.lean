/-
Records pass verification, and no two classes are above each other.

A session that verifies never finds fault with a record of the table, as each one was
placed below a chain that ends at the root (`Proper`), lists nothing twice, and never names its
own class.  That two classes are not above each other takes more than the acyclicity of a
table, since the one may be gone when the other is loaded, and a record keeps naming what
is gone.  For classes and interfaces it follows from closure: what is above a supertype is
above the class, so the class would be above itself.  An array is younger than whatever its
record names.
-/
import RuntimeTypes.Proofs.Immutability
import RuntimeTypes.Proofs.Table.Proper

namespace RuntimeTypes

/-! ### Two records -/

/-- Two classes are not above each other, whatever has become of them. -/
theorem Archive.AllLawful.not_mutual {A : Archive} {capacity : Display.Capacity}
    (h : A.AllLawful capacity) {x y : Identity} {b c : ClassBody} (hx : A x = some b)
    (hy : A y = some c) (hselfx : x ∉ b.ancestry.supers) (hselfy : y ∉ c.ancestry.supers)
    (holderx : b.shape.isArray = true → ∀ s ∈ b.ancestry.supers, s.index < x.index)
    (holdery : c.shape.isArray = true → ∀ s ∈ c.ancestry.supers, s.index < y.index) :
    ¬(y ∈ b.ancestry.supers ∧ x ∈ c.ancestry.supers) := by
  rintro ⟨hyx, hxy⟩
  have hclosed : ∀ {u v : Identity} {d e : ClassBody}, A u = some d → A v = some e →
      d.shape.isArray = false → v ∈ d.ancestry.supers → u ∈ e.ancestry.supers →
        u ∈ d.ancestry.supers := by
    intro u v d e hu hv hn hvu huv
    obtain ⟨e', he', -, hsub⟩ := (h u d hu hn).closed v hvu
    obtain rfl := Option.some.inj (hv.symm.trans he')
    exact hsub u huv
  cases hbx : b.shape.isArray with
  | false => exact hselfx (hclosed hx hy hbx hyx hxy)
  | true =>
      cases hcy : c.shape.isArray with
      | false => exact hselfy (hclosed hy hx hcy hxy hyx)
      | true => exact Nat.lt_asymm (holderx hbx y hyx) (holdery hcy x hxy)

/-- A check that holds finds a type that the record names. -/
theorem Snapshot.mem_supers_of_isSubtype {sub sup : Snapshot} {b : ClassBody} (hsub : sub.TrueTo b)
    (h : sub.isSubtype sup = true) (hne : sub.identity ≠ sup.identity) :
    sup.identity ∈ b.ancestry.supers := by
  unfold isSubtype at h
  rw [if_neg hne] at h
  split at h
  · rename_i depth _
    have hat : sub.ancestry.display[depth]? = some sup.identity := of_decide_eq_true h
    refine AncestryRecord.mem_supers_of_chain ?_
    rw [← hsub.chain]
    exact List.mem_of_mem_take (List.mem_of_getElem? hat)
  · refine AncestryRecord.mem_supers_of_secondary ?_
    rw [← hsub.secondary]
    simpa using h

namespace Session

theorem holds_of_isSubtype {s : Session} {a b : HandleRef} {answer : Bool}
    (h : s.isSubtype a b = .ok answer) : ∃ ca cb, s.Holds a ca ∧ s.Holds b cb := by
  unfold isSubtype at h
  cases ha : s.snapshot a "is_subtype_of" with
  | error e => simp [ha, bind, Except.bind] at h
  | ok ca =>
      cases hb : s.snapshot b "is_subtype_of" with
      | error e => simp [ha, hb, bind, Except.bind] at h
      | ok cb => exact ⟨ca, cb, holds_of_snapshot ha, holds_of_snapshot hb⟩

end Session

namespace ClassTable

/-- The record of a class is read from its body. -/
theorem ancestry_eq_ok_iff {t : ClassTable} {id : Identity} {record : AncestryRecord} :
    MetadataSource.ancestry id t = .ok record t ↔ ∃ b, t.bodyAt? id = some b ∧ b.ancestry = record := by
  show readObject id ancestryOf t = .ok record t ↔ _
  unfold readObject bodyAt?
  cases t.objectAt id with
  | none => simp
  | some entry => cases hb : entry.body? <;> simp [ancestryOf, hb]

end ClassTable

theorem Gate.enter_ne_cyclicHierarchy {g : Gate} {bound : Option Duration} {e : HeapFailure}
    (h : g.enter bound = .error e) (name : String) : e ≠ .cyclicHierarchy name := by
  unfold enter tryEnter at h
  grind

namespace Program

open ClassTable

/-- At some moment of a run the table has handed out this record for a class. -/
def HandsOut (p : Program ClassTable) (events : List Event) (id : Identity)
    (record : AncestryRecord) : Prop :=
  ∃ past, past <+: events ∧ MetadataSource.ancestry id (p.after past).heap.store
    = .ok record (p.after past).heap.store

/-- The table has a chronicle, and its records are as they have to be. -/
structure Checkable (p : Program ClassTable) (A : Archive) (log : LoadLog) : Prop where
  recorded : p.Recorded A log
  proper : p.heap.store.Everywhere (Proper p.heap.store.capacity)
  unrepeated : p.heap.store.Unrepeated

namespace Checkable

variable {p : Program ClassTable} {A : Archive} {log : LoadLog}

theorem step (h : p.Checkable A log) (e : Event) :
    ∃ A', Archive.Within A A' ∧ (p.step e).Checkable A' (log ++ Event.loads p e) := by
  obtain ⟨A', hA', h'⟩ := h.recorded.step e
  rcases h.recorded.step_store e with hstore | ⟨op, hstore⟩
  · exact ⟨A', hA', h', hstore ▸ h.proper, hstore ▸ h.unrepeated⟩
  · have hran := run_ran h.recorded.sound op
    exact ⟨A', hA', h', hstore ▸ hran.proper h.recorded.sound h.proper,
      hstore ▸ op.run_unrepeated h.recorded.sound h.unrepeated⟩

/-- **Records stay as they have to be**, whatever happens. -/
theorem after (h : p.Checkable A log) (events : List Event) :
    ∃ A', Archive.Within A A' ∧ (p.after events).Checkable A' (log ++ p.loads events) :=
  logged_after (G := fun _ _ => True) (fun h _ => ⟨trivial, h.step _⟩) trivial h

theorem start (rootName : String) (capacity : Display.Capacity) :
    (Program.start (create rootName capacity)).Checkable (create rootName capacity).bodyAt? [] :=
  ⟨recorded_start rootName capacity, proper_create rootName capacity,
    unrepeated_create rootName capacity⟩

/-- A record of the table is taken over, checked or not. -/
theorem ofRecord_ok (h : p.Checkable A log) {id : Identity} {b : ClassBody}
    (hb : p.heap.store.bodyAt? id = some b) (name : String) (verify : Bool) :
    ∃ ancestry, Ancestry.ofRecord b.ancestry id name verify = .ok ancestry := by
  obtain ⟨may, hplaced⟩ := (h.proper id b hb).placed
  exact h.recorded.chronicle.ofRecord_ok h.recorded.sound hb hplaced name verify

theorem not_mem_supers (h : p.Checkable A log) {id : Identity} {b : ClassBody}
    (hb : p.heap.store.bodyAt? id = some b) : id ∉ b.ancestry.supers :=
  fun hself => h.recorded.sound.acyclic id (.single ⟨b, hb, hself⟩)

/-- A class is loaded at one moment, and a class at a later one. -/
theorem not_mutual_of_prefix (h : p.Checkable A log) {past later : List Event}
    (hbefore : past <+: later) {x y : Identity} {b c : ClassBody}
    (hx : (p.after past).heap.store.bodyAt? x = some b)
    (hy : (p.after later).heap.store.bodyAt? y = some c) :
    ¬(y ∈ b.ancestry.supers ∧ x ∈ c.ancestry.supers) := by
  obtain ⟨meanwhile, rfl⟩ := hbefore
  obtain ⟨A₁, -, h₁⟩ := h.after past
  obtain ⟨A₂, hwithin, h₂⟩ := h₁.after meanwhile
  rw [after_append] at hy
  refine h₂.recorded.chronicle.lawful.not_mutual ?_ (h₂.recorded.chronicle.live y c hy)
    (h₁.not_mem_supers hx) (h₂.not_mem_supers hy) (h₁.proper x b hx).older (h₂.proper y c hy).older
  exact hwithin x b (h₁.recorded.chronicle.live x b hx)

/-- Two classes that have been loaded, at whatever moments, are not above each other. -/
theorem not_mutual (h : p.Checkable A log) {events past past' : List Event}
    (hpast : past <+: events) (hpast' : past' <+: events) {x y : Identity} {b c : ClassBody}
    (hx : (p.after past).heap.store.bodyAt? x = some b)
    (hy : (p.after past').heap.store.bodyAt? y = some c) :
    ¬(y ∈ b.ancestry.supers ∧ x ∈ c.ancestry.supers) := by
  rcases List.prefix_or_prefix_of_prefix hpast hpast' with hbefore | hbefore
  · exact h.not_mutual_of_prefix hbefore hx hy
  · exact fun hboth => h.not_mutual_of_prefix hbefore hy hx ⟨hboth.2, hboth.1⟩

theorem isSubtype_antisymm (h : p.Checkable A log) {events : List Event}
    (hportrayed : p.Portrayed events) {A' : Archive} {log' : LoadLog}
    (hafter : (p.after events).Recorded A' log') {i : Nat} {s : Session}
    (hs : (p.after events).sessions[i]? = some s) {a b : HandleRef}
    (hab : s.isSubtype a b = .ok true) (hba : s.isSubtype b a = .ok true) : a = b := by
  obtain ⟨ca, cb, ha, hb⟩ := Session.holds_of_isSubtype hab
  rw [ha.isSubtype hb] at hab
  rw [hb.isSubtype ha] at hba
  refine (hafter.faithful i s hs).ref_inj ha hb ?_
  by_contra hne
  -- Each handle portrays an entry, and the two entries name each other.
  obtain ⟨hda, hra, hca⟩ := ha
  obtain ⟨hdb, hrb, hcb⟩ := hb
  obtain ⟨ea, ⟨past, hpast, hea⟩, hpa⟩ := hportrayed i s hs a hda ca hra hca
  obtain ⟨eb, ⟨past', hpast', heb⟩, hpb⟩ := hportrayed i s hs b hdb cb hrb hcb
  obtain ⟨ab, hab', hta⟩ := hpa.body
  obtain ⟨bb, hbb', htb⟩ := hpb.body
  refine h.not_mutual hpast hpast' (bodyAt?_eq_some.mpr ⟨ea, hea, hab'⟩)
    (bodyAt?_eq_some.mpr ⟨eb, heb, hbb'⟩) ⟨?_, ?_⟩
  · exact Snapshot.mem_supers_of_isSubtype hta (Except.ok.inj hab) hne
  · exact Snapshot.mem_supers_of_isSubtype htb (Except.ok.inj hba) (Ne.symm hne)

/-- Resolving a class never finds its record malformed. -/
theorem resolve_ne_cyclicHierarchy (h : p.Checkable A log) {i : Nat} {s : Session}
    (hs : p.sessions[i]? = some s) {id : Identity} {e : QueryFailure} {w : Workspace ClassTable}
    (hr : Query.resolve id { session := s, heap := p.heap } = .error e w) (name : String) :
    e ≠ .heap (.cyclicHierarchy name) := by
  have hadmits : Query.Admits (fun e => e ≠ .heap (.cyclicHierarchy name)) p.heap.store s id :=
    { unknown := nofun
      malformed := fun b name' e' hb he => by
        obtain ⟨ancestry, hok⟩ := h.ofRecord_ok hb name' s.options.verifyRecords
        rw [hok] at he
        cases he
      crowded := by rintro entry e - - (- | -) <;> nofun }
  refine (Ends.of_error (Query.resolve_learning (h.recorded.sees hs) hadmits ?_) hr).2
  intro refusal hgate heq
  exact Gate.enter_ne_cyclicHierarchy hgate name (QueryFailure.heap.inj heq)

end Checkable

/-- What holds of all records that the table of a program hands out in the course of some events. -/
structure Verifies (p : Program ClassTable) (events : List Event) : Prop where
  /-- A record passes verification, and lists no secondary supertype twice. -/
  accepted : ∀ id record, p.HandsOut events id record →
    (∀ name, ∃ ancestry, Ancestry.ofRecord record id name true = .ok ancestry) ∧
      record.secondary.Nodup
  /-- No two classes are above each other, nor is one above itself, whatever becomes of them. -/
  acyclic : ∀ x y record record', p.HandsOut events x record → p.HandsOut events y record' →
    ¬(y ∈ record.supers ∧ x ∈ record'.supers)
  /-- A subtype check tells two types apart, one way or the other. -/
  antisymm : ∀ (i : Nat) (s : Session), (p.after events).sessions[i]? = some s → ∀ a b,
    s.isSubtype a b = .ok true → s.isSubtype b a = .ok true → a = b
  /-- No session is told that a record is malformed. -/
  resolves : ∀ (i : Nat) (s : Session), (p.after events).sessions[i]? = some s → ∀ id e w name,
    Query.resolve id { session := s, heap := (p.after events).heap } = .error e w →
      e ≠ .heap (.cyclicHierarchy name)

/-- **Every record that a table ever hands out passes verification, and the hierarchy has no
circles**, whatever happens to the program. -/
theorem verifies_after (rootName : String) (capacity : Display.Capacity) (events : List Event) :
    (start (create rootName capacity)).Verifies events := by
  have hstart := Checkable.start rootName capacity
  obtain ⟨A, -, hafter⟩ := hstart.after events
  refine ⟨?_, ?_, ?_, ?_⟩
  · rintro id record ⟨past, -, hrecord⟩
    obtain ⟨A', -, hpast⟩ := hstart.after past
    obtain ⟨b, hb, rfl⟩ := ancestry_eq_ok_iff.mp hrecord
    exact ⟨fun name => hpast.ofRecord_ok hb name true, hpast.unrepeated id b hb⟩
  · rintro x y record record' ⟨past, hpast, hx⟩ ⟨past', hpast', hy⟩
    obtain ⟨b, hb, rfl⟩ := ancestry_eq_ok_iff.mp hx
    obtain ⟨c, hc, rfl⟩ := ancestry_eq_ok_iff.mp hy
    exact hstart.not_mutual hpast hpast' hb hc
  · intro i s hs a b
    exact hstart.isSubtype_antisymm (portrayed_after _ events) hafter.recorded hs
  · intro i s hs id e w name hr
    exact hafter.resolve_ne_cyclicHierarchy hs hr name

end Program

end RuntimeTypes
