/-
What queries do over a class table.

Reading a table does not change it, so a query leaves the table as it was and a session
that has learnt something, however it ends: `Leads` says so, and `Request.ends` shows it
of every request.  Of the handle that resolving a class yields, `resolve_learning` says
what is needed later on: it is of that class, and it is loaded unless the class is only
declared.
-/
import RuntimeTypes.Program
import RuntimeTypes.Proofs.Session.Faithful
import RuntimeTypes.Proofs.Session.Rules
import RuntimeTypes.Proofs.Table.Moves

namespace RuntimeTypes

namespace Workspace

/-- The archive knows the bodies of the table, and what the session holds. -/
structure Sees (w : Workspace ClassTable) (A : Archive) : Prop where
  live : Archive.Within w.heap.store.bodyAt? A
  faithful : w.session.Faithful A

/-- The table is as it was, and the session has learnt something. -/
structure Leads (A : Archive) (w w' : Workspace ClassTable) : Prop where
  store : w'.heap.store = w.heap.store
  learns : Session.Learns A w.session w'.session

variable {A : Archive} {w w' w'' : Workspace ClassTable}

theorem Leads.refl (h : w.Sees A) : Leads A w w := ⟨rfl, .refl h.faithful⟩

theorem Leads.trans (h : Leads A w w') (h' : Leads A w' w'') : Leads A w w'' :=
  ⟨h'.store.trans h.store, h.learns.trans h'.learns⟩

theorem Leads.sees (h : Leads A w w') (hs : w.Sees A) : w'.Sees A :=
  ⟨h.store ▸ hs.live, h.learns.faithful⟩

end Workspace

namespace Query

open Workspace

variable {A : Archive} {F : QueryFailure → Prop} {w : Workspace ClassTable} {α : Type}

/-- However the query ends, the table is as it was and the session has learnt something.  Where it
yields a value `P` holds besides, and where it fails the failure is one of `F`. -/
def Learning (A : Archive) (F : QueryFailure → Prop) (q : Query ClassTable α)
    (w : Workspace ClassTable) (P : α → Workspace ClassTable → Prop) : Prop :=
  Ends q w (fun a w' => Leads A w w' ∧ P a w') (fun e w' => Leads A w w' ∧ F e)

namespace Learning

variable {q : Query ClassTable α} {P Q : α → Workspace ClassTable → Prop}

theorem pure (h : w.Sees A) {a : α} (hP : P a w) : Learning A F (Pure.pure a) w P :=
  ⟨.refl h, hP⟩

theorem throw (h : w.Sees A) {e : QueryFailure} (he : F e) : Learning A F (throw e) w P :=
  ⟨.refl h, he⟩

theorem mono {F' : QueryFailure → Prop} (h : Learning A F q w P)
    (hPQ : ∀ a w', Leads A w w' → P a w' → Q a w') (hF : ∀ e, F e → F' e) :
    Learning A F' q w Q :=
  Ends.mono h (fun a w' h' => ⟨h'.1, hPQ a w' h'.1 h'.2⟩) fun e _ h' => ⟨h'.1, hF e h'.2⟩

/-- What has been learnt stays learnt, so only the value is handed on. -/
theorem bind {β : Type} {k : α → Query ClassTable β} {R : β → Workspace ClassTable → Prop}
    (h : Learning A F q w P)
    (hk : ∀ a w', Leads A w w' → P a w' → Learning A F (k a) w' R) :
    Learning A F (q >>= k) w R :=
  Ends.bind_along (R := Leads A) Leads.trans h hk

theorem map {β : Type} {f : α → β} {R : β → Workspace ClassTable → Prop}
    (h : Learning A F q w fun a w' => R (f a) w') : Learning A F (f <$> q) w R :=
  Ends.map h

end Learning

/-! ### The pieces -/

theorem ask_learning (h : w.Sees A) (f : Session → Except QueryFailure α)
    (hF : ∀ e, f w.session = .error e → F e) :
    Learning A F (ask f) w fun a w' => w' = w ∧ f w.session = .ok a :=
  ends_ask (fun _ ha => ⟨.refl h, rfl, ha⟩) fun e he => ⟨.refl h, hF e he⟩

/-- Looking something up in a session cannot fail. -/
theorem ask_ok_learning (h : w.Sees A) (f : Session → α) :
    Learning A F (ask fun s => .ok (f s)) w fun a w' => w' = w ∧ f w.session = a :=
  ends_ask (fun _ ha => ⟨.refl h, rfl, Except.ok.inj ha⟩) nofun

theorem learn_learning (h : w.Sees A) {f : Session → Except QueryFailure (α × Session)}
    {P : α → Workspace ClassTable → Prop}
    (hf : ∀ a s, f w.session = .ok (a, s) →
      Session.Learns A w.session s ∧ P a { w with session := s })
    (hF : ∀ e, f w.session = .error e → F e) : Learning A F (learn f) w P :=
  ends_learn (fun a s hs => ⟨⟨rfl, (hf a s hs).1⟩, (hf a s hs).2⟩)
    fun e he => ⟨.refl h, hF e he⟩

theorem intern_learning (h : w.Sees A) (text : String)
    (hF : ∀ e, w.session.RunsOut text e → F e) :
    Learning A F (intern text) w fun _ w' =>
      w' = { w with session := w.session.met text } :=
  ends_intern (fun _ => ⟨⟨rfl, h.faithful.met text⟩, rfl⟩) fun e he => ⟨.refl h, hF e he⟩

/-- Reading an entry changes nothing. -/
theorem read_learning (h : w.Sees A) (id : Identity) (f : ClassObject → Except HeapFailure α)
    (hnone : w.heap.store.objectAt id = none → F (.heap (.unknownIdentity id)))
    (hF : ∀ entry e, w.heap.store.objectAt id = some entry → f entry = .error e → F (.heap e)) :
    Learning A F (read (ClassTable.readObject id f)) w fun a w' =>
      w' = w ∧ ∃ e, w.heap.store.objectAt id = some e ∧ f e = .ok a := by
  unfold Learning Ends read Heap.read ClassTable.readObject
  cases he : w.heap.store.objectAt id with
  | none => exact ⟨.refl h, hnone he⟩
  | some entry =>
      simp only
      cases hf : f entry with
      | ok a => exact ⟨.refl h, rfl, entry, rfl, hf⟩
      | error e => exact ⟨.refl h, hF entry e he hf⟩

/-- Reading what an entry has. -/
theorem read_entry (h : w.Sees A) {id : Identity} {f : ClassObject → Except HeapFailure α}
    {entry : ClassObject} {a : α} (he : w.heap.store.objectAt id = some entry)
    (hf : f entry = .ok a) :
    Learning A F (read (ClassTable.readObject id f)) w fun a' w' => w' = w ∧ a' = a := by
  refine (read_learning h id f (fun hnone => ?_) fun entry' e he' hfe => ?_).mono ?_ fun _ h' => h'
  · rw [he] at hnone
    cases hnone
  · obtain rfl := Option.some.inj (he.symm.trans he')
    rw [hf] at hfe
    cases hfe
  · rintro a' w' - ⟨rfl, entry', he', hf'⟩
    obtain rfl := Option.some.inj (he.symm.trans he')
    exact ⟨rfl, Except.ok.inj (hf'.symm.trans hf)⟩

theorem find?_learning (h : w.Sees A) (loader : Loader) (name : String) (hF : ∀ e, F e) :
    Learning A F (read (ClassTable.find loader name)) w fun _ w' => w' = w := by
  unfold Learning Ends read Heap.read ClassTable.find
  cases w.heap.store.loaders.chain? loader with
  | none => exact ⟨.refl h, hF _⟩
  | some chain => exact ⟨.refl h, rfl⟩

theorem entered_leads (h : w.Sees A) (gate : Gate) : Leads A w (entered w gate) :=
  ⟨rfl, .of_same h.faithful rfl rfl rfl rfl⟩

/-- A scope is only about the gate and the counters. -/
theorem inScope_learning (h : w.Sees A) {body : Query ClassTable α}
    {P : α → Workspace ClassTable → Prop}
    (hbody : ∀ gate, Learning A F body (entered w gate) fun a after => P a (left after))
    (hF : ∀ e, w.heap.gate.enter w.session.options.waitBound = .error e → F (.heap e)) :
    Learning A F (inScope body) w P := by
  refine ends_inScope (fun e he => ⟨.refl h, hF e he⟩) fun gate _ => ?_
  have hleft : ∀ after, Leads A (entered w gate) after → Leads A w (left after) :=
    fun after hafter => (entered_leads h gate).trans ⟨hafter.store, hafter.learns⟩
  exact Ends.mono (hbody gate) (fun _ after h' => ⟨hleft after h'.1, h'.2⟩)
    fun _ after h' => ⟨hleft after h'.1, h'.2⟩

/-! ### Resolving -/

/-- The failures of resolving a class: the gate's, a class that is not there, a record that is
refused, and too many handles or names.  The store has no other of its own. -/
inductive Refuses (id : Identity) : QueryFailure → Prop
  | shutDown : Refuses id (.heap .shutDown)
  | timeout (waited : Duration) : Refuses id (.heap (.timeout waited))
  | blocked : Refuses id (.heap .blocked)
  | unknown : Refuses id (.heap (.unknownIdentity id))
  | malformed (name : String) : Refuses id (.heap (.cyclicHierarchy name))
  | exhausted (limit : Nat) : Refuses id (.exhausted limit)

theorem Refuses.ne_storeFailure {id : Identity} {e : QueryFailure} (h : Refuses id e)
    (detail : String) : e ≠ .heap (.storeFailure detail) := by
  cases h <;> nofun

theorem refuses_of_ofRecord {record : AncestryRecord} {id : Identity} {name : String}
    {verify : Bool} {e : HeapFailure} (h : Ancestry.ofRecord record id name verify = .error e) :
    Refuses id (.heap e) := by
  obtain rfl := Ancestry.ofRecord_eq_error h
  exact .malformed name

theorem refuses_of_enter {gate : Gate} {bound : Option Duration} {id : Identity} {e : HeapFailure}
    (h : gate.enter bound = .error e) : Refuses id (.heap e) := by
  unfold Gate.enter Gate.tryEnter at h
  cases hs : gate.shutDown with
  | true =>
      simp only [hs, if_true, Except.error.injEq] at h
      exact h ▸ .shutDown
  | false =>
      cases hp : gate.pending with
      | false => simp [hs, hp] at h
      | true =>
          cases bound with
          | none =>
              simp only [hs, hp, if_true, Bool.false_eq_true, if_false, Except.error.injEq] at h
              exact h ▸ .blocked
          | some waited =>
              simp only [hs, hp, if_true, Bool.false_eq_true, if_false, Except.error.injEq] at h
              exact h ▸ .timeout waited

/-- The failures that resolving a class can end in here, but for the gate's, are among `F`: the class
is not there, its record is refused, or the session has no loaded handle of it and no room for one. -/
structure Admits (F : QueryFailure → Prop) (t : ClassTable) (s : Session) (id : Identity) :
    Prop where
  unknown : t.objectAt id = none → F (.heap (.unknownIdentity id))
  malformed : ∀ b name e, t.bodyAt? id = some b →
    Ancestry.ofRecord b.ancestry id name s.options.verifyRecords = .error e → F (.heap e)
  crowded : ∀ entry e, t.objectAt id = some entry → s.finalHandle? id = none →
    s.RunsOut entry.name e → F e

theorem Admits.entered {id : Identity} (hF : Admits F w.heap.store w.session id) (gate : Gate) :
    Admits F (Query.entered w gate).heap.store (Query.entered w gate).session id where
  unknown := hF.unknown
  malformed := hF.malformed
  crowded := fun entry e he hnone hout => hF.crowded entry e he hnone hout.of_entered

theorem admits_refuses (t : ClassTable) (s : Session) (id : Identity) :
    Admits (Refuses id) t s id where
  unknown := fun _ => .unknown
  malformed := fun _ _ _ _ he => refuses_of_ofRecord he
  crowded := by
    rintro entry e - - (- | -) <;> exact .exhausted _

/-- A snapshot is of the body that the class has in the table. -/
theorem snapshot_learning (h : w.Sees A) {id : Identity} {b : ClassBody}
    (hb : w.heap.store.bodyAt? id = some b) {name : String}
    (hF : ∀ e, Ancestry.ofRecord b.ancestry id name w.session.options.verifyRecords = .error e →
      F (.heap e)) :
    Learning A F (snapshot id name) w fun c w' => w' = w ∧ c.identity = id ∧ c.TrueTo b := by
  obtain ⟨entry, he, hbody⟩ := ClassTable.bodyAt?_eq_some.mp hb
  refine (read_entry h he (f := ClassTable.ancestryOf) (a := b.ancestry)
    (by simp [ClassTable.ancestryOf, hbody])).bind ?_
  rintro record w - ⟨rfl, rfl⟩
  have htake : Learning A F (ask fun s => (Ancestry.ofRecord b.ancestry id name
      s.options.verifyRecords).mapError .heap) w fun a w' => w' = w ∧
        Ancestry.ofRecord b.ancestry id name w.session.options.verifyRecords = .ok a :=
    ends_ofRecord (fun _ ha => ⟨.refl h, rfl, ha⟩) fun e he => ⟨.refl h, hF e he⟩
  refine htake.bind ?_
  rintro ancestry w - ⟨rfl, hancestry⟩
  refine (read_entry h he (f := fun e => .ok e.shape) rfl).bind ?_
  rintro shape w - ⟨rfl, rfl⟩
  refine (read_entry h he (f := fun e => .ok e.layout) rfl).bind ?_
  rintro layout w - ⟨rfl, rfl⟩
  refine (read_entry h he (f := fun e => .ok e.flags) rfl).bind ?_
  rintro flags w - ⟨rfl, rfl⟩
  refine (read_entry h he (f := fun e => .ok e.loader) rfl).bind ?_
  rintro loader w - ⟨rfl, rfl⟩
  refine (read_entry h he (f := fun _ => .ok ClassTable.unlockedHeader) rfl).bind ?_
  rintro header w - ⟨rfl, rfl⟩
  refine Learning.pure h ⟨rfl, rfl, ?_, ?_, ?_, name, w.session.options.verifyRecords, hancestry⟩
  · simp [ClassObject.shape, hbody]
  · simp [ClassObject.flags, hbody]
  · simp [ClassObject.layout, hbody]

/-- The session has a handle of the class, which is loaded unless the class is only declared. -/
def Yields (id : Identity) (r : HandleRef) (w : Workspace ClassTable) : Prop :=
  ∃ h, w.session.handle r = .ok h ∧ h.identity? = some id ∧
    (h.isLoaded = true ∨ w.heap.store.Declared id)

/-- A handle for a class that has no loaded one. -/
theorem addClass_learning (h : w.Sees A) {id : Identity} {new : Handle}
    (hnone : w.session.finalHandle? id = none) (hid : new.identity? = some id)
    (hnew : ∀ c, new.state = .loaded c → ∃ b, A c.identity = some b ∧ c.TrueTo b)
    (hloaded : new.isLoaded = true ∨ w.heap.store.Declared id)
    (hF : w.session.IsFull → F (.exhausted w.session.options.handleBound)) :
    Learning A F (learn fun s => s.addClass id new) w (Yields id) := by
  refine learn_learning h ?_ ?_
  · intro r s hs
    obtain ⟨hlearns, hr⟩ := h.faithful.addClass hnone hid hnew hs
    exact ⟨hlearns, new, hr, hid, hloaded⟩
  · intro e he
    obtain ⟨hfull, rfl⟩ := Session.addClass_eq_error he
    exact hF hfull

/-- A class of the table has the load status. -/
def HasStatus (t : ClassTable) (id : Identity) : LoadStatus → Prop
  | .loaded => ∃ b, t.bodyAt? id = some b
  | .unloaded => t.Declared id

theorem hasStatus_loadStatus {t : ClassTable} {id : Identity} {entry : ClassObject}
    (he : t.objectAt id = some entry) : HasStatus t id entry.loadStatus := by
  unfold ClassObject.loadStatus
  cases hb : entry.body? with
  | none => exact ⟨entry, he, hb⟩
  | some b => exact ⟨b, ClassTable.bodyAt?_eq_some.mpr ⟨entry, he, hb⟩⟩

theorem build_learning (h : w.Sees A) {id : Identity} {state : LoadStatus}
    (hnone : w.session.finalHandle? id = none) (hstate : HasStatus w.heap.store id state)
    (hF : Admits F w.heap.store w.session id) :
    Learning A F (build id state) w (Yields id) := by
  refine (read_learning h id (fun e => .ok e.name) hF.unknown nofun).bind ?_
  rintro text w - ⟨rfl, entry, he, htext⟩
  obtain rfl := Except.ok.inj htext
  refine (intern_learning h entry.name fun e hout => hF.crowded entry e he hnone hout).bind ?_
  rintro name w' hleads rfl
  have h' := hleads.sees h
  -- Having met the name, the session has as many handles as before.
  have hfull : (w.session.met entry.name).IsFull → F (.exhausted w.session.options.handleBound) :=
    fun hfull => hF.crowded entry _ he hnone (.handles hfull)
  cases state with
  | loaded =>
      obtain ⟨b, hb⟩ := hstate
      refine Learning.bind (P := fun content w'' =>
        w'' = { w with session := w.session.met entry.name } ∧
          ∃ c, content = .loaded c ∧ c.identity = id ∧ c.TrueTo b) ?_ ?_
      · refine Learning.map ((snapshot_learning h' hb
          fun e he => hF.malformed b entry.name e hb he).mono ?_ fun _ he => he)
        rintro c w'' - ⟨rfl, hid, htrue⟩
        exact ⟨rfl, c, rfl, hid, htrue⟩
      · rintro content w' - ⟨rfl, c, rfl, rfl, htrue⟩
        refine addClass_learning h' hnone rfl ?_ (Or.inl rfl) hfull
        rintro c' hc'
        obtain rfl := HandleState.loaded.inj hc'
        exact ⟨b, h'.live _ b hb, htrue⟩
  | unloaded =>
      refine (Learning.pure h' (P := fun content w'' =>
        w'' = { w with session := w.session.met entry.name } ∧
          content = .unloaded (some id) (BasicType.ofInternalName entry.name)) ⟨rfl, rfl⟩).bind ?_
      rintro content w' - ⟨rfl, rfl⟩
      refine addClass_learning h' hnone rfl ?_ (Or.inr hstate) hfull
      rintro c' hc'
      cases hc'

theorem Yields.of_holds {id : Identity} {r : HandleRef} {c : Snapshot} (h : w.session.Holds r c)
    (hid : c.identity = id) : Yields id r w := by
  obtain ⟨hd, hr, hc⟩ := h
  exact ⟨hd, hr, hid ▸ Handle.identity?_loaded hc, Or.inl (Handle.isLoaded_of_state hc)⟩

theorem Yields.later {id : Identity} {r : HandleRef} {w' : Workspace ClassTable}
    (h : Yields id r w) (hleads : Leads A w w') : Yields id r w' := by
  obtain ⟨hd, hr, hid, hloaded⟩ := h
  obtain ⟨hnumber, hi⟩ := Session.handle_eq_ok.mp hr
  refine ⟨hd, Session.handle_eq_ok.mpr ⟨?_, hleads.learns.kept _ _ hi⟩, hid, ?_⟩
  · exact hnumber.trans hleads.learns.number.symm
  · rw [hleads.store]
    exact hloaded

/-- What a session holds, or else that it holds nothing. -/
theorem remembered_learning (h : w.Sees A) (id : Identity) :
    Learning A F (remembered id) w fun r? w' =>
      match r? with
      | some r => Yields id r w'
      | none => w' = w ∧ w.session.finalHandle? id = none := by
  refine ends_remembered (fun r hr => ?_) fun hnone => ⟨.refl h, rfl, hnone⟩
  obtain ⟨c, hc, hid⟩ := h.faithful.finalHandle?_eq_some.mp hr
  have hcount : Leads A w { w with session := { w.session with
      stats := { w.session.stats with hits := w.session.stats.hits + 1 } } } :=
    ⟨rfl, .of_same h.faithful rfl rfl rfl rfl⟩
  exact ⟨hcount, (Yields.of_holds hc hid).later hcount⟩

theorem resolveInside_learning (h : w.Sees A) {id : Identity}
    (hF : Admits F w.heap.store w.session id) :
    Learning A F (resolveInside id) w (Yields id) := by
  refine (remembered_learning h id).bind ?_
  rintro (_ | r) w' hleads hr
  · obtain ⟨rfl, hnone⟩ := hr
    simp only
    refine (read_learning h id (fun e => .ok e.loadStatus) hF.unknown nofun).bind ?_
    rintro state w' - ⟨rfl, entry, he, hstatus⟩
    have hstate : HasStatus w'.heap.store id state :=
      Except.ok.inj hstatus ▸ hasStatus_loadStatus he
    refine (ask_ok_learning h _).bind ?_
    rintro found w' - ⟨rfl, rfl⟩
    split
    · rename_i r hcached
      obtain ⟨hnumber, hd, hi, hid⟩ := h.faithful.own id r hcached
      exact Learning.pure h ⟨hd, Session.handle_eq_ok.mpr ⟨hnumber, hi⟩, hid, Or.inr hstate⟩
    · exact build_learning h hnone hstate hF
  · exact Learning.pure (hleads.sees h) hr

/-- **Resolving a class** yields a handle of it, which is loaded unless the class is only
declared. -/
theorem resolve_learning (h : w.Sees A) {id : Identity}
    (hF : Admits F w.heap.store w.session id)
    (hgate : ∀ e, w.heap.gate.enter w.session.options.waitBound = .error e → F (.heap e)) :
    Learning A F (resolve id) w (Yields id) := by
  refine (remembered_learning h id).bind ?_
  rintro (_ | r) w' hleads hr
  · obtain ⟨rfl, -⟩ := hr
    refine inScope_learning h (fun gate => ?_) hgate
    exact (resolveInside_learning ((entered_leads h gate).sees h) (hF.entered gate)).mono
      (fun r after _ hr => hr) fun _ he => he
  · exact Learning.pure (hleads.sees h) hr

/-- Resolving a class fails in no other ways than those. -/
theorem resolve_refuses (h : w.Sees A) (id : Identity) :
    Learning A (Refuses id) (resolve id) w (Yields id) :=
  resolve_learning h (admits_refuses _ _ id) fun _ he => refuses_of_enter he

/-! ### The other requests -/

/-- Of most requests it is enough to know what they leave behind. -/
abbrev Harmless (A : Archive) (q : Query ClassTable α) (w : Workspace ClassTable) : Prop :=
  Learning A (fun _ => True) q w fun _ _ => True

theorem Learning.harmless {q : Query ClassTable α} {P : α → Workspace ClassTable → Prop}
    (h : Learning A F q w P) : Harmless A q w :=
  h.mono (fun _ _ _ _ => trivial) fun _ _ => trivial

theorem placeholder_harmless (h : w.Sees A) (text : String) (hint : BasicType) :
    Harmless A (placeholder text hint) w := by
  unfold placeholder
  split
  · refine (intern_learning h text fun _ _ => trivial).bind ?_
    rintro name w' hleads -
    have h' := hleads.sees h
    refine (ask_ok_learning h' _).bind ?_
    rintro shared? w' - ⟨rfl, -⟩
    split
    · exact Learning.pure h' trivial
    · refine learn_learning h' (fun r s hs => ⟨h'.faithful.addPlaceholder ?_ hs, trivial⟩)
        fun _ _ => trivial
      intro c hc
      cases hc
  · exact Learning.throw h trivial

theorem find_harmless (h : w.Sees A) (origin : HandleRef) (name : String) :
    Harmless A (find origin name) w := by
  refine (ask_learning h _ fun _ _ => trivial).bind ?_
  rintro loader w - ⟨rfl, -⟩
  refine inScope_learning h (fun gate => ?_) fun _ _ => trivial
  have h' := (entered_leads h gate).sees h
  refine (find?_learning h' loader name fun _ => trivial).bind ?_
  rintro (_ | id) w' - rfl
  · exact Learning.throw h' trivial
  · exact (resolveInside_learning h' (admits_refuses _ _ id)).harmless

theorem findOrPlaceholder_harmless (h : w.Sees A) (origin : HandleRef) (name : String) :
    Harmless A (findOrPlaceholder origin name) w := by
  refine ends_findOrPlaceholder (find_harmless h origin name) ?_ fun _ _ _ h' => h'
  intro missing after hsearched
  exact Ends.mono (placeholder_harmless (hsearched.1.sees h) name _)
    (fun _ _ h' => ⟨hsearched.1.trans h'.1, trivial⟩)
    fun _ _ h' => ⟨hsearched.1.trans h'.1, trivial⟩

theorem primitive_harmless (h : w.Sees A) (type : BasicType) :
    Harmless A (primitive type) w := by
  unfold primitive
  split
  · exact Learning.throw h trivial
  · refine (ask_ok_learning h _).bind ?_
    rintro found w - ⟨rfl, -⟩
    split
    · exact Learning.pure h trivial
    · refine (intern_learning h type.name fun _ _ => trivial).bind ?_
      rintro name w' hleads -
      have h' := hleads.sees h
      refine learn_learning h' (fun r s hs => ⟨h'.faithful.addPrimitive ?_ hs, trivial⟩)
        fun _ _ => trivial
      intro c hc
      cases hc

theorem ancestorAt_harmless (h : w.Sees A) (r : HandleRef) (depth : Nat) :
    Harmless A (ancestorAt r depth) w := by
  refine (ask_learning h _ fun _ _ => trivial).bind ?_
  rintro c w - ⟨rfl, -⟩
  split
  · exact Learning.map (resolve_refuses h _).harmless
  · exact Learning.pure h trivial

theorem commonAncestor_harmless (h : w.Sees A) (a b : HandleRef) :
    Harmless A (commonAncestor a b) w := by
  refine (ask_learning h _ fun _ _ => trivial).bind ?_
  rintro first w - ⟨rfl, -⟩
  refine (ask_learning h _ fun _ _ => trivial).bind ?_
  rintro second w - ⟨rfl, -⟩
  split
  · exact Learning.pure h trivial
  · split
    · exact Learning.pure h trivial
    · refine (ask_learning h _ fun _ _ => trivial).bind ?_
      rintro common w - ⟨rfl, -⟩
      exact (resolve_refuses h common).harmless

end Query

open Query in
/-- **Every request** leaves the table as it was, and a session that has learnt something. -/
theorem Request.harmless {A : Archive} {w : Workspace ClassTable} (h : w.Sees A) (r : Request) :
    Harmless A r.run w := by
  cases r with
  | resolve id => exact Learning.map (resolve_refuses h id).harmless
  | placeholder name hint => exact Learning.map (placeholder_harmless h name hint)
  | find origin name => exact Learning.map (find_harmless h origin name)
  | findOrPlaceholder origin name => exact Learning.map (findOrPlaceholder_harmless h origin name)
  | primitive type => exact Learning.map (primitive_harmless h type)
  | isSubtype a b => exact Learning.map (ask_learning h _ fun _ _ => trivial).harmless
  | isSubclass a b => exact Learning.map (ask_learning h _ fun _ _ => trivial).harmless
  | ancestorAt r depth => exact Learning.map (ancestorAt_harmless h r depth)
  | commonAncestor a b => exact Learning.map (commonAncestor_harmless h a b)

end RuntimeTypes
