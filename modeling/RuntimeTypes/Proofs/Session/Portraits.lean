/-
What a handle of a class is copied from.

A session takes the parts of a snapshot from one entry of the table, all of them while it
builds the handle, and the table stands still meanwhile.  So the handle `Portrays` the
entry, name and loader included, and it goes on doing so, as neither a handle nor the text
of a name ever changes.  Two portraits of one entry differ in nothing but the number that
each session has given the name.  A handle of a class that is not loaded has no more than
the name of the entry, and `Describes` is about both.
-/
import RuntimeTypes.Store.Table
import RuntimeTypes.Proofs.Session.Faithful
import RuntimeTypes.Proofs.Session.Walk

namespace RuntimeTypes

/-- A loaded handle says what an entry says. -/
structure Handle.Portrays (h : Handle) (names : NameTable) (c : Snapshot) (e : ClassObject) : Prop where
  state : h.state = .loaded c
  name : names.text? h.name = some e.name
  externalName : h.externalName = RuntimeTypes.externalName e.name
  body : ∃ b, e.body? = some b ∧ c.TrueTo b
  loader : c.loader = e.loader
  header : c.prototypeHeader = ClassTable.unlockedHeader

namespace Handle.Portrays

variable {h h' : Handle} {names names' : NameTable} {c c' : Snapshot} {e : ClassObject}

theorem mono (hp : h.Portrays names c e)
    (hnames : ∀ n text, names.text? n = some text → names'.text? n = some text) :
    h.Portrays names' c e :=
  { hp with name := hnames _ _ hp.name }

theorem snapshot_eq (hp : h.Portrays names c e) (hp' : h'.Portrays names' c' e)
    (hid : c.identity = c'.identity) : c = c' := by
  obtain ⟨b, hb, ht⟩ := hp.body
  obtain ⟨b', hb', ht'⟩ := hp'.body
  obtain rfl := Option.some.inj (hb.symm.trans hb')
  have hancestry := ht.shows.eq ht'.shows
  have hshape := ht.shape.trans ht'.shape.symm
  have hflags := ht.flags.trans ht'.flags.symm
  have hlayout := ht.layout.trans ht'.layout.symm
  have hloader := hp.loader.trans hp'.loader.symm
  have hheader := hp.header.trans hp'.header.symm
  cases c
  cases c'
  simp_all

/-- Handles of one entry differ in the number of the name at most. -/
theorem eq (hp : h.Portrays names c e) (hp' : h'.Portrays names' c' e)
    (hid : c.identity = c'.identity) : h' = { h with name := h'.name } := by
  have hstate : h'.state = h.state := by rw [hp.state, hp'.state, hp.snapshot_eq hp' hid]
  have hexternal := hp'.externalName.trans hp.externalName.symm
  cases h
  cases h'
  simp_all

end Handle.Portrays

/-- A handle of a class says what an entry says: the name, and if it is loaded all the rest. -/
structure Handle.Describes (h : Handle) (names : NameTable) (e : ClassObject) : Prop where
  name : names.text? h.name = some e.name
  loaded : ∀ c, h.state = .loaded c → h.Portrays names c e

theorem Handle.Describes.mono {h : Handle} {names names' : NameTable} {e : ClassObject}
    (hd : h.Describes names e)
    (hnames : ∀ n text, names.text? n = some text → names'.text? n = some text) :
    h.Describes names' e :=
  ⟨hnames _ _ hd.name, fun c hc => (hd.loaded c hc).mono hnames⟩

namespace Workspace

/-- The table is as it was, and whatever handle of a class the session has got meanwhile describes the
entry of that class. -/
structure Takes (w w' : Workspace ClassTable) : Prop where
  store : w'.heap.store = w.heap.store
  names : ∀ n text, w.session.names.text? n = some text → w'.session.names.text? n = some text
  handle : ∀ r h id, w'.session.handle r = .ok h → h.identity? = some id →
    w.session.handle r = .ok h ∨
      ∃ e, w.heap.store.objectAt id = some e ∧ h.Describes w'.session.names e

/-- The table is as it was, and whatever loaded handle the session has got meanwhile portrays one of
its entries. -/
structure Copies (w w' : Workspace ClassTable) : Prop where
  store : w'.heap.store = w.heap.store
  names : ∀ n text, w.session.names.text? n = some text → w'.session.names.text? n = some text
  handle : ∀ r h c, w'.session.handle r = .ok h → h.state = .loaded c → w.session.handle r = .ok h ∨
    ∃ e, w.heap.store.objectAt c.identity = some e ∧ h.Portrays w'.session.names c e

variable {w w' w'' : Workspace ClassTable}

namespace Takes

theorem copies (h : w.Takes w') : w.Copies w' where
  store := h.store
  names := h.names
  handle := by
    intro r hd c hr hc
    refine (h.handle r hd c.identity hr (Handle.identity?_loaded hc)).imp_right ?_
    rintro ⟨e, he, hdescribes⟩
    exact ⟨e, he, hdescribes.loaded c hc⟩

/-- Nothing has happened to the arena. -/
theorem of_same (hstore : w'.heap.store = w.heap.store)
    (hnames : ∀ n text, w.session.names.text? n = some text → w'.session.names.text? n = some text)
    (hnumber : w'.session.number = w.session.number)
    (hhandles : w'.session.handles = w.session.handles) : Takes w w' where
  store := hstore
  names := hnames
  handle := fun r h id hr _ => .inl <| by
    rw [Session.handle_eq_ok, hnumber, hhandles] at hr
    exact Session.handle_eq_ok.mpr hr

theorem refl (w : Workspace ClassTable) : Takes w w := .of_same rfl (fun _ _ h => h) rfl rfl

theorem trans (h : Takes w w') (h' : Takes w' w'') : Takes w w'' where
  store := h'.store.trans h.store
  names := fun n text hn => h'.names n text (h.names n text hn)
  handle := by
    intro r hd id hr hid
    rcases h'.handle r hd id hr hid with hr | ⟨e, he, hdescribes⟩
    · exact (h.handle r hd id hr hid).imp_right fun ⟨e, he, hd⟩ => ⟨e, he, hd.mono h'.names⟩
    · exact .inr ⟨e, h.store ▸ he, hdescribes⟩

/-- One handle more. -/
theorem push {new : Handle} (hstore : w'.heap.store = w.heap.store)
    (hnames : w'.session.names = w.session.names) (hnumber : w'.session.number = w.session.number)
    (hhandles : w'.session.handles = w.session.handles.push new)
    (hnew : ∀ id, new.identity? = some id → ∃ e, w.heap.store.objectAt id = some e ∧
      new.Describes w'.session.names e) : Takes w w' where
  store := hstore
  names := fun n text hn => by rw [hnames, hn]
  handle := by
    intro r hd id hr hid
    obtain ⟨hown, hi⟩ := Session.handle_eq_ok.mp hr
    rw [hhandles, Array.getElem?_push] at hi
    split at hi
    · obtain rfl := Option.some.inj hi
      exact .inr (hnew id hid)
    · exact .inl (Session.handle_eq_ok.mpr ⟨hown.trans hnumber, hi⟩)

/-- One handle more, of no class object. -/
theorem push_other {new : Handle} (hstore : w'.heap.store = w.heap.store)
    (hnames : w'.session.names = w.session.names) (hnumber : w'.session.number = w.session.number)
    (hhandles : w'.session.handles = w.session.handles.push new) (hnone : new.identity? = none) :
    Takes w w' := by
  refine push hstore hnames hnumber hhandles fun id hid => ?_
  rw [hnone] at hid
  cases hid

end Takes

end Workspace

namespace Query

open Workspace

variable {w : Workspace ClassTable}

/-- Reading an entry leaves everything as it was. -/
theorem read_entry_ends {α : Type} (id : Identity) (f : ClassObject → Except HeapFailure α) :
    Ends (read (ClassTable.readObject id f)) w
      (fun a w' => w' = w ∧ ∃ e, w.heap.store.objectAt id = some e ∧ f e = .ok a)
      fun _ w' => w' = w := by
  unfold Ends read Heap.read ClassTable.readObject
  cases he : w.heap.store.objectAt id with
  | none => rfl
  | some e =>
      cases hf : f e with
      | ok a => simp [hf]
      | error e => simp [hf]

/-- A read of an entry, one of several of the same entry. -/
theorem read_entry_bind {α β : Type} {id : Identity} {f : ClassObject → Except HeapFailure α}
    {k : α → Query ClassTable β} {ok : β → Workspace ClassTable → Prop}
    (hk : ∀ e a, w.heap.store.objectAt id = some e → f e = .ok a →
      Ends (k a) w ok fun _ w' => w' = w) :
    Ends (read (ClassTable.readObject id f) >>= k) w ok fun _ w' => w' = w := by
  refine (read_entry_ends id f).bind ?_ fun _ _ h => h
  rintro a w' ⟨rfl, e, he, hf⟩
  exact hk e a he hf

/-- All parts of a snapshot are of one entry. -/
theorem snapshot_ends (id : Identity) (name : String) :
    Ends (snapshot id name) w
      (fun c w' => w' = w ∧ c.identity = id ∧ ∃ e, w.heap.store.objectAt id = some e ∧
        (∃ b, e.body? = some b ∧ c.TrueTo b) ∧ c.loader = e.loader ∧
        c.prototypeHeader = ClassTable.unlockedHeader)
      fun _ w' => w' = w := by
  refine read_entry_bind fun e record he hrecord => ?_
  obtain ⟨b, hb, rfl⟩ : ∃ b, e.body? = some b ∧ b.ancestry = record := by
    cases hb : e.body? with
    | none => simp [ClassTable.ancestryOf, hb] at hrecord
    | some b => exact ⟨b, rfl, by simpa [ClassTable.ancestryOf, hb] using hrecord⟩
  have hsame {e' : ClassObject} (he' : w.heap.store.objectAt id = some e') : e' = e :=
    Option.some.inj (he'.symm.trans he)
  have htake : Ends (ask fun s => (Ancestry.ofRecord b.ancestry id name
      s.options.verifyRecords).mapError QueryFailure.heap) w
      (fun a w' => w' = w ∧ Ancestry.ofRecord b.ancestry id name
        w.session.options.verifyRecords = .ok a) fun _ w' => w' = w :=
    ends_ofRecord (fun _ ha => ⟨rfl, ha⟩) fun _ _ => rfl
  refine htake.bind ?_ fun _ _ h => h
  rintro ancestry w' ⟨rfl, hancestry⟩
  refine read_entry_bind fun _ shape h₁ hshape => read_entry_bind fun _ layout h₂ hlayout =>
    read_entry_bind fun _ flags h₃ hflags => read_entry_bind fun _ loader h₄ hloader =>
    read_entry_bind fun _ header h₅ hheader => ?_
  obtain rfl := hsame h₁
  obtain rfl := hsame h₂
  obtain rfl := hsame h₃
  obtain rfl := hsame h₄
  obtain rfl := Except.ok.inj hshape
  obtain rfl := Except.ok.inj hlayout
  obtain rfl := Except.ok.inj hflags
  obtain rfl := Except.ok.inj hloader
  obtain rfl := Except.ok.inj hheader
  refine ⟨rfl, rfl, _, he, ⟨b, hb, ?_, ?_, ?_, name, _, hancestry⟩, rfl, rfl⟩
  · simp [ClassObject.shape, hb]
  · simp [ClassObject.flags, hb]
  · simp [ClassObject.layout, hb]

theorem addClass_along {id : Identity} {new : Handle}
    (hnew : ∀ id', new.identity? = some id' → ∃ e, w.heap.store.objectAt id' = some e ∧
      new.Describes w.session.names e) : Along Takes (learn fun s => s.addClass id new) w := by
  refine ends_learn (fun r s hs => ?_) fun _ _ => Takes.refl w
  obtain ⟨rfl, rfl⟩ := Session.addClass_eq_ok hs
  exact Takes.push rfl rfl rfl rfl hnew

/-- A handle that is built describes the entry that was read. -/
theorem build_along (id : Identity) (state : LoadStatus) (w : Workspace ClassTable) :
    Along Takes (build id state) w := by
  refine (read_entry_ends id fun e => .ok e.name).bind ?_ fun _ _ h => h ▸ .refl _
  rintro text w ⟨rfl, e, he, htext⟩
  obtain rfl := Except.ok.inj htext
  have hmet : Takes w { w with session := w.session.met e.name } :=
    .of_same rfl (fun n text hn => NameTable.text?_intern_of_text? hn e.name) rfl rfl
  have hname : (w.session.met e.name).names.text? (w.session.names.intern e.name).1 = some e.name :=
    NameTable.text?_of_find? (NameTable.find?_intern w.session.names e.name)
  have hintern : Ends (intern e.name) w
      (fun name w' => name = (w.session.names.intern e.name).1 ∧
        w' = { w with session := w.session.met e.name }) fun _ w' => w' = w :=
    ends_intern (fun _ => ⟨rfl, rfl⟩) fun _ _ => rfl
  refine hintern.bind ?_ fun _ _ h => h ▸ .refl w
  rintro name w' ⟨rfl, rfl⟩
  cases state with
  | unloaded =>
      have hadded : Along Takes
          (learn fun s => s.addClass id
            { name := (w.session.names.intern e.name).1
              externalName := externalName e.name
              state := .unloaded (some id) (BasicType.ofInternalName e.name) })
          { w with session := w.session.met e.name } := by
        refine addClass_along fun id' hid' => ?_
        obtain rfl := Option.some.inj hid'
        exact ⟨e, he, hname, nofun⟩
      exact Ends.mono hadded (fun _ _ h => hmet.trans h) fun _ _ h => hmet.trans h
  | loaded =>
      have hcontent : Ends (HandleState.loaded <$> snapshot id e.name)
          { w with session := w.session.met e.name }
          (fun content w' => w' = { w with session := w.session.met e.name } ∧
            ∃ c, content = .loaded c ∧ c.identity = id ∧ (∃ b, e.body? = some b ∧ c.TrueTo b) ∧
              c.loader = e.loader ∧ c.prototypeHeader = ClassTable.unlockedHeader)
          fun _ w' => w' = { w with session := w.session.met e.name } := by
        refine Ends.map ((snapshot_ends id e.name).mono ?_ fun _ _ h => h)
        rintro c w' ⟨rfl, hid, e', he', hc⟩
        obtain rfl := Option.some.inj (he'.symm.trans he)
        exact ⟨rfl, c, rfl, hid, hc⟩
      refine hcontent.bind ?_ fun _ _ h => h ▸ hmet
      rintro content w' ⟨rfl, c, rfl, rfl, hbody, hloader, hheader⟩
      refine Ends.mono (addClass_along ?_) (fun _ _ h => hmet.trans h) fun _ _ h => hmet.trans h
      intro id' hid'
      obtain rfl := Option.some.inj hid'
      refine ⟨e, he, hname, fun c' hc' => ?_⟩
      obtain rfl := HandleState.loaded.inj hc'
      exact ⟨rfl, hname, rfl, hbody, hloader, hheader⟩

theorem pieces_takes : Pieces Takes where
  refl := Takes.refl
  trans := Takes.trans
  countHit := fun w => .of_same rfl (fun _ _ h => h) rfl rfl
  entered := fun w gate => .of_same rfl (fun _ _ h => h) rfl rfl
  left := fun w => .of_same rfl (fun _ _ h => h) rfl rfl
  met := fun text w =>
    .of_same rfl (fun _ _ hn => NameTable.text?_intern_of_text? hn text) rfl rfl
  loadStatus := fun id w =>
    (read_entry_ends id fun e => .ok e.loadStatus).mono (fun _ _ h => h.1 ▸ .refl _)
      fun _ _ h => h ▸ .refl _
  find? := fun loader name w => by
    show Along Takes (read (ClassTable.find loader name)) w
    unfold Along Ends read Heap.read ClassTable.find
    cases w.heap.store.loaders.chain? loader <;> exact .refl w
  build := build_along
  placeholder := fun h w r s hnone hs => by
    obtain ⟨rfl, rfl⟩ := Session.addPlaceholder_eq_ok hs
    exact .push_other rfl rfl rfl rfl hnone
  primitive := fun type h w r s hstate hs => by
    obtain ⟨rfl, rfl⟩ := Session.addPrimitive_eq_ok hs
    exact .push_other rfl rfl rfl rfl (Handle.identity?_primitive hstate)

end Query

/-- **Whatever a request adds to a session is taken from the table**, names of classes that are not
loaded included. -/
theorem Request.takes (r : Request) (w : Workspace ClassTable) :
    Workspace.Takes w (w.serve r).2 :=
  Workspace.serve_of_ends (Query.pieces_takes.request r)

/-- **Whatever a request adds to a session is copied from the table.** -/
theorem Request.copies (r : Request) (w : Workspace ClassTable) :
    Workspace.Copies w (w.serve r).2 :=
  (r.takes w).copies

end RuntimeTypes
