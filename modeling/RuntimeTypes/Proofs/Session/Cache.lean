/-
The cache of a session.

A class has up to two handles: the unloaded one that is built while the class is only
referred to, and the loaded one that is put beside it later.  `CacheLaws` says that there
are no more, and that the indexes lead to the better one, whatever the stores have
answered: each request may look at another heap, and a read may fail, change the store,
and contradict the read before.

The invariant is `Ordered`, which a move of the session keeps.  It is about the two
indexes that decide whether a handle is built: what is not found there is nowhere in the
arena.
-/
import RuntimeTypes.Proofs.Session.Moves
import RuntimeTypes.Proofs.Session.Faithful

namespace RuntimeTypes

open Relation

namespace Session

/-! ### Growing -/

/-- The session has gone on from an earlier one: its handles are still there, as they were. -/
structure Grows (s s' : Session) : Prop where
  /-- The arena does not shrink. -/
  size : s.size ≤ s'.size
  /-- A handle does not change. -/
  kept : ∀ {r : HandleRef} {h : Handle}, s.handle r = .ok h → s'.handle r = .ok h
  /-- Neither do the options. -/
  options : s'.options = s.options

variable {s s' s'' : Session}

theorem Grows.refl (s : Session) : s.Grows s := ⟨Nat.le_refl _, id, rfl⟩

theorem Grows.trans (h : s.Grows s') (h' : s'.Grows s'') : s.Grows s'' :=
  ⟨Nat.le_trans h.size h'.size, fun hr => h'.kept (h.kept hr), h'.options.trans h.options⟩

/-- A handle at the end of the arena is the only new one. -/
theorem handle_push {new : Handle} (hnumber : s'.number = s.number)
    (hhandles : s'.handles = s.handles.push new) {r : HandleRef} {h : Handle} :
    s'.handle r = .ok h ↔
      s.handle r = .ok h ∨ r = ⟨s.number, s.handles.size⟩ ∧ h = new := by
  rw [handle_eq_ok, handle_eq_ok, hnumber, hhandles, Array.getElem?_push]
  constructor
  · rintro ⟨hown, hi⟩
    split at hi
    · rename_i hlast
      exact .inr ⟨by rw [← hown, ← hlast], (Option.some.inj hi).symm⟩
    · exact .inl ⟨hown, hi⟩
  · rintro (⟨hown, hi⟩ | ⟨rfl, rfl⟩)
    · have hlt := (Array.getElem?_eq_some_iff.mp hi).1
      exact ⟨hown, by rw [if_neg (Nat.ne_of_lt hlt)]; exact hi⟩
    · exact ⟨rfl, by simp⟩

theorem index_lt_size {r : HandleRef} {h : Handle} (hr : s.handle r = .ok h) :
    r.index < s.handles.size :=
  (Array.getElem?_eq_some_iff.mp (handle_eq_ok.mp hr).2).1

theorem Grows.of_push {new : Handle} (hnumber : s'.number = s.number)
    (hhandles : s'.handles = s.handles.push new) (hoptions : s'.options = s.options) :
    s.Grows s' where
  size := by simp [Session.size, hhandles]
  kept := fun hr => (handle_push hnumber hhandles).mpr (.inl hr)
  options := hoptions

theorem Move.grows (h : s.Move s') : s.Grows s' := by
  cases h with
  | hit => exact ⟨Nat.le_refl _, id, rfl⟩
  | scope => exact ⟨Nat.le_refl _, id, rfl⟩
  | name => exact ⟨Nat.le_refl _, id, rfl⟩
  | ofClass _ _ _ hs =>
      obtain ⟨rfl, rfl⟩ := addClass_eq_ok hs
      exact .of_push rfl rfl rfl
  | placeholder _ _ _ hs =>
      obtain ⟨rfl, rfl⟩ := addPlaceholder_eq_ok hs
      exact .of_push rfl rfl rfl
  | primitive _ _ _ hs =>
      obtain ⟨rfl, rfl⟩ := addPrimitive_eq_ok hs
      exact .of_push rfl rfl rfl

theorem Moves.grows (h : s.Moves s') : s.Grows s' := by
  induction h with
  | refl => exact .refl s
  | tail _ hmove ih => exact ih.trans hmove.grows

/-- A session keeps its number, by which its references are known. -/
theorem Move.number (h : s.Move s') : s'.number = s.number := by
  cases h with
  | hit | scope | name => rfl
  | ofClass _ _ _ hs =>
      obtain ⟨-, rfl⟩ := addClass_eq_ok hs
      rfl
  | placeholder _ _ _ hs =>
      obtain ⟨-, rfl⟩ := addPlaceholder_eq_ok hs
      rfl
  | primitive _ _ _ hs =>
      obtain ⟨-, rfl⟩ := addPrimitive_eq_ok hs
      rfl

theorem Moves.number (h : s.Moves s') : s'.number = s.number := by
  induction h with
  | refl => rfl
  | tail _ hmove ih => exact hmove.number.trans ih

/-! ### Handles of classes -/

/-- The reference is to a handle of the class, with this load status. -/
def IsOf (s : Session) (r : HandleRef) (id : Identity) (loaded : Bool) : Prop :=
  ∃ h, s.handle r = .ok h ∧ h.identity? = some id ∧ h.isLoaded = loaded

theorem IsOf.later {r : HandleRef} {id : Identity} {loaded : Bool} (h : s.IsOf r id loaded)
    (hg : s.Grows s') : s'.IsOf r id loaded := by
  obtain ⟨hd, hr, hof⟩ := h
  exact ⟨hd, hg.kept hr, hof⟩

theorem IsOf.index_lt {r : HandleRef} {id : Identity} {loaded : Bool} (h : s.IsOf r id loaded) :
    r.index < s.handles.size := by
  obtain ⟨hd, hr, -⟩ := h
  exact index_lt_size hr

theorem IsOf.status_inj {r : HandleRef} {id id' : Identity} {loaded loaded' : Bool}
    (h : s.IsOf r id loaded) (h' : s.IsOf r id' loaded') : loaded = loaded' := by
  obtain ⟨hd, hr, -, rfl⟩ := h
  obtain ⟨hd', hr', -, rfl⟩ := h'
  rw [Except.ok.inj (hr.symm.trans hr')]

theorem isOf_push {new : Handle} (hnumber : s'.number = s.number)
    (hhandles : s'.handles = s.handles.push new) {r : HandleRef} {id : Identity} {loaded : Bool} :
    s'.IsOf r id loaded ↔ s.IsOf r id loaded ∨
      r = ⟨s.number, s.handles.size⟩ ∧ new.identity? = some id ∧ new.isLoaded = loaded := by
  unfold IsOf
  constructor
  · rintro ⟨h, hr, hof⟩
    rcases (handle_push hnumber hhandles).mp hr with hr | ⟨rfl, rfl⟩
    · exact .inl ⟨h, hr, hof⟩
    · exact .inr ⟨rfl, hof⟩
  · rintro (⟨h, hr, hof⟩ | ⟨rfl, hof⟩)
    · exact ⟨h, (handle_push hnumber hhandles).mpr (.inl hr), hof⟩
    · exact ⟨new, (handle_push hnumber hhandles).mpr (.inr ⟨rfl, rfl⟩), hof⟩

/-- The arena and the index by identity fit together. -/
structure Ordered (s : Session) : Prop where
  /-- The index leads to handles of the class. -/
  own : ∀ {id r}, s.cached? id = some r → ∃ loaded, s.IsOf r id loaded
  /-- It leads to the loaded handle. -/
  loaded : ∀ {id r}, s.IsOf r id true → s.cached? id = some r
  /-- It leads to the unloaded one, unless that has a loaded one behind it. -/
  unloaded : ∀ {id r}, s.IsOf r id false →
    s.cached? id = some r ∨ ∃ l, s.IsOf l id true ∧ r.index < l.index
  /-- There is only one unloaded handle. -/
  once : ∀ {id r r'}, s.IsOf r id false → s.IsOf r' id false → r = r'

namespace Ordered

theorem start (number : Nat) (options : Options) : (Session.start number options).Ordered := by
  have hempty : ∀ r id loaded, ¬(Session.start number options).IsOf r id loaded := by
    rintro r id loaded ⟨h, hr, -⟩
    simpa [Session.start] using index_lt_size hr
  refine ⟨fun hr => ?_, fun h => absurd h (hempty _ _ _), fun h => absurd h (hempty _ _ _),
    fun h => absurd h (hempty _ _ _)⟩
  cases hr

/-- Nothing else of the session matters. -/
theorem congr (h : s.Ordered) (hof : ∀ r id loaded, s'.IsOf r id loaded ↔ s.IsOf r id loaded)
    (hcached : ∀ id, s'.cached? id = s.cached? id) : s'.Ordered where
  own := fun {id r} hr => by
    rw [hcached] at hr
    obtain ⟨loaded, hr⟩ := h.own hr
    exact ⟨loaded, (hof r id loaded).mpr hr⟩
  loaded := fun {id r} hr => by
    rw [hcached]
    exact h.loaded ((hof r id true).mp hr)
  unloaded := fun {id r} hr => by
    rw [hcached]
    refine (h.unloaded ((hof r id false).mp hr)).imp_right ?_
    rintro ⟨l, hl, hlt⟩
    exact ⟨l, (hof l id true).mpr hl, hlt⟩
  once := fun {id r r'} hr hr' => h.once ((hof r id false).mp hr) ((hof r' id false).mp hr')

theorem not_isOf (h : s.Ordered) {id : Identity} (hnone : s.cached? id = none) {r : HandleRef}
    {loaded : Bool} : ¬s.IsOf r id loaded := by
  intro hr
  cases loaded with
  | true => simp [h.loaded hr] at hnone
  | false =>
      rcases h.unloaded hr with hcached | ⟨l, hl, -⟩
      · simp [hcached] at hnone
      · simp [h.loaded hl] at hnone

theorem finalHandle?_iff (h : s.Ordered) {id : Identity} {r : HandleRef} :
    s.finalHandle? id = some r ↔ s.IsOf r id true := by
  unfold finalHandle?
  rw [Option.filter_eq_some_iff]
  constructor
  · rintro ⟨hr, hloaded⟩
    obtain ⟨loaded, hd, hhandle, hid, hl⟩ := h.own hr
    obtain ⟨-, hi⟩ := handle_eq_ok.mp hhandle
    exact ⟨hd, hhandle, hid, by simpa [hi] using hloaded⟩
  · intro hof
    refine ⟨h.loaded hof, ?_⟩
    obtain ⟨hd, hhandle, -, hl⟩ := hof
    simpa [(handle_eq_ok.mp hhandle).2] using hl

/-- A handle of no class changes nothing here. -/
theorem push (h : s.Ordered) {new : Handle} (hnew : new.identity? = none)
    (hnumber : s'.number = s.number) (hhandles : s'.handles = s.handles.push new)
    (hindex : s'.byIdentity = s.byIdentity) : s'.Ordered :=
  h.congr (fun r id loaded => by rw [isOf_push hnumber hhandles]; simp [hnew])
    fun id => by rw [cached?, hindex, cached?]

/-- A class that has no loaded handle gets one, and one that has no handle gets whichever it is. -/
theorem addClass (h : s.Ordered) {id : Identity} {new : Handle} {r : HandleRef}
    (hid : new.identity? = some id) (hnone : s.finalHandle? id = none)
    (hfirst : new.isLoaded = false → s.cached? id = none) (hs : s.addClass id new = .ok (r, s')) :
    s'.Ordered := by
  obtain ⟨rfl, hs'⟩ := addClass_eq_ok hs
  have hof : ∀ {r id' loaded}, s'.IsOf r id' loaded ↔ s.IsOf r id' loaded ∨
      r = ⟨s.number, s.handles.size⟩ ∧ new.identity? = some id' ∧ new.isLoaded = loaded :=
    isOf_push (by rw [hs']) (by rw [hs'])
  have hcached : ∀ id', s'.cached? id' =
      if id = id' then some ⟨s.number, s.handles.size⟩ else s.cached? id' := fun id' => by
    rw [hs']
    exact Index.get?_insert s.byIdentity id id' _
  have hunloaded : ∀ {r}, ¬s.IsOf r id true := fun hr => by
    rw [h.finalHandle?_iff.mpr hr] at hnone
    cases hnone
  refine ⟨?_, ?_, ?_, ?_⟩
  · intro id' r hr
    rw [hcached] at hr
    split at hr
    · rename_i he
      exact ⟨new.isLoaded, hof.mpr (.inr ⟨(Option.some.inj hr).symm, he ▸ hid, rfl⟩)⟩
    · obtain ⟨loaded, hr⟩ := h.own hr
      exact ⟨loaded, hof.mpr (.inl hr)⟩
  · intro id' r hr
    rw [hcached]
    rcases hof.mp hr with hr | ⟨rfl, hid', -⟩
    · rw [if_neg (by rintro rfl; exact hunloaded hr)]
      exact h.loaded hr
    · rw [if_pos (Option.some.inj (hid.symm.trans hid'))]
  · intro id' r hr
    rw [hcached]
    rcases hof.mp hr with hr | ⟨rfl, hid', -⟩
    · by_cases he : id = id'
      · subst he
        -- The new handle is loaded, as the class had one that is not.
        have hnew : new.isLoaded = true := by
          cases hl : new.isLoaded with
          | true => rfl
          | false => exact absurd hr (h.not_isOf (hfirst hl))
        exact .inr ⟨_, hof.mpr (.inr ⟨rfl, hid, hnew⟩), hr.index_lt⟩
      · rw [if_neg he]
        refine (h.unloaded hr).imp_right ?_
        rintro ⟨l, hl, hlt⟩
        exact ⟨l, hof.mpr (.inl hl), hlt⟩
    · rw [if_pos (Option.some.inj (hid.symm.trans hid'))]
      exact .inl rfl
  · intro id' r r' hr hr'
    rcases hof.mp hr with hr | ⟨rfl, hid', hl⟩
    · rcases hof.mp hr' with hr' | ⟨rfl, hid', hl⟩
      · exact h.once hr hr'
      · obtain rfl := Option.some.inj (hid.symm.trans hid')
        exact absurd hr (h.not_isOf (hfirst hl))
    · rcases hof.mp hr' with hr' | ⟨rfl, -, -⟩
      · obtain rfl := Option.some.inj (hid.symm.trans hid')
        exact absurd hr' (h.not_isOf (hfirst hl))
      · rfl

end Ordered

/-! ### Snapshots -/

theorem isOf_true_iff {r : HandleRef} {id : Identity} :
    s.IsOf r id true ↔ ∃ c, s.Holds r c ∧ c.identity = id := by
  constructor
  · rintro ⟨h, hr, hid, hloaded⟩
    obtain ⟨c, hc, hcid⟩ := Handle.exists_snapshot hid hloaded
    exact ⟨c, ⟨h, hr, hc⟩, hcid⟩
  · rintro ⟨c, ⟨h, hr, hc⟩, rfl⟩
    exact ⟨h, hr, Handle.identity?_loaded hc, Handle.isLoaded_of_state hc⟩

theorem Holds.isOf {r : HandleRef} {c : Snapshot} (h : s.Holds r c) : s.IsOf r c.identity true :=
  isOf_true_iff.mpr ⟨c, h, rfl⟩

theorem Grows.holds (hg : s.Grows s') {r : HandleRef} {c : Snapshot} (h : s.Holds r c) :
    s'.Holds r c := by
  obtain ⟨hd, hr, hc⟩ := h
  exact ⟨hd, hg.kept hr, hc⟩

/-- Snapshots of one class are of one handle. -/
theorem Ordered.ref_inj (h : s.Ordered) {a b : HandleRef} {ca cb : Snapshot} (ha : s.Holds a ca)
    (hb : s.Holds b cb) (hid : ca.identity = cb.identity) : a = b :=
  Option.some.inj ((h.loaded ha.isOf).symm.trans (hid ▸ h.loaded hb.isOf))

/-- What a handle of a class is built with decides what it is a handle of. -/
theorem Content.identity? {id : Identity} {text : String} {content : HandleState}
    (h : s.Content id text content) (name : NameId) (externalName : String) :
    Handle.identity? { name := name, externalName := externalName, state := content } = some id := by
  cases h with
  | loaded c hid => exact congrArg some hid
  | unloaded _ => rfl

theorem Content.first {id : Identity} {text : String} {content : HandleState}
    (h : s.Content id text content) {name : NameId} {externalName : String}
    (hl : Handle.isLoaded { name := name, externalName := externalName, state := content } = false) :
    s.cached? id = none := by
  cases h with
  | loaded c hid => cases hl
  | unloaded hnone => exact hnone

theorem Move.ordered (hm : s.Move s') (h : s.Ordered) : s'.Ordered := by
  cases hm with
  | hit => exact h.congr (fun _ _ _ => Iff.rfl) fun _ => rfl
  | scope => exact h.congr (fun _ _ _ => Iff.rfl) fun _ => rfl
  | name => exact h.congr (fun _ _ _ => Iff.rfl) fun _ => rfl
  | ofClass hnone _ hcontent hs =>
      exact h.addClass (hcontent.identity? _ _) hnone hcontent.first hs
  | placeholder _ _ _ hs =>
      obtain ⟨rfl, rfl⟩ := addPlaceholder_eq_ok hs
      exact h.push rfl rfl rfl rfl
  | primitive _ _ _ hs =>
      obtain ⟨rfl, rfl⟩ := addPrimitive_eq_ok hs
      exact h.push rfl rfl rfl rfl

/-! ### Other handles -/

/-- The handles that stand for no class object are found in the indexes of their own. -/
structure Listed (s : Session) : Prop where
  /-- The name of a handle has been met. -/
  named : ∀ {r h}, s.handle r = .ok h → ∃ text, s.names.find? text = some h.name
  /-- A primitive type leads to its handle. -/
  primitive : ∀ {r h type}, s.handle r = .ok h → h.state = .primitive type →
    s.primitives.get? type = some r
  /-- A name leads to its placeholder, where placeholders are shared. -/
  placeholder : s.options.sharePlaceholders = true → ∀ {r h hint}, s.handle r = .ok h →
    h.state = .unloaded none hint → s.placeholders.get? h.name = some r

theorem Listed.start (number : Nat) (options : Options) :
    (Session.start number options).Listed := by
  have hempty : ∀ {r h}, (Session.start number options).handle r ≠ .ok h := by
    intro r h hr
    simpa [Session.start] using index_lt_size hr
  exact ⟨fun hr => absurd hr hempty, fun hr => absurd hr hempty, fun _ _ _ _ hr => absurd hr hempty⟩

/-- A new handle is in the index where it belongs, and the others stay there. -/
theorem Listed.push (h : s.Listed) {new : Handle} (hnumber : s'.number = s.number)
    (hoptions : s'.options = s.options) (hhandles : s'.handles = s.handles.push new)
    (hnames : s'.names = s.names) {text : String} (hname : s.names.find? text = some new.name)
    (hprimitives : ∀ {type r}, s.primitives.get? type = some r → s'.primitives.get? type = some r)
    (hprimitive : ∀ {type}, new.state = .primitive type →
      s'.primitives.get? type = some ⟨s.number, s.handles.size⟩)
    (hplaceholders : ∀ {name r}, s.options.sharePlaceholders = true →
      s.placeholders.get? name = some r → s'.placeholders.get? name = some r)
    (hplaceholder : ∀ {hint}, s.options.sharePlaceholders = true → new.state = .unloaded none hint →
      s'.placeholders.get? new.name = some ⟨s.number, s.handles.size⟩) : s'.Listed := by
  refine ⟨fun hr => ?_, fun hr hp => ?_, fun hshare r hd hint hr hp => ?_⟩
  · rw [hnames]
    rcases (handle_push hnumber hhandles).mp hr with hr | ⟨rfl, rfl⟩
    · exact h.named hr
    · exact ⟨text, hname⟩
  · rcases (handle_push hnumber hhandles).mp hr with hr | ⟨rfl, rfl⟩
    · exact hprimitives (h.primitive hr hp)
    · exact hprimitive hp
  · rw [hoptions] at hshare
    rcases (handle_push hnumber hhandles).mp hr with hr | ⟨rfl, rfl⟩
    · exact hplaceholders hshare (h.placeholder hshare hr hp)
    · exact hplaceholder hshare hp

theorem get?_insert_of_new {κ α : Type} [DecidableEq κ] {m : Index κ α} {k l : κ} {a b : α}
    (hnew : m.get? k = none) (hl : m.get? l = some b) : (m.insert k a).get? l = some b := by
  rw [Index.get?_insert, if_neg, hl]
  rintro rfl
  simp [hnew] at hl

theorem Move.listed (hm : s.Move s') (h : s.Listed) : s'.Listed := by
  cases hm with
  | hit => exact ⟨h.named, h.primitive, h.placeholder⟩
  | scope => exact ⟨h.named, h.primitive, h.placeholder⟩
  | name text =>
      refine ⟨fun hr => ?_, h.primitive, h.placeholder⟩
      obtain ⟨old, hold⟩ := h.named hr
      exact ⟨old, NameTable.find?_intern_of_find? hold _⟩
  | ofClass _ hname hcontent hs =>
      obtain ⟨rfl, rfl⟩ := addClass_eq_ok hs
      refine h.push rfl rfl rfl rfl hname id ?_ (fun _ => id) ?_
      · rintro type rfl
        cases hcontent
      · rintro hint - rfl
        cases hcontent
  | placeholder _ hname hnew hs =>
      obtain ⟨rfl, rfl⟩ := addPlaceholder_eq_ok hs
      refine h.push rfl rfl rfl rfl hname id nofun ?_ ?_
      · intro name r hshare hr
        rw [if_pos hshare]
        exact get?_insert_of_new (hnew hshare) hr
      · intro hint hshare _
        rw [if_pos hshare, Index.get?_insert, if_pos rfl]
  | primitive _ hname hnew hs =>
      obtain ⟨rfl, rfl⟩ := addPrimitive_eq_ok hs
      refine h.push rfl rfl rfl rfl hname (get?_insert_of_new hnew) ?_ (fun _ => id) nofun
      rintro type htype
      cases htype
      rw [Index.get?_insert, if_pos rfl]

/-! ### The laws -/

/-- What holds of the handles of a session. -/
structure CacheLaws (s : Session) : Prop where
  /-- A class has at most one loaded handle. -/
  loaded_once : ∀ {id r r'}, s.IsOf r id true → s.IsOf r' id true → r = r'
  /-- It has at most one that is not. -/
  unloaded_once : ∀ {id r r'}, s.IsOf r id false → s.IsOf r' id false → r = r'
  /-- Of the two the loaded one is the later. -/
  loaded_later : ∀ {id u l}, s.IsOf u id false → s.IsOf l id true → u.index < l.index
  /-- What is found for a class is the loaded handle, or else the other, or else nothing. -/
  cached : ∀ {id r}, s.cached? id = some r ↔
    s.IsOf r id true ∨ s.IsOf r id false ∧ ∀ l, ¬s.IsOf l id true
  /-- A primitive type has at most one handle. -/
  primitive_once : ∀ {type r r' h h'}, s.handle r = .ok h → s.handle r' = .ok h' →
    h.state = .primitive type → h'.state = .primitive type → r = r'
  /-- A name without a class object has at most one placeholder, where placeholders are shared. -/
  placeholder_once : s.options.sharePlaceholders = true → ∀ {text r r' h h' hint hint'},
    s.handle r = .ok h → s.handle r' = .ok h' →
    h.state = .unloaded none hint → h'.state = .unloaded none hint' →
    s.nameText r = .ok text → s.nameText r' = .ok text → r = r'

theorem Listed.name_inj (h : s.Listed) {r r' : HandleRef} {hd hd' : Handle} {text : String}
    (hr : s.handle r = .ok hd) (hr' : s.handle r' = .ok hd') (ht : s.nameText r = .ok text)
    (ht' : s.nameText r' = .ok text) : hd.name = hd'.name := by
  have hfind : ∀ {r hd}, s.handle r = .ok hd → s.nameText r = .ok text →
      s.names.find? text = some hd.name := by
    intro r hd hr ht
    obtain ⟨text', hfound⟩ := h.named hr
    have htext : s.nameText r = .ok text' := by
      simp [nameText, hr, bind, Except.bind, NameTable.text?_of_find? hfound]
    rw [Except.ok.inj (ht.symm.trans htext), hfound]
  exact Option.some.inj ((hfind hr ht).symm.trans (hfind hr' ht'))

theorem CacheLaws.of (ho : s.Ordered) (hl : s.Listed) : s.CacheLaws where
  loaded_once := fun hr hr' => Option.some.inj ((ho.loaded hr).symm.trans (ho.loaded hr'))
  unloaded_once := ho.once
  loaded_later := fun {id u l} hu hloaded => by
    rcases ho.unloaded hu with hcached | ⟨l', hl', hlt⟩
    · obtain rfl := Option.some.inj (hcached.symm.trans (ho.loaded hloaded))
      cases hu.status_inj hloaded
    · obtain rfl := Option.some.inj ((ho.loaded hl').symm.trans (ho.loaded hloaded))
      exact hlt
  cached := fun {id r} => by
    constructor
    · intro hcached
      obtain ⟨loaded, hr⟩ := ho.own hcached
      cases loaded with
      | true => exact .inl hr
      | false =>
          refine .inr ⟨hr, fun l hl => ?_⟩
          obtain rfl := Option.some.inj (hcached.symm.trans (ho.loaded hl))
          cases hr.status_inj hl
    · rintro (hr | ⟨hr, hnone⟩)
      · exact ho.loaded hr
      · refine (ho.unloaded hr).resolve_right ?_
        rintro ⟨l, hl, -⟩
        exact hnone l hl
  primitive_once := fun hr hr' hp hp' =>
    Option.some.inj ((hl.primitive hr hp).symm.trans (hl.primitive hr' hp'))
  placeholder_once := fun hshare {text r r' h h' hint hint'} hr hr' hp hp' ht ht' => by
    have hname := hl.name_inj hr hr' ht ht'
    refine Option.some.inj ((hl.placeholder hshare hr hp).symm.trans ?_)
    rw [hname]
    exact hl.placeholder hshare hr' hp'

/-! ### Histories -/

variable {σ : Type} [MetadataSource σ]

/-- The session after a list of requests, failed ones included.  Each looks at a heap of its own, so
between two of them anything may happen to classes and gate. -/
def through (s : Session) (steps : List (Heap σ × Request)) : Session :=
  steps.foldl (fun s step => (Workspace.serve { session := s, heap := step.1 } step.2).2.session) s

theorem serve_moves (w : Workspace σ) (request : Request) :
    w.session.Moves (w.serve request).2.session := by
  refine Workspace.serve_of_ends (P := fun w' => w.session.Moves w'.session) ?_
  exact Ends.mono request.moving (fun _ _ h => h.1) fun _ _ h => h.1

theorem through_moves (s : Session) (steps : List (Heap σ × Request)) :
    s.Moves (s.through steps) := by
  induction steps generalizing s with
  | nil => exact .refl
  | cons step steps ih =>
      exact (serve_moves { session := s, heap := step.1 } step.2).trans (ih _)

theorem Moves.keeps {number : Nat} {options : Options} (h : (start number options).Moves s) :
    s.Ordered ∧ s.Listed := by
  induction h with
  | refl => exact ⟨.start number options, .start number options⟩
  | tail _ hmove ih => exact ⟨hmove.ordered ih.1, hmove.listed ih.2⟩

/-- Resolving the class answers with this handle, and opens no scope for it. -/
def Settled (σ : Type) [MetadataSource σ] (s : Session) (id : Identity) (r : HandleRef) : Prop :=
  ∀ heap : Heap σ, ∃ w, Query.resolve id { session := s, heap := heap } = .ok r w ∧
    w.heap = heap ∧ w.session.stats.scopesOpened = s.stats.scopesOpened

/-- **The cache of a session.**  Whatever it has been asked, and whatever the stores have answered,
its handles keep to the laws, a handle that is there stays as it is, and resolving a class that has
once come out as loaded goes on yielding the same handle. -/
theorem through_cacheLaws (number : Nat) (options : Options) (earlier : List (Heap σ × Request)) :
    let s := (start number options).through earlier
    s.CacheLaws ∧ (∀ later : List (Heap σ × Request), s.Grows (s.through later)) ∧
      ∀ (heap : Heap σ) (id : Identity) (r : HandleRef) (h : Handle) (w : Workspace σ),
        Query.resolve id { session := s, heap := heap } = .ok r w →
        w.session.handle r = .ok h → h.isLoaded = true →
        ∀ later : List (Heap σ × Request), (w.session.through later).Settled σ id r := by
  have hmoves := through_moves (start number options) earlier
  intro s
  obtain ⟨hordered, hlisted⟩ := Moves.keeps hmoves
  refine ⟨.of hordered hlisted, fun later => Moves.grows (through_moves s later), ?_⟩
  intro heap id r h w hw hr hloaded later heap'
  obtain ⟨hresolve, hcached⟩ := Ends.of_ok (Query.resolve_moving (w := ⟨s, heap⟩) id) hw
  have hthen : (start number options).Moves w.session := hmoves.trans hresolve
  have hlater : w.session.Moves (w.session.through later) := through_moves w.session later
  have hof : w.session.IsOf r id true := by
    obtain ⟨loaded, hd, hr', hid, -⟩ := (Moves.keeps hthen).1.own hcached
    obtain rfl := Except.ok.inj (hr.symm.trans hr')
    exact ⟨h, hr, hid, hloaded⟩
  have hend : (start number options).Moves (w.session.through later) := hthen.trans hlater
  have hfinal : (w.session.through later).finalHandle? id = some r :=
    (Moves.keeps hend).1.finalHandle?_iff.mpr (hof.later (Moves.grows hlater))
  exact ⟨_, Query.resolve_of_final hfinal, rfl, rfl⟩

end Session

end RuntimeTypes
