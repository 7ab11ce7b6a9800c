/-
What lasts of an entry, and what does not come back.

A table only ever grows at its end, completes a declared entry where it stands, or
empties a position for good.  `Continues` says so of two tables of one history, with the
identities that were removed on the way: whatever else has an entry keeps it, with its
name, its loader and, once it is loaded, everything else.  So the identity of a new entry
has never been one before.

Reads come straight from the entries, so they last as the entries do.
-/
import RuntimeTypes.Store.Table
import RuntimeTypes.Proofs.Table.Operations

namespace RuntimeTypes

namespace ClassTable

open Relation

variable {t t' t'' : ClassTable}

/-! ### Entries that last -/

/-- What may become of an entry that is not removed: it may be completed. -/
structure Matures (e e' : ClassObject) : Prop where
  name : e'.name = e.name
  loader : e'.loader = e.loader
  /-- Nothing changes any more once it is loaded. -/
  loaded : ∀ body, e.body? = some body → e' = e

theorem Matures.refl (e : ClassObject) : Matures e e := ⟨rfl, rfl, fun _ _ => rfl⟩

theorem Matures.trans {e e' e'' : ClassObject} (h : Matures e e') (h' : Matures e' e'') :
    Matures e e'' where
  name := h'.name.trans h.name
  loader := h'.loader.trans h.loader
  loaded := fun body hb => by
    obtain rfl := h.loaded body hb
    exact h'.loaded body hb

/-- A table has gone on from an earlier one, and these identities have been removed meanwhile. -/
structure Continues (removed : List Identity) (t t' : ClassTable) : Prop where
  size : t.entries.size ≤ t'.entries.size
  /-- What has been removed stays so. -/
  gone : ∀ id ∈ removed, id.index < t'.entries.size ∧ t'.objectAt id = none
  /-- A position that is empty is not filled again. -/
  empty : ∀ id : Identity, id.index < t.entries.size → t.objectAt id = none → t'.objectAt id = none
  kept : ∀ id e, t.objectAt id = some e → id ∉ removed → ∃ e', t'.objectAt id = some e' ∧ Matures e e'

namespace Continues

theorem of_objectAt_eq (hsize : t'.entries.size = t.entries.size)
    (h : ∀ id, t'.objectAt id = t.objectAt id) : t.Continues [] t' where
  size := Nat.le_of_eq hsize.symm
  gone := nofun
  empty := fun id _ hnone => (h id).trans hnone
  kept := fun id e he _ => ⟨e, (h id).trans he, .refl e⟩

theorem refl (t : ClassTable) : t.Continues [] t := .of_objectAt_eq rfl fun _ => rfl

theorem trans {removed removed' : List Identity} (h : t.Continues removed t')
    (h' : t'.Continues removed' t'') : t.Continues (removed ++ removed') t'' where
  size := Nat.le_trans h.size h'.size
  gone := by
    intro id hid
    rcases List.mem_append.mp hid with hid | hid
    · obtain ⟨hlt, hnone⟩ := h.gone id hid
      exact ⟨Nat.lt_of_lt_of_le hlt h'.size, h'.empty id hlt hnone⟩
    · exact h'.gone id hid
  empty := fun id hlt hnone =>
    h'.empty id (Nat.lt_of_lt_of_le hlt h.size) (h.empty id hlt hnone)
  kept := by
    intro id e he hid
    rw [List.mem_append, not_or] at hid
    obtain ⟨e', he', hm⟩ := h.kept id e he hid.1
    obtain ⟨e'', he'', hm'⟩ := h'.kept id e' he' hid.2
    exact ⟨e'', he'', hm.trans hm'⟩

theorem add (t : ClassTable) (entry : ClassObject) : t.Continues [] (t.add entry) := by
  have hold : ∀ id : Identity, id.index < t.entries.size →
      (t.add entry).objectAt id = t.objectAt id := by
    intro id hlt
    rw [objectAt_add, if_neg]
    rintro rfl
    exact Nat.lt_irrefl _ hlt
  refine ⟨by simp, nofun, fun id hlt hnone => (hold id hlt).trans hnone, fun id e he _ => ?_⟩
  exact ⟨e, (hold id (index_lt_of_objectAt he)).trans he, .refl e⟩

/-- A declared entry is completed. -/
theorem complete {id : Identity} {entry : ClassObject} (he : t.objectAt id = some entry)
    (hnone : entry.body? = none) (body : ClassBody) :
    t.Continues [] (t.put id (some { entry with body? := some body })) := by
  have hid := index_lt_of_objectAt he
  refine ⟨by simp, nofun, fun other _ ho => ?_, fun other e ho _ => ?_⟩
  · rw [objectAt_put hid, if_neg, ho]
    rintro rfl
    rw [he] at ho
    cases ho
  · rw [objectAt_put hid]
    by_cases hother : other = id
    · subst hother
      obtain rfl := Option.some.inj (he.symm.trans ho)
      refine ⟨_, if_pos rfl, rfl, rfl, fun b hb => ?_⟩
      rw [hnone] at hb
      cases hb
    · exact ⟨e, (if_neg hother).trans ho, .refl e⟩

theorem without {id : Identity} {entry : ClassObject} (he : t.objectAt id = some entry) :
    t.Continues [id] (t.without id entry) where
  size := by simp [ClassTable.without]
  gone := by
    intro other hother
    obtain rfl := List.mem_singleton.mp hother
    exact ⟨by simpa [ClassTable.without] using index_lt_of_objectAt he,
      by rw [objectAt_without he, if_pos rfl]⟩
  empty := fun other _ hnone => by
    rw [objectAt_without he]
    split
    · rfl
    · exact hnone
  kept := fun other e ho hother => by
    rw [objectAt_without he, if_neg (by simpa using hother)]
    exact ⟨e, ho, .refl e⟩

/-- An entry that is still there has the same name. -/
theorem name_eq {removed : List Identity} (h : t.Continues removed t') {id : Identity}
    {e e' : ClassObject} (he : t.objectAt id = some e) (he' : t'.objectAt id = some e') :
    e'.name = e.name := by
  by_cases hid : id ∈ removed
  · rw [(h.gone id hid).2] at he'
    cases he'
  · obtain ⟨e'', he'', hm⟩ := h.kept id e he hid
    obtain rfl := Option.some.inj (he''.symm.trans he')
    exact hm.name

end Continues

/-! ### Operations -/

/-- What an operation that ends with this reply has removed. -/
def Op.removes : Op → Except TableRefusal Reply → List Identity
  | .unload id, .ok .done => [id]
  | _, _ => []

/-- The identities that an operation hands out for entries that it has made.  The array that is asked
for may have been there. -/
def Op.issues (t : ClassTable) : Op → Except TableRefusal Reply → List Identity
  | .arrayOf _ _, .ok (.made id) => if (t.objectAt id).isSome then [] else [id]
  | _, .ok (.made id) => [id]
  | _, _ => []

@[simp] theorem Op.removes_error (op : Op) (e : TableRefusal) : op.removes (.error e) = [] := by
  cases op <;> rfl

@[simp] theorem Op.issues_error (t : ClassTable) (op : Op) (e : TableRefusal) :
    op.issues t (.error e) = [] := by
  cases op <;> rfl

theorem continues_arrayMoves {interfaces : List Identity}
    (hm : ReflTransGen (ArrayMove interfaces) t t') : t.Continues [] t' := by
  induction hm with
  | refl => exact .refl t
  | tail _ hmove ih =>
      obtain ⟨element, hmove⟩ := hmove
      cases hmove
      exact ih.trans (.add _ _)

/-- **Every operation goes on from the table as it was**, but for what it removes. -/
theorem Ran.continues {op : Op} {reply : Except TableRefusal Reply} (hr : Ran t op reply t') :
    t.Continues (op.removes reply) t' := by
  cases hr with
  | refused _ e => exact op.removes_error e ▸ .refl t
  | newLoader hm =>
      cases hm
      exact .of_objectAt_eq rfl fun _ => rfl
  | define hm =>
      cases hm
      exact .add _ _
  | declare hm =>
      cases hm
      exact .add _ _
  | complete hm =>
      cases hm with
      | complete _ _ entry body _ he hnone _ => exact .complete he hnone body
  | unload hm =>
      cases hm with
      | unload _ entry he _ => exact .without he
  | array hm _ => exact continues_arrayMoves hm
  | arrayRefused _ hm => exact continues_arrayMoves hm

theorem after_append (t : ClassTable) (ops more : List Op) :
    t.after (ops ++ more) = (t.after ops).after more :=
  List.foldl_append

theorem Sound.continues (h : t.Sound) (ops : List Op) :
    (t.after ops).Sound ∧ ∃ removed, t.Continues removed (t.after ops) := by
  induction ops generalizing t with
  | nil => exact ⟨h, [], .refl t⟩
  | cons op rest ih =>
      have hran := run_ran h op
      obtain ⟨hsound, removed, hcontinues⟩ := ih (hran.sound h)
      exact ⟨hsound, _, hran.continues.trans hcontinues⟩

/-- The array that a request is answered with is there. -/
theorem arrayOf_objectAt (h : t.Sound) {element : ElementType} {interfaces : List Identity}
    {id : Identity} (hr : arrayOf element interfaces t = .ok id t') :
    ∃ entry, t'.objectAt id = some entry := by
  obtain ⟨hadd, key, -, hkey⟩ := (arrayOf_added h element interfaces).of_ok hr
  obtain ⟨entry, he, -⟩ := ((h.arrayMoves hadd.moves).named key id).mp hkey
  exact ⟨entry, he⟩

/-- An operation hands out the identity of an entry that is there, and was nowhere before. -/
theorem Ran.issues {op : Op} {reply : Except TableRefusal Reply} (hr : Ran t op reply t')
    (harray : ∀ element interfaces id, op = .arrayOf element interfaces →
      reply = .ok (.made id) → ∃ entry, t'.objectAt id = some entry)
    {id : Identity} (hid : id ∈ op.issues t reply) :
    t.entries.size ≤ id.index ∧ ∃ entry, t'.objectAt id = some entry := by
  have hadd : ∀ entry : ClassObject, id ∈ [t.freshId] →
      t.entries.size ≤ id.index ∧ ∃ entry', (t.add entry).objectAt id = some entry' := by
    intro entry hid
    obtain rfl := List.mem_singleton.mp hid
    exact ⟨Nat.le_refl _, entry, by rw [objectAt_add, if_pos rfl]⟩
  cases hr with
  | refused _ e => simp at hid
  | arrayRefused e _ => simp at hid
  | newLoader | complete | unload => cases hid
  | define hm =>
      cases hm
      exact hadd _ hid
  | declare hm =>
      cases hm
      exact hadd _ hid
  | @array element interfaces array t' hm hfound =>
      have hempty : t.objectAt array = none ∧ id = array := by
        cases hn : t.objectAt array <;> simp_all [Op.issues]
      obtain ⟨hempty, rfl⟩ := hempty
      obtain ⟨entry, he⟩ := harray element interfaces id rfl rfl
      refine ⟨Nat.le_of_not_lt fun hlt => ?_, entry, he⟩
      rw [(continues_arrayMoves hm).empty id hlt hempty] at he
      cases he

/-- **The identity of a new entry is new.** -/
theorem Op.issues_run (h : t.Sound) (op : Op) {id : Identity} (hid : id ∈ op.issues t (op.run t).1) :
    t.entries.size ≤ id.index ∧ ∃ entry, (op.run t).2.objectAt id = some entry := by
  refine (run_ran h op).issues ?_ hid
  rintro element interfaces made rfl hreply
  simp only [Op.run] at hreply ⊢
  cases hr : ClassTable.arrayOf element interfaces t with
  | error e t' =>
      rw [hr] at hreply
      cases hreply
  | ok array t' =>
      rw [hr] at hreply
      obtain rfl : array = made := by simpa using hreply
      exact arrayOf_objectAt h hr

theorem Op.issues_nodup (t : ClassTable) (op : Op) (reply : Except TableRefusal Reply) :
    (op.issues t reply).Nodup := by
  unfold Op.issues
  split
  · split <;> simp
  · simp
  · simp

end ClassTable

/-! ### Reads -/

/-- What a store says about a class that it does not have. -/
def Readings.unknown (id : Identity) : Readings where
  name := .error (.unknownIdentity id)
  loadStatus := .error (.unknownIdentity id)
  shape := .error (.unknownIdentity id)
  layout := .error (.unknownIdentity id)
  ancestry := .error (.unknownIdentity id)
  flags := .error (.unknownIdentity id)
  prototypeHeader := .error (.unknownIdentity id)
  loader := .error (.unknownIdentity id)

/-- What may become of what is read of a class: a declared class may be loaded. -/
structure Readings.Matures (r r' : Readings) : Prop where
  name : ∀ name, r.name = .ok name → r'.name = .ok name
  loader : ∀ loader, r.loader = .ok loader → r'.loader = .ok loader
  /-- Nothing changes any more once it reads as loaded. -/
  loaded : r.loadStatus = .ok .loaded → r' = r

namespace ClassTable

variable {t t' : ClassTable}

/-- Reading everything about a class yields this, and leaves the table as it is. -/
def Reads (t : ClassTable) (id : Identity) (r : Readings) : Prop := Readings.of id t = .ok r t

/-- What is read of an entry. -/
def readingsOf (e : ClassObject) : Readings where
  name := .ok e.name
  loadStatus := .ok e.loadStatus
  shape := .ok e.shape
  layout := .ok e.layout
  ancestry := ancestryOf e
  flags := .ok e.flags
  prototypeHeader := .ok unlockedHeader
  loader := .ok e.loader

theorem outcome_readObject {α : Type} {id : Identity} {f : ClassObject → Except HeapFailure α} :
    Read.outcome (readObject id f) t = .ok
      (match t.objectAt id with
        | none => .error (.unknownIdentity id)
        | some entry => f entry) t := by
  unfold Read.outcome readObject
  cases t.objectAt id with
  | none => rfl
  | some entry => cases hf : f entry <;> simp [hf]

theorem reads_objectAt (t : ClassTable) (id : Identity) :
    t.Reads id (((t.objectAt id).map readingsOf).getD (.unknown id)) := by
  unfold Reads Readings.of
  simp only [MetadataSource.name, MetadataSource.loadStatus, MetadataSource.shape,
    MetadataSource.layout, MetadataSource.ancestry, MetadataSource.flags,
    MetadataSource.prototypeHeader, MetadataSource.loader, bind, EStateM.bind, outcome_readObject]
  cases t.objectAt id <;> rfl

theorem Matures.readings {e e' : ClassObject} (h : Matures e e') :
    (readingsOf e).Matures (readingsOf e') where
  name := fun name hn => by
    obtain rfl := Except.ok.inj hn
    exact congrArg Except.ok h.name
  loader := fun loader hl => by
    obtain rfl := Except.ok.inj hl
    exact congrArg Except.ok h.loader
  loaded := by
    intro hl
    cases hb : e.body? with
    | none => simp [readingsOf, ClassObject.loadStatus, hb] at hl
    | some body => rw [h.loaded body hb]

/-- **What is read of a class lasts** until it is removed, and then it is unknown. -/
theorem Continues.reads {removed : List Identity} (h : t.Continues removed t') (id : Identity) :
    ∃ r r', t.Reads id r ∧ t'.Reads id r' ∧ (id ∉ removed → r.Matures r') ∧
      (id ∈ removed → r' = .unknown id) := by
  refine ⟨_, _, reads_objectAt t id, reads_objectAt t' id, fun hid => ?_, fun hid => ?_⟩
  · cases he : t.objectAt id with
    | none => exact ⟨nofun, nofun, nofun⟩
    | some e =>
        obtain ⟨e', he', hm⟩ := h.kept id e he hid
        simpa [he'] using hm.readings
  · rw [(h.gone id hid).2]
    rfl

end ClassTable

end RuntimeTypes
