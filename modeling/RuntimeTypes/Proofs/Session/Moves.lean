/-
What a session can do in one piece, whatever store it looks at.

A store may answer as it likes, and differently every time, so nothing that it says is
kept here but what a session writes down.  That is little: a request takes `Move`s, each
of which counts something, remembers a name, or puts one handle at the end of the arena,
and a failure stops it after some of them.  A handle is only added where the session has
looked for one before, and the moves say what the look has found, so what holds of every
session with a history is shown move by move.

Answers are no more free than sessions.  Whatever a request hands out, the session then
leads to: `Request.moving` says both at once, moves and answer, since the type that is
answered is often one that the last move has added.
-/
import RuntimeTypes.Proofs.Session.Rules

namespace RuntimeTypes

open Relation

namespace Session

/-- What a handle of a class is built with: a snapshot, or no more than the name where the class is
not loaded and has no handle yet. -/
inductive Content (s : Session) (id : Identity) (text : String) : HandleState → Prop
  | loaded (c : Snapshot) : c.identity = id → Content s id text (.loaded c)
  | unloaded : s.cached? id = none →
      Content s id text (.unloaded (some id) (BasicType.ofInternalName text))

/-- The session changes in one piece. -/
inductive Move (s : Session) : Session → Prop
  | hit : Move s { s with stats := { s.stats with hits := s.stats.hits + 1 } }
  | scope : Move s { s with stats := { s.stats with scopesOpened := s.stats.scopesOpened + 1 } }
  /-- A name for which there is a number. -/
  | name {text : String} {name : NameId} : s.intern text = .ok (name, s.met text) →
      Move s (s.met text)
  /-- A handle of a class that has no loaded one. -/
  | ofClass {id : Identity} {text : String} {name : NameId} {content : HandleState} {r : HandleRef}
      {s' : Session} : s.finalHandle? id = none → s.names.find? text = some name →
      s.Content id text content →
      s.addClass id { name := name, externalName := externalName text, state := content }
        = .ok (r, s') → Move s s'
  /-- A placeholder, of a name that has none to share. -/
  | placeholder {text : String} {name : NameId} {hint : BasicType} {r : HandleRef} {s' : Session} :
      hint.isReference = true → s.names.find? text = some name →
      (s.options.sharePlaceholders = true → s.placeholders.get? name = none) →
      s.addPlaceholder
          { name := name, externalName := externalName text, state := .unloaded none hint }
        = .ok (r, s') → Move s s'
  /-- The handle of a primitive type that has none. -/
  | primitive {type : BasicType} {name : NameId} {r : HandleRef} {s' : Session} :
      type.isReference = false → s.names.find? type.name = some name →
      s.primitives.get? type = none →
      s.addPrimitive type { name := name, externalName := type.name, state := .primitive type }
        = .ok (r, s') → Move s s'

/-- Any number of moves. -/
abbrev Moves : Session → Session → Prop := ReflTransGen Move

/-- The reference is to be had from the session, by an index or from its arena. -/
inductive LeadsTo (s : Session) (r : HandleRef) : Prop
  | cached {id : Identity} : s.cached? id = some r → LeadsTo s r
  | placeholder {name : NameId} : s.placeholders.get? name = some r → LeadsTo s r
  | primitive {type : BasicType} : s.primitives.get? type = some r → LeadsTo s r
  | held {h : Handle} : s.handle r = .ok h → LeadsTo s r

theorem LeadsTo.of_push {s s' : Session} {h : Handle} (hnumber : s'.number = s.number)
    (hhandles : s'.handles = s.handles.push h) : s'.LeadsTo ⟨s.number, s.handles.size⟩ := by
  refine .held (h := h) (handle_eq_ok.mpr ⟨hnumber.symm, ?_⟩)
  rw [hhandles]
  exact Array.getElem?_push_size

theorem LeadsTo.of_snapshot {s : Session} {r : HandleRef} {operation : String} {c : Snapshot}
    (h : s.snapshot r operation = .ok c) : s.LeadsTo r := by
  unfold snapshot at h
  cases hr : s.handle r with
  | ok hd => exact .held hr
  | error e => simp [hr, bind, Except.bind] at h

end Session

/-- The types of an answer. -/
def Answer.types : Answer → List HandleRef
  | type r => [r]
  | type? r? => r?.toList
  | truth _ => []

namespace Query

variable {σ α : Type} {w : Workspace σ}

/-- However the query ends, the session has made some moves.  Where it yields a value `P` holds of it
and of the session besides. -/
def Moving (q : Query σ α) (w : Workspace σ) (P : α → Session → Prop) : Prop :=
  Ends q w (fun a w' => w.session.Moves w'.session ∧ P a w'.session)
    fun _ w' => w.session.Moves w'.session ∧ True

namespace Moving

variable {q : Query σ α} {P Q : α → Session → Prop}

theorem pure {a : α} (h : P a w.session) : Moving (Pure.pure a) w P := ⟨.refl, h⟩

theorem throw {e : QueryFailure} : Moving (throw e : Query σ α) w P := ⟨.refl, trivial⟩

theorem mono (h : Moving q w P) (hPQ : ∀ a s, P a s → Q a s) : Moving q w Q :=
  Ends.mono h (fun a _ h' => ⟨h'.1, hPQ a _ h'.2⟩) fun _ _ h' => h'

theorem bind {β : Type} {k : α → Query σ β} {R : β → Session → Prop} (h : Moving q w P)
    (hk : ∀ a w', P a w'.session → Moving (k a) w' R) : Moving (q >>= k) w R :=
  Ends.bind_along (R := fun (w w' : Workspace σ) => w.session.Moves w'.session)
    (P := fun a (w' : Workspace σ) => P a w'.session) ReflTransGen.trans h
    fun a w' _ hP => hk a w' hP

theorem map {β : Type} {f : α → β} {R : β → Session → Prop}
    (h : Moving q w fun a s => R (f a) s) : Moving (f <$> q) w R :=
  Ends.map h

end Moving

/-! ### The pieces -/

theorem ask_moving (f : Session → Except QueryFailure α) :
    Moving (ask f) w fun a s => s = w.session ∧ f w.session = .ok a :=
  ends_ask (fun _ ha => ⟨.refl, rfl, ha⟩) fun _ _ => ⟨.refl, trivial⟩

theorem learn_moving {f : Session → Except QueryFailure (α × Session)}
    {P : α → Session → Prop}
    (hf : ∀ a s, f w.session = .ok (a, s) → w.session.Move s ∧ P a s) :
    Moving (learn f) w P :=
  ends_learn (fun a s hs => ⟨.single (hf a s hs).1, (hf a s hs).2⟩) fun _ _ => ⟨.refl, trivial⟩

theorem intern_moving (text : String) :
    Moving (intern text) w fun name s => s = w.session.met text ∧
      s.names.find? text = some name := by
  refine ends_intern (fun hname => ⟨.single (.name hname), rfl, ?_⟩) fun _ _ => ⟨.refl, trivial⟩
  exact NameTable.find?_intern w.session.names text

/-- A store is no part of the session. -/
theorem read_moving (r : Read σ α) : Moving (read r) w fun _ s => s = w.session :=
  ends_read (fun _ _ _ => ⟨.refl, rfl⟩) fun _ _ _ => ⟨.refl, trivial⟩

theorem inScope_moving {body : Query σ α} {P : α → Session → Prop}
    (hbody : ∀ w', Moving body w' P) : Moving (inScope body) w P := by
  refine ends_inScope (fun _ _ => ⟨.refl, trivial⟩) fun gate _ => ?_
  exact Ends.mono (hbody _) (fun _ _ h => ⟨.head .scope h.1, h.2⟩)
    fun _ _ h => ⟨.head .scope h.1, trivial⟩

/-- What the session has for a class afterwards, or that it has no loaded handle for it. -/
theorem remembered_moving (id : Identity) :
    Moving (remembered id) w fun r? s =>
      match r? with
      | some r => s.cached? id = some r
      | none => s.finalHandle? id = none := by
  refine ends_remembered (fun r hr => ?_) fun hnone => ⟨.refl, hnone⟩
  exact ⟨.single .hit, (Option.filter_eq_some_iff.mp hr).1⟩

variable [MetadataSource σ]

theorem snapshot_moving (id : Identity) (name : String) :
    Moving (snapshot id name) w fun c s => s = w.session ∧ c.identity = id := by
  refine (ends_snapshot id name).mono ?_ ?_
  · rintro c w' ⟨hsame, hid, -⟩
    exact ⟨hsame ▸ .refl, hsame, hid⟩
  · rintro e w' ⟨hsame, -⟩
    exact ⟨hsame ▸ .refl, trivial⟩

omit [MetadataSource σ] in
/-- The index leads to the handle that has been added. -/
theorem addClass_moving {id : Identity} {text : String} {name : NameId} {content : HandleState}
    (hnone : w.session.finalHandle? id = none) (hname : w.session.names.find? text = some name)
    (hcontent : w.session.Content id text content) :
    Moving (learn fun s => s.addClass id
        { name := name, externalName := externalName text, state := content }) w
      fun r s => s.cached? id = some r := by
  refine learn_moving fun r s hs => ⟨.ofClass hnone hname hcontent hs, ?_⟩
  obtain ⟨rfl, rfl⟩ := Session.addClass_eq_ok hs
  simp [Session.cached?, Index.get?_insert]

theorem build_moving {id : Identity} {state : LoadStatus}
    (hnone : w.session.finalHandle? id = none)
    (hstate : state = .unloaded → w.session.cached? id = none) :
    Moving (build id state) w fun r s => s.cached? id = some r := by
  refine (read_moving _).bind fun text w₁ h₁ => ?_
  refine (intern_moving text).bind ?_
  rintro name w₂ ⟨h₂, hname⟩
  have hnone₂ : w₂.session.finalHandle? id = none := by rw [h₂, h₁]; exact hnone
  cases state with
  | loaded =>
      refine (Moving.map (R := fun content s => s = w₂.session ∧ s.Content id text content)
        ((snapshot_moving id text).mono ?_)).bind ?_
      · rintro c s ⟨hs, hid⟩
        exact ⟨hs, .loaded c hid⟩
      · rintro content w₃ ⟨h₃, hcontent⟩
        exact addClass_moving (h₃ ▸ hnone₂) (h₃ ▸ hname) hcontent
  | unloaded =>
      have hcached : w₂.session.cached? id = none := by rw [h₂, h₁]; exact hstate rfl
      exact addClass_moving hnone₂ hname (.unloaded hcached)

theorem resolveInside_moving (id : Identity) :
    Moving (resolveInside id) w fun r s => s.cached? id = some r := by
  refine (remembered_moving id).bind ?_
  rintro (_ | r) w₁ hr
  · refine (read_moving _).bind fun state w₂ h₂ => ?_
    refine (ask_moving _).bind ?_
    rintro found w₃ ⟨h₃, hfound⟩
    obtain rfl := Except.ok.inj hfound
    have hfinal : w₃.session.finalHandle? id = none := by rw [h₃, h₂]; exact hr
    split
    · rename_i r hcached
      exact Moving.pure (h₃ ▸ hcached)
    · rename_i hnew
      refine build_moving hfinal ?_
      rintro rfl
      rw [h₃]
      cases hcached : w₂.session.cached? id with
      | none => rfl
      | some r => exact absurd rfl (hnew r hcached)
  · exact Moving.pure hr

theorem resolve_moving (id : Identity) :
    Moving (resolve id) w fun r s => s.cached? id = some r := by
  refine (remembered_moving id).bind ?_
  rintro (_ | r) w' hr
  · exact inScope_moving fun _ => resolveInside_moving id
  · exact Moving.pure hr

/-! ### The other requests -/

omit [MetadataSource σ] in
theorem placeholder_moving (text : String) (hint : BasicType) :
    Moving (placeholder text hint) w fun r s => s.LeadsTo r := by
  unfold placeholder
  split
  · rename_i hhint
    refine (intern_moving text).bind ?_
    rintro name w₁ ⟨-, hname⟩
    refine (ask_moving _).bind ?_
    rintro shared? w₂ ⟨h₂, hshared⟩
    obtain rfl := Except.ok.inj hshared
    split
    · rename_i r hshared
      exact Moving.pure (h₂ ▸ .placeholder (Option.ite_none_right_eq_some.mp hshared).2)
    · rename_i hnone
      refine learn_moving fun r s hs => ⟨.placeholder hhint (h₂ ▸ hname) ?_ hs, ?_⟩
      · intro hshare
        rw [h₂] at hshare ⊢
        rwa [if_pos hshare] at hnone
      · obtain ⟨rfl, rfl⟩ := Session.addPlaceholder_eq_ok hs
        exact .of_push rfl rfl
  · exact Moving.throw

theorem find_moving (origin : HandleRef) (name : String) :
    Moving (find origin name) w fun r s => s.LeadsTo r := by
  refine (ask_moving _).bind fun loader w₁ _ => ?_
  refine inScope_moving fun w₂ => ?_
  refine (read_moving _).bind fun found? w₃ _ => ?_
  cases found? with
  | none => exact Moving.throw
  | some id => exact (resolveInside_moving id).mono fun _ _ => .cached

theorem findOrPlaceholder_moving (origin : HandleRef) (name : String) :
    Moving (findOrPlaceholder origin name) w fun r s => s.LeadsTo r := by
  refine ends_findOrPlaceholder (find_moving origin name) ?_ fun _ _ _ h => h
  intro missing after hsearched
  exact Ends.mono (placeholder_moving name _) (fun _ _ h => ⟨hsearched.1.trans h.1, h.2⟩)
    fun _ _ h => ⟨hsearched.1.trans h.1, trivial⟩

omit [MetadataSource σ] in
theorem primitive_moving (type : BasicType) :
    Moving (primitive type : Query σ _) w fun r s => s.LeadsTo r := by
  unfold primitive
  split
  · exact Moving.throw
  · rename_i hprimitive
    refine (ask_moving _).bind ?_
    rintro found w₁ ⟨h₁, hfound⟩
    obtain rfl := Except.ok.inj hfound
    split
    · rename_i r hfound
      exact Moving.pure (h₁ ▸ .primitive hfound)
    · rename_i hnone
      refine (intern_moving type.name).bind ?_
      rintro name w₂ ⟨h₂, hname⟩
      refine learn_moving fun r s hs =>
        ⟨.primitive (by simpa using hprimitive) hname ?_ hs, ?_⟩
      · rw [h₂, h₁]
        exact hnone
      · obtain ⟨rfl, rfl⟩ := Session.addPrimitive_eq_ok hs
        exact .of_push rfl rfl

theorem ancestorAt_moving (r : HandleRef) (depth : Nat) :
    Moving (ancestorAt r depth) w fun r? s => ∀ r ∈ r?, s.LeadsTo r := by
  refine (ask_moving _).bind fun c w' _ => ?_
  split
  · refine Moving.map ((resolve_moving _).mono fun r s hr r' hr' => ?_)
    obtain rfl := Option.mem_some.mp hr'
    exact .cached hr
  · exact Moving.pure nofun

theorem commonAncestor_moving (a b : HandleRef) :
    Moving (commonAncestor a b) w fun r s => s.LeadsTo r := by
  refine (ask_moving _).bind ?_
  rintro first w₁ ⟨h₁, hfirst⟩
  refine (ask_moving _).bind ?_
  rintro second w₂ ⟨h₂, hsecond⟩
  split
  · exact Moving.pure (h₂ ▸ .of_snapshot hsecond)
  · split
    · exact Moving.pure (h₂ ▸ h₁ ▸ .of_snapshot hfirst)
    · refine (ask_moving _).bind fun common w₃ _ => ?_
      exact (resolve_moving common).mono fun _ _ => .cached

end Query

open Query in
/-- **Every request** consists of moves of the session, failing ones included, and what it is answered
the session leads to. -/
theorem Request.moving {σ : Type} [MetadataSource σ] {w : Workspace σ} (r : Request) :
    Moving r.run w fun answer s => ∀ r ∈ answer.types, s.LeadsTo r := by
  have hone : ∀ {q : Query σ HandleRef}, (Moving q w fun r s => s.LeadsTo r) →
      Moving (Answer.type <$> q) w fun answer s => ∀ r ∈ answer.types, s.LeadsTo r := by
    intro q hq
    refine Moving.map (hq.mono fun r s hr r' hr' => ?_)
    obtain rfl := List.mem_singleton.mp hr'
    exact hr
  cases r with
  | resolve id => exact hone ((resolve_moving id).mono fun _ _ => .cached)
  | placeholder name hint => exact hone (placeholder_moving name hint)
  | find origin name => exact hone (find_moving origin name)
  | findOrPlaceholder origin name => exact hone (findOrPlaceholder_moving origin name)
  | primitive type => exact hone (primitive_moving type)
  | isSubtype a b => exact Moving.map ((ask_moving _).mono nofun)
  | isSubclass a b => exact Moving.map ((ask_moving _).mono nofun)
  | ancestorAt r depth =>
      refine Moving.map ((ancestorAt_moving r depth).mono fun r? s h r' hr' => h r' ?_)
      simpa [Answer.types] using hr'
  | commonAncestor a b => exact hone (commonAncestor_moving a b)

end RuntimeTypes
