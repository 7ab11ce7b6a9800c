/-
The bound on the handles of a session.

A bounded session is compared with one that is the same but for the bound.  Most of what a
request does is blind to it: `Blind` says that a query does the same under every bound and
leaves the arena as it is.  The bound is looked at where a handle is added, and there alone.
A session without one has room for as many handles as 32 bits can number, so `Fits` keeps
out the bounds beyond.

What makes the comparison come out is the order of things in a request.  A handle is added
in its last piece, so by then everything else has been decided alike in both sessions:
whether a handle is found, whether a read fails, whether a placeholder takes the place of a
name that is not found.  Nothing comes after the handle that could fail in the one session
where the other has stopped, and there is only one handle to a request.  `Bounded` says how
the two can end, and a blind piece may stand before whatever is bounded.
-/
import RuntimeTypes.Proofs.Session.Failures

namespace RuntimeTypes

/-- The session with this bound on its handles, and otherwise the same. -/
def Session.limited (s : Session) (limit : Option Nat) : Session :=
  { s with options := { s.options with handleLimit := limit } }

/-- The workspace with this bound on the session's handles. -/
def Workspace.limited {σ : Type} (w : Workspace σ) (limit : Option Nat) : Workspace σ :=
  { w with session := w.session.limited limit }

namespace Query

variable {σ α β : Type} {w : Workspace σ} {bound : Nat}

/-- The query does the same whatever the bound, and leaves the arena as it is. -/
inductive Blind (q : Query σ α) (w : Workspace σ) : Prop
  | yields (a : α) (v : Workspace σ) (h : ∀ limit, q (w.limited limit) = .ok a (v.limited limit))
      (harena : v.session.handles = w.session.handles) : Blind q w
  | fails (e : QueryFailure) (v : Workspace σ)
      (h : ∀ limit, q (w.limited limit) = .error e (v.limited limit))
      (harena : v.session.handles = w.session.handles) : Blind q w

/-- The arena keeps to the bound, and it is not full for a session without a bound where it is not for
this one. -/
structure Fits (bound size : Nat) : Prop where
  kept : size ≤ bound
  numbered : size < UInt32.size - 1 ∨ bound < UInt32.size

/-- How a query can end without a bound, and under this one. -/
inductive Bounded (bound : Nat) (q : Query σ α) (w : Workspace σ) : Prop
  /-- Both yield the same, and the bound is kept. -/
  | yields (a : α) (v : Workspace σ) (hfree : q (w.limited none) = .ok a (v.limited none))
      (hbound : q (w.limited (some bound)) = .ok a (v.limited (some bound)))
      (hfits : v.session.handles.size ≤ bound) : Bounded bound q w
  /-- Both fail alike, and no handle has been added. -/
  | fails (e : QueryFailure) (v : Workspace σ)
      (hfree : q (w.limited none) = .error e (v.limited none))
      (hbound : q (w.limited (some bound)) = .error e (v.limited (some bound)))
      (harena : v.session.handles = w.session.handles) : Bounded bound q w
  /-- There would be too many handles, so no handle is added. -/
  | refused (a : α) (v v' : Workspace σ) (hfree : q (w.limited none) = .ok a (v.limited none))
      (hbound : q (w.limited (some bound)) = .error (.exhausted bound) (v'.limited (some bound)))
      (hover : bound < v.session.handles.size)
      (harena : v'.session.handles = w.session.handles) : Bounded bound q w

namespace Blind

theorem pure {a : α} : Blind (Pure.pure a) w := .yields a w (fun _ => rfl) rfl

theorem map {q : Query σ α} {f : α → β} (h : Blind q w) : Blind (f <$> q) w := by
  cases h with
  | yields a v h harena =>
      refine .yields (f a) v (fun limit => ?_) harena
      simp only [Functor.map, EStateM.map, h limit]
  | fails e v h harena =>
      refine .fails e v (fun limit => ?_) harena
      simp only [Functor.map, EStateM.map, h limit]

theorem bind {q : Query σ α} {k : α → Query σ β} (hq : Blind q w)
    (hk : ∀ a v, Blind (k a) v) : Blind (q >>= k) w := by
  cases hq with
  | yields a v h harena =>
      have hrun : ∀ limit, (q >>= k) (w.limited limit) = k a (v.limited limit) := by
        intro limit
        rw [bind_apply, h limit]
      cases hk a v with
      | yields b v' hthen harena' =>
          exact .yields b v' (fun limit => (hrun limit).trans (hthen limit)) (harena'.trans harena)
      | fails e v' hthen harena' =>
          exact .fails e v' (fun limit => (hrun limit).trans (hthen limit)) (harena'.trans harena)
  | fails e v h harena =>
      refine .fails e v (fun limit => ?_) harena
      rw [bind_apply, h limit]

/-- The bound is no part of what is asked. -/
theorem ask {f : Session → Except QueryFailure α}
    (hf : ∀ limit, f (w.session.limited limit) = f w.session) : Blind (ask f) w := by
  cases hs : f w.session with
  | ok a =>
      refine .yields a w (fun limit => ?_) rfl
      exact ask_apply ((hf limit).trans hs)
  | error e =>
      refine .fails e w (fun limit => ?_) rfl
      have hfails : f (w.limited limit).session = .error e := (hf limit).trans hs
      simp only [Query.ask, hfails]

/-- A change that is the same whatever the bound. -/
theorem learn {f : Session → Except QueryFailure (α × Session)}
    (hf : ∀ limit, f (w.session.limited limit) =
      (f w.session).map fun made => (made.1, made.2.limited limit))
    (harena : ∀ a s, f w.session = .ok (a, s) → s.handles = w.session.handles) :
    Blind (learn f) w := by
  cases hs : f w.session with
  | ok made =>
      refine .yields made.1 { w with session := made.2 } (fun limit => ?_) (harena _ _ hs)
      have hlimited : f (w.limited limit).session = .ok (made.1, made.2.limited limit) := by
        rw [Workspace.limited, hf, hs]
        rfl
      simp only [Query.learn, hlimited]
      rfl
  | error e =>
      refine .fails e w (fun limit => ?_) rfl
      have hlimited : f (w.limited limit).session = .error e := by
        rw [Workspace.limited, hf, hs]
        rfl
      simp only [Query.learn, hlimited]

theorem intern (text : String) : Blind (intern text) w := by
  refine learn (fun limit => ?_) fun name s hs => ?_
  · simp only [Session.intern, Session.limited]
    cases w.session.names.intern? text <;> rfl
  · obtain ⟨-, rfl⟩ := Session.intern_eq_ok hs
    rfl

theorem countHit : Blind countHit w :=
  .yields () { w with session := { w.session with
    stats := { w.session.stats with hits := w.session.stats.hits + 1 } } } (fun _ => rfl) rfl

theorem read (r : Read σ α) : Blind (read r) w := by
  cases hr : r w.heap.store with
  | ok a store =>
      refine .yields a { w with heap := { w.heap with store := store } } (fun limit => ?_) rfl
      have hlimited : r (w.limited limit).heap.store = .ok a store := hr
      simp only [Query.read, Heap.read, hlimited]
      rfl
  | error e store =>
      refine .fails (.heap e) { w with heap := { w.heap with store := store } } (fun limit => ?_) rfl
      have hlimited : r (w.limited limit).heap.store = .error e store := hr
      simp only [Query.read, Heap.read, hlimited]
      rfl

theorem remembered (id : Identity) : Blind (remembered id) w := by
  refine (Blind.ask fun _ => rfl).bind fun found v => ?_
  split
  · exact countHit.bind fun _ _ => pure
  · exact pure

theorem snapshot [MetadataSource σ] (id : Identity) (name : String) :
    Blind (snapshot id name) w := by
  refine (read _).bind fun record w₁ => (Blind.ask fun _ => rfl).bind fun ancestry w₂ => ?_
  refine (read _).bind fun shape w₃ => (read _).bind fun layout w₄ => ?_
  refine (read _).bind fun flags w₅ => (read _).bind fun loader w₆ => ?_
  exact (read _).bind fun header w₇ => pure

/-! ### What may come before the last piece -/

theorem bounded {q : Query σ α} (hq : Blind q w) (hfits : Fits bound w.session.handles.size) :
    Bounded bound q w := by
  cases hq with
  | yields a v h harena => exact .yields a v (h none) (h (some bound)) (harena ▸ hfits.kept)
  | fails e v h harena => exact .fails e v (h none) (h (some bound)) harena

/-- A blind piece leaves the bound to the rest. -/
theorem bind_bounded {q : Query σ α} {k : α → Query σ β} (hq : Blind q w)
    (hk : ∀ a v, v.session.handles = w.session.handles → Bounded bound (k a) v) :
    Bounded bound (q >>= k) w := by
  cases hq with
  | yields a v h harena =>
      have hrun : ∀ limit, (q >>= k) (w.limited limit) = k a (v.limited limit) := by
        intro limit
        rw [bind_apply, h limit]
      cases hk a v harena with
      | yields b v' hfree hbound hfits =>
          exact .yields b v' ((hrun none).trans hfree) ((hrun (some bound)).trans hbound) hfits
      | fails e v' hfree hbound harena' =>
          exact .fails e v' ((hrun none).trans hfree) ((hrun (some bound)).trans hbound)
            (harena'.trans harena)
      | refused b v' v'' hfree hbound hover harena' =>
          exact .refused b v' v'' ((hrun none).trans hfree) ((hrun (some bound)).trans hbound) hover
            (harena'.trans harena)
  | fails e v h harena =>
      refine .fails e v ?_ ?_ harena
      · rw [bind_apply, h none]
      · rw [bind_apply, h (some bound)]

end Blind

theorem Bounded.map {q : Query σ α} (f : α → β) (h : Bounded bound q w) :
    Bounded bound (f <$> q) w := by
  have hok : ∀ {w' v' : Workspace σ} {a : α}, q w' = .ok a v' → (f <$> q) w' = .ok (f a) v' := by
    intro w' v' a hq
    simp only [Functor.map, EStateM.map, hq]
  have herror : ∀ {w' v' : Workspace σ} {e : QueryFailure}, q w' = .error e v' →
      (f <$> q) w' = .error e v' := by
    intro w' v' e hq
    simp only [Functor.map, EStateM.map, hq]
  cases h with
  | yields a v hfree hbound hfits => exact .yields (f a) v (hok hfree) (hok hbound) hfits
  | fails e v hfree hbound harena => exact .fails e v (herror hfree) (herror hbound) harena
  | refused a v v' hfree hbound hover harena =>
      exact .refused (f a) v v' (hok hfree) (herror hbound) hover harena

theorem Bounded.inScope {body : Query σ α}
    (hbody : ∀ gate, Bounded bound body (entered w gate)) : Bounded bound (inScope body) w := by
  cases hgate : w.heap.gate.enter w.session.options.waitBound with
  | error e =>
      exact .fails (.heap e) w (inScope_of_refused hgate) (inScope_of_refused hgate) rfl
  | ok gate =>
      -- The bound on handles is no concern of the gate.
      have henter : ∀ limit, (w.limited limit).heap.gate.enter
          (w.limited limit).session.options.waitBound = .ok gate := fun _ => hgate
      cases hbody gate with
      | yields a v hfree hbound hfits =>
          exact .yields a (left v) (inScope_of_ok (henter none) hfree)
            (inScope_of_ok (henter (some bound)) hbound) hfits
      | fails e v hfree hbound harena =>
          exact .fails e (left v) (inScope_of_error (henter none) hfree)
            (inScope_of_error (henter (some bound)) hbound) harena
      | refused a v v' hfree hbound hover harena =>
          exact .refused a (left v) (left v') (inScope_of_ok (henter none) hfree)
            (inScope_of_error (henter (some bound)) hbound) hover harena

/-! ### The last piece -/

section

variable {h : Handle} {f : Session → Except QueryFailure (α × Session)}
  {k : Session → HandleRef × Session → Except QueryFailure (α × Session)}

/-- Where there is room the handle is added. -/
theorem learn_of_room {s : Session} {a : α} {limit : Option Nat}
    (hf : ∀ s, f s = s.addHandle h >>= k s)
    (hk : ∀ s r grown limit, k (s.limited limit) (r, Session.limited grown limit) =
      (k s (r, grown)).map fun made => (made.1, made.2.limited limit))
    (hroom : ¬(w.session.limited limit).IsFull)
    (hmade : k w.session (⟨w.session.number, w.session.handles.size⟩,
      { w.session with handles := w.session.handles.push h }) = .ok (a, s)) :
    learn f (w.limited limit) = .ok a (({ w with session := s } : Workspace σ).limited limit) := by
  have hlimited : f (w.limited limit).session = .ok (a, s.limited limit) := by
    rw [hf]
    show (w.session.limited limit).addHandle h >>= k (w.session.limited limit) = _
    rw [Session.addHandle, if_neg hroom]
    show k (w.session.limited limit) (⟨w.session.number, w.session.handles.size⟩,
      Session.limited { w.session with handles := w.session.handles.push h } limit) = _
    rw [hk, hmade]
    rfl
  simp only [learn, hlimited]
  rfl

/-- Where there is none nothing is done. -/
theorem learn_of_full {limit : Option Nat} (hf : ∀ s, f s = s.addHandle h >>= k s)
    (hfull : (w.session.limited limit).IsFull) :
    learn f (w.limited limit) =
      .error (.exhausted (w.session.limited limit).options.handleBound) (w.limited limit) := by
  have hrefused : f (w.limited limit).session =
      .error (.exhausted (w.session.limited limit).options.handleBound) := by
    rw [hf]
    show (w.session.limited limit).addHandle h >>= k _ = _
    rw [Session.addHandle, if_pos hfull]
    rfl
  simp only [learn, hrefused]

theorem not_isFull_limited {s : Session} (hroom : s.handles.size < bound)
    (hnumbered : s.handles.size < UInt32.size) : ¬(s.limited (some bound)).IsFull := by
  rintro (hfull | hfull)
  · exact Nat.not_le.mpr hroom hfull
  · exact Nat.not_le.mpr hnumbered hfull

theorem not_isFull_unlimited {s : Session} (hroom : s.handles.size < UInt32.size - 1) :
    ¬(s.limited none).IsFull := by
  rintro (hfull | hfull)
  · exact Nat.not_le.mpr hroom hfull
  · exact Nat.not_le.mpr (Nat.lt_of_lt_of_le hroom (Nat.sub_le _ _)) hfull

/-- A handle is added, and indexed in a way that has nothing to do with the bound. -/
theorem learn_bounded (hfits : Fits bound w.session.handles.size)
    (hf : ∀ s, f s = s.addHandle h >>= k s)
    (hk : ∀ s r grown limit, k (s.limited limit) (r, Session.limited grown limit) =
      (k s (r, grown)).map fun made => (made.1, made.2.limited limit))
    (hmade : ∃ a s, k w.session (⟨w.session.number, w.session.handles.size⟩,
      { w.session with handles := w.session.handles.push h }) = .ok (a, s) ∧
        Session.size s = w.session.size + 1) : Bounded bound (learn f) w := by
  obtain ⟨a, s, hmade, hsize⟩ := hmade
  obtain ⟨hkept, hnumbered⟩ := hfits
  by_cases hnone : w.session.handles.size < UInt32.size - 1
  · have hfree := learn_of_room hf hk (not_isFull_unlimited hnone) hmade
    by_cases hfull : w.session.handles.size < bound
    · have hroom := not_isFull_limited hfull (Nat.lt_of_lt_of_le hnone (Nat.sub_le _ _))
      refine .yields a { w with session := s } hfree (learn_of_room hf hk hroom hmade) ?_
      show s.size ≤ bound
      rw [hsize]
      exact hfull
    · refine .refused a { w with session := s } w hfree
        (learn_of_full hf (.inl (Nat.le_of_not_lt hfull))) ?_ rfl
      show bound < s.size
      rw [hsize]
      exact Nat.lt_succ_of_le (Nat.le_of_not_lt hfull)
  · -- The last number that there is for a handle is the bound then.
    have hbound : bound = UInt32.size - 1 := by omega
    have hfree : (w.session.limited none).IsFull := .inl (Nat.le_of_not_lt hnone)
    have hfull : (w.session.limited (some bound)).IsFull := .inl (hbound ▸ Nat.le_of_not_lt hnone)
    refine .fails (.exhausted bound) w ((learn_of_full hf hfree).trans ?_) (learn_of_full hf hfull)
      rfl
    rw [hbound]
    rfl

end

theorem addClass_bounded (hfits : Fits bound w.session.handles.size) (id : Identity) (h : Handle) :
    Bounded bound (learn fun s => s.addClass id h) w := by
  refine learn_bounded hfits (fun _ => rfl) ?_ ?_
  · exact fun _ _ _ _ => rfl
  · exact ⟨_, _, rfl, Array.size_push h⟩

theorem addPlaceholder_bounded (hfits : Fits bound w.session.handles.size) (h : Handle) :
    Bounded bound (learn fun s => s.addPlaceholder h) w := by
  refine learn_bounded hfits (fun _ => rfl) ?_ ?_
  · exact fun _ _ _ _ => rfl
  · exact ⟨_, _, rfl, Array.size_push h⟩

theorem addPrimitive_bounded (hfits : Fits bound w.session.handles.size) (type : BasicType)
    (h : Handle) : Bounded bound (learn fun s => s.addPrimitive type h) w := by
  refine learn_bounded hfits (fun _ => rfl) ?_ ?_
  · exact fun _ _ _ _ => rfl
  · exact ⟨_, _, rfl, Array.size_push h⟩

/-! ### The requests -/

section Requests

variable (hfits : Fits bound w.session.handles.size)

include hfits

theorem placeholder_bounded (text : String) (hint : BasicType) :
    Bounded bound (placeholder text hint) w := by
  unfold placeholder
  split
  · refine (Blind.intern text).bind_bounded fun name w₁ h₁ => ?_
    refine (Blind.ask fun _ => rfl).bind_bounded fun shared? w₂ h₂ => ?_
    have hfits₂ : Fits bound w₂.session.handles.size := by
      rw [h₂, h₁]
      exact hfits
    split
    · exact Blind.pure.bounded hfits₂
    · exact addPlaceholder_bounded hfits₂ _
  · exact .fails _ w rfl rfl rfl

theorem primitive_bounded (type : BasicType) : Bounded bound (primitive type) w := by
  unfold primitive
  split
  · exact .fails _ w rfl rfl rfl
  · refine (Blind.ask fun _ => rfl).bind_bounded fun found w₁ h₁ => ?_
    split
    · exact Blind.pure.bounded (h₁ ▸ hfits)
    · refine (Blind.intern type.name).bind_bounded fun name w₂ h₂ => addPrimitive_bounded ?_ type _
      rw [h₂, h₁]
      exact hfits

variable [MetadataSource σ]

theorem build_bounded (id : Identity) (state : LoadStatus) : Bounded bound (build id state) w := by
  refine (Blind.read _).bind_bounded fun text w₁ h₁ => ?_
  refine (Blind.intern text).bind_bounded fun name w₂ h₂ => ?_
  have hfits₂ : Fits bound w₂.session.handles.size := by
    rw [h₂, h₁]
    exact hfits
  cases state with
  | loaded =>
      refine (Blind.snapshot id text).map.bind_bounded fun content w₃ h₃ => ?_
      exact addClass_bounded (h₃ ▸ hfits₂) id _
  | unloaded => exact addClass_bounded hfits₂ id _

theorem resolveInside_bounded (id : Identity) : Bounded bound (resolveInside id) w := by
  refine (Blind.remembered id).bind_bounded fun r? w₁ h₁ => ?_
  cases r? with
  | some r => exact Blind.pure.bounded (h₁ ▸ hfits)
  | none =>
      refine (Blind.read _).bind_bounded fun state w₂ h₂ => ?_
      refine (Blind.ask fun _ => rfl).bind_bounded fun found w₃ h₃ => ?_
      have hfits₃ : Fits bound w₃.session.handles.size := by
        rw [h₃, h₂, h₁]
        exact hfits
      split
      · exact Blind.pure.bounded hfits₃
      · exact build_bounded hfits₃ id _

theorem resolve_bounded (id : Identity) : Bounded bound (resolve id) w := by
  refine (Blind.remembered id).bind_bounded fun r? w₁ h₁ => ?_
  have hfits₁ : Fits bound w₁.session.handles.size := h₁ ▸ hfits
  cases r? with
  | some r => exact Blind.pure.bounded hfits₁
  | none => exact Bounded.inScope fun gate =>
      resolveInside_bounded (w := entered w₁ gate) hfits₁ id

theorem find_bounded (origin : HandleRef) (name : String) :
    Bounded bound (find origin name) w := by
  refine (Blind.ask fun _ => rfl).bind_bounded fun loader w₁ h₁ => Bounded.inScope fun gate => ?_
  refine (Blind.read _).bind_bounded fun found? w₂ h₂ => ?_
  cases found? with
  | none => exact .fails _ w₂ rfl rfl rfl
  | some id =>
      refine resolveInside_bounded ?_ id
      rw [h₂]
      show Fits bound w₁.session.handles.size
      rw [h₁]
      exact hfits

/-- A name that is not found is not found under either bound, and it has cost no handle. -/
theorem findOrPlaceholder_bounded (origin : HandleRef) (name : String) :
    Bounded bound (findOrPlaceholder origin name) w := by
  cases find_bounded hfits origin name with
  | yields r v hfree hbound hkept =>
      exact .yields r v (findOrPlaceholder_of_found hfree) (findOrPlaceholder_of_found hbound) hkept
  | refused r v v' hfree hbound hover harena =>
      exact .refused r v v' (findOrPlaceholder_of_found hfree)
        (findOrPlaceholder_of_error hbound nofun) hover harena
  | fails e v hfree hbound harena =>
      by_cases hnotFound : ∃ missing, e = .notFound missing
      · obtain ⟨missing, rfl⟩ := hnotFound
        have hfree₁ := findOrPlaceholder_of_missing hfree
        have hbound₁ := findOrPlaceholder_of_missing hbound
        cases placeholder_bounded (w := v) (harena ▸ hfits) name
            (BasicType.ofInternalName name) with
        | yields r v' hfree₂ hbound₂ hkept =>
            exact .yields r v' (hfree₁.trans hfree₂) (hbound₁.trans hbound₂) hkept
        | fails e v' hfree₂ hbound₂ harena₂ =>
            exact .fails e v' (hfree₁.trans hfree₂) (hbound₁.trans hbound₂) (harena₂.trans harena)
        | refused r v' v'' hfree₂ hbound₂ hover harena₂ =>
            exact .refused r v' v'' (hfree₁.trans hfree₂) (hbound₁.trans hbound₂) hover
              (harena₂.trans harena)
      · have hother : ∀ missing, e ≠ .notFound missing :=
          fun missing he => hnotFound ⟨missing, he⟩
        exact .fails e v (findOrPlaceholder_of_error hfree hother)
          (findOrPlaceholder_of_error hbound hother) harena

theorem ancestorAt_bounded (r : HandleRef) (depth : Nat) : Bounded bound (ancestorAt r depth) w := by
  refine (Blind.ask fun _ => rfl).bind_bounded fun c w₁ h₁ => ?_
  have hfits₁ : Fits bound w₁.session.handles.size := h₁ ▸ hfits
  split
  · exact (resolve_bounded hfits₁ _).map _
  · exact Blind.pure.bounded hfits₁

theorem commonAncestor_bounded (a b : HandleRef) : Bounded bound (commonAncestor a b) w := by
  refine (Blind.ask fun _ => rfl).bind_bounded fun first w₁ h₁ => ?_
  refine (Blind.ask fun _ => rfl).bind_bounded fun second w₂ h₂ => ?_
  have hfits₂ : Fits bound w₂.session.handles.size := by
    rw [h₂, h₁]
    exact hfits
  split
  · exact Blind.pure.bounded hfits₂
  · split
    · exact Blind.pure.bounded hfits₂
    · refine (Blind.ask fun _ => rfl).bind_bounded fun common w₃ h₃ => ?_
      exact resolve_bounded (h₃ ▸ hfits₂) common

end Requests

end Query

open Query in
/-- **Every request** ends under a bound in one of three ways. -/
theorem Request.bounded {σ : Type} [MetadataSource σ] {w : Workspace σ} {bound : Nat}
    (hfits : Fits bound w.session.handles.size) (r : Request) : Bounded bound r.run w := by
  have hask : ∀ f : Session → Except QueryFailure Bool,
      (∀ limit, f (w.session.limited limit) = f w.session) →
        Bounded bound (Answer.truth <$> ask f : Query σ Answer) w :=
    fun f hf => (Blind.ask hf).map.bounded hfits
  cases r with
  | resolve id => exact (resolve_bounded hfits id).map _
  | placeholder name hint => exact (placeholder_bounded hfits name hint).map _
  | find origin name => exact (find_bounded hfits origin name).map _
  | findOrPlaceholder origin name => exact (findOrPlaceholder_bounded hfits origin name).map _
  | primitive type => exact (primitive_bounded hfits type).map _
  | isSubtype a b => exact hask _ fun _ => rfl
  | isSubclass a b => exact hask _ fun _ => rfl
  | ancestorAt r depth => exact (ancestorAt_bounded hfits r depth).map _
  | commonAncestor a b => exact (commonAncestor_bounded hfits a b).map _

namespace Workspace

variable {σ : Type} [MetadataSource σ] {w : Workspace σ} {limit : Nat}

/-- A request served without a bound and with it: the same comes of it, or else it is refused where it
would have come out beyond the bound. -/
inductive SameOrRefused (w : Workspace σ) (limit : Nat)
    (free bounded : Except QueryFailure Answer × Workspace σ) : Prop
  | same : free.2.session.size ≤ limit → bounded = (free.1, free.2.limited (some limit)) →
      SameOrRefused w limit free bounded
  | refused (answer : Answer) : free.1 = .ok answer → limit < free.2.session.size →
      bounded.1 = .error (.exhausted limit) → bounded.2.session.size = w.session.size →
      SameOrRefused w limit free bounded

theorem serve_sameOrRefused (hfits : Query.Fits limit w.session.size) (request : Request) :
    SameOrRefused w limit ((w.limited none).serve request)
      ((w.limited (some limit)).serve request) := by
  cases Request.bounded (w := w) hfits request with
  | yields a v hfree hbound hkept =>
      rw [serve_of_ok hfree, serve_of_ok hbound]
      exact .same hkept rfl
  | fails e v hfree hbound harena =>
      rw [serve_of_error hfree, serve_of_error hbound]
      refine .same ?_ rfl
      show v.session.handles.size ≤ limit
      rw [harena]
      exact hfits.kept
  | refused a v v' hfree hbound hover harena =>
      rw [serve_of_ok hfree, serve_of_error hbound]
      exact .refused a rfl hover rfl (congrArg Array.size harena)

end Workspace

namespace Session

variable {s s' : Session}

/-- A handle is only added where there is room for it. -/
theorem lt_handleBound_of_addHandle_bind {α : Type} {h : Handle}
    {k : HandleRef × Session → Except QueryFailure α} {a : α} (hs : s.addHandle h >>= k = .ok a) :
    s.size < s.options.handleBound :=
  Nat.lt_of_not_le fun hfull => (addHandle_bind_eq_ok hs).1 (.inl hfull)

/-- So a move that adds one keeps to the bound, and the others leave the arena as it is. -/
theorem Move.size_le (hm : s.Move s') : s'.size ≤ max s.size s.options.handleBound := by
  have hpush : ∀ {h : Handle}, s.size < s.options.handleBound →
      (s.handles.push h).size ≤ max s.size s.options.handleBound := by
    intro h hlt
    rw [Array.size_push]
    exact Nat.le_trans hlt (Nat.le_max_right _ _)
  cases hm with
  | hit | scope | name => exact Nat.le_max_left _ _
  | ofClass _ _ _ hs =>
      have hlt := lt_handleBound_of_addHandle_bind hs
      obtain ⟨-, rfl⟩ := addClass_eq_ok hs
      exact hpush hlt
  | placeholder _ _ _ hs =>
      have hlt := lt_handleBound_of_addHandle_bind hs
      obtain ⟨-, rfl⟩ := addPlaceholder_eq_ok hs
      exact hpush hlt
  | primitive _ _ _ hs =>
      have hlt := lt_handleBound_of_addHandle_bind hs
      obtain ⟨-, rfl⟩ := addPrimitive_eq_ok hs
      exact hpush hlt

theorem Moves.size_le (h : s.Moves s') : s'.size ≤ max s.size s.options.handleBound := by
  induction h with
  | refl => exact Nat.le_max_left _ _
  | tail hmoves hmove ih =>
      have hle := hmove.size_le
      rw [Moves.grows hmoves |>.options] at hle
      exact Nat.le_trans hle (Nat.max_le.mpr ⟨ih, Nat.le_max_right _ _⟩)

end Session

/-- **The bound on the handles is transparent until it is hit.**  Where the unbounded session fails or
comes out within the bound, the bounded one does exactly the same; where the unbounded one would
come out beyond it, the bounded one says that it is exhausted and adds no handle.  So the bound is
kept in all that may follow, and what takes no further handle is answered however full the session
is.  Without a bound there is room for as many handles as 32 bits can number, so the two are compared
where that has not been reached or the bound is no larger. -/
theorem Workspace.serve_limited {σ : Type} [MetadataSource σ] (w : Workspace σ) (limit : Nat)
    (hfits : w.session.size ≤ limit) (request : Request) :
    let free := (w.limited none).serve request
    let bounded := (w.limited (some limit)).serve request
    (w.session.size < UInt32.size - 1 ∨ limit < UInt32.size →
      ((∃ e, free.1 = .error e) ∨ free.2.session.size ≤ limit →
        bounded = (free.1, free.2.limited (some limit))) ∧
      (free.2.session.size = w.session.size → bounded.1 = free.1)) ∧
    (limit < free.2.session.size →
      bounded.1 = .error (.exhausted limit) ∧ bounded.2.session.size = w.session.size) ∧
    ∀ steps : List (Heap σ × Request), (bounded.2.session.through steps).size ≤ limit := by
  intro free bounded
  have hserved : w.session.size < UInt32.size - 1 ∨ limit < UInt32.size →
      SameOrRefused w limit free bounded :=
    fun hnumbered => serve_sameOrRefused ⟨hfits, hnumbered⟩ request
  refine ⟨fun hnumbered => ⟨?_, ?_⟩, ?_, ?_⟩
  · intro hwithin
    cases hserved hnumbered with
    | same _ hbounded => exact hbounded
    | refused answer hanswer hover =>
        rcases hwithin with ⟨e, he⟩ | hkept
        · cases hanswer.symm.trans he
        · omega
  · intro hnone
    cases hserved hnumbered with
    | same _ hbounded => rw [hbounded]
    | refused _ _ hover => omega
  · intro hover
    have hfree : free.2.session.size ≤ max w.session.size (UInt32.size - 1) :=
      (Session.serve_moves (w.limited none) request).size_le
    cases hserved (by omega) with
    | same hkept => omega
    | refused _ _ _ hrefused harena => exact ⟨hrefused, harena⟩
  · intro steps
    have hmoves : (w.session.limited (some limit)).Moves (bounded.2.session.through steps) :=
      (Session.serve_moves (w.limited (some limit)) request).trans (Session.through_moves _ steps)
    exact Nat.le_trans hmoves.size_le (Nat.max_le.mpr ⟨hfits, Nat.le_refl limit⟩)

/-- A full session has no room for a placeholder, and still resolves the class that it knows. -/
theorem Workspace.serve_limited_full :
    Session.fullSession.size ≤ 1 ∧
    (Workspace.serve { session := Session.fullSession, heap := Session.rootOnly }
      (.placeholder "Gone" .object)).1 = .error (.exhausted 1) ∧
    (Workspace.serve { session := Session.fullSession, heap := Session.rootOnly }
      (.resolve ClassTable.root)).1 = .ok (.type ⟨0, 0⟩) := by
  let w : Workspace ClassTable := { session := Session.fullSession, heap := Session.rootOnly }
  have hfull : w.session.size ≤ 1 := Nat.le_refl 1
  refine ⟨hfull, ?_, ?_⟩
  · exact ((Workspace.serve_limited w 1 hfull (.placeholder "Gone" .object)).2.1
      (Nat.lt_succ_self 1)).1
  · exact ((Workspace.serve_limited w 1 hfull (.resolve ClassTable.root)).1
      (.inl (by decide))).2 rfl

end RuntimeTypes
