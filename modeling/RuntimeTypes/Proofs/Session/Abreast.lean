/-
Queries that run abreast on two stores.

A query comes to a store only through its reads.  Where two stores answer a read alike, with
the same value or the same failure, two workspaces that differ in nothing but the store still
do so afterwards, and whatever the query does with the answer is the same on both.  `Abreast`
says that two queries end alike, and the rules below hand it on through the pieces of a query.
What the reads make of the stores is a relation of its own.
-/
import RuntimeTypes.Session.Request

namespace RuntimeTypes

variable {σ τ α β : Type}

/-- Two workspaces have the same session and gate, and stores that are related. -/
structure Workspace.Beside (S : σ → τ → Prop) (w : Workspace σ) (v : Workspace τ) : Prop where
  session : w.session = v.session
  gate : w.heap.gate = v.heap.gate
  store : S w.heap.store v.heap.store

namespace Query

open Workspace

variable {S S' F : σ → τ → Prop} {w : Workspace σ} {v : Workspace τ}

/-- Two queries yield the same value or the same failure, and leave the two workspaces beside each
other; the stores are related by `S` then, or by `F` if the queries have failed. -/
def Abreast (S F : σ → τ → Prop) (q : Query σ α) (q' : Query τ α) (w : Workspace σ)
    (v : Workspace τ) : Prop :=
  match q w, q' v with
  | .ok a w', .ok a' v' => a = a' ∧ Beside S w' v'
  | .error e w', .error e' v' => e = e' ∧ Beside F w' v'
  | _, _ => False

namespace Abreast

variable {q : Query σ α} {q' : Query τ α}

theorem cases (h : Abreast S F q q' w v) :
    (∃ a w' v', q w = .ok a w' ∧ q' v = .ok a v' ∧ Beside S w' v') ∨
      ∃ e w' v', q w = .error e w' ∧ q' v = .error e v' ∧ Beside F w' v' := by
  unfold Abreast at h
  split at h
  · rename_i a w' a' v' hq hq'
    obtain ⟨rfl, hb⟩ := h
    exact .inl ⟨a, w', v', hq, hq', hb⟩
  · rename_i e w' e' v' hq hq'
    obtain ⟨rfl, hb⟩ := h
    exact .inr ⟨e, w', v', hq, hq', hb⟩
  · exact h.elim

theorem of_ok {a : α} {w' : Workspace σ} {v' : Workspace τ} (hq : q w = .ok a w')
    (hq' : q' v = .ok a v') (h : Beside S w' v') : Abreast S F q q' w v := by
  unfold Abreast
  rw [hq, hq']
  exact ⟨rfl, h⟩

theorem of_error {e : QueryFailure} {w' : Workspace σ} {v' : Workspace τ} (hq : q w = .error e w')
    (hq' : q' v = .error e v') (h : Beside F w' v') : Abreast S F q q' w v := by
  unfold Abreast
  rw [hq, hq']
  exact ⟨rfl, h⟩

theorem mono (h : Abreast S F q q' w v) (hS : ∀ s t, S s t → S' s t) : Abreast S' F q q' w v := by
  obtain ⟨a, w', v', hq, hq', hb⟩ | ⟨e, w', v', hq, hq', hb⟩ := h.cases
  · exact .of_ok hq hq' ⟨hb.session, hb.gate, hS _ _ hb.store⟩
  · exact .of_error hq hq' hb

theorem bind {k : α → Query σ β} {k' : α → Query τ β} (h : Abreast S F q q' w v)
    (hk : ∀ a w' v', Beside S w' v' → Abreast S' F (k a) (k' a) w' v') :
    Abreast S' F (q >>= k) (q' >>= k') w v := by
  obtain ⟨a, w', v', hq, hq', hb⟩ | ⟨e, w', v', hq, hq', hb⟩ := h.cases
  · have hnext := hk a w' v' hb
    unfold Abreast at hnext ⊢
    simpa only [bind_apply, hq, hq'] using hnext
  · exact .of_error (by rw [bind_apply, hq]) (by rw [bind_apply, hq']) hb

/-- The first of two queries has yielded this value. -/
theorem bind_of_ok {k : α → Query σ β} {k' : α → Query τ β} {a : α} {w' : Workspace σ}
    {v' : Workspace τ} (hq : q w = .ok a w') (hq' : q' v = .ok a v')
    (hk : Abreast S F (k a) (k' a) w' v') : Abreast S F (q >>= k) (q' >>= k') w v := by
  unfold Abreast at hk ⊢
  simpa only [bind_apply, hq, hq'] using hk

theorem pure (h : Beside S w v) (a : α) : Abreast S F (Pure.pure a) (Pure.pure a) w v := ⟨rfl, h⟩

theorem map (h : Abreast S F q q' w v) (f : α → β) : Abreast S F (f <$> q) (f <$> q') w v := by
  obtain ⟨a, w', v', hq, hq', hb⟩ | ⟨e, w', v', hq, hq', hb⟩ := h.cases
  · have hmap : (f <$> q) w = .ok (f a) w' := by simp [Functor.map, EStateM.map, hq]
    have hmap' : (f <$> q') v = .ok (f a) v' := by simp [Functor.map, EStateM.map, hq']
    exact .of_ok hmap hmap' hb
  · have hmap : (f <$> q) w = .error e w' := by simp [Functor.map, EStateM.map, hq]
    have hmap' : (f <$> q') v = .error e v' := by simp [Functor.map, EStateM.map, hq']
    exact .of_error hmap hmap' hb

end Abreast

/-! ### The pieces -/

theorem ask_abreast (h : Beside S w v) (hF : ∀ s t, S s t → F s t)
    (f : Session → Except QueryFailure α) : Abreast S F (ask f) (ask f) w v := by
  unfold Abreast ask
  rw [← h.session]
  cases f w.session with
  | ok a => exact ⟨rfl, h⟩
  | error e => exact ⟨rfl, h.session, h.gate, hF _ _ h.store⟩

theorem learn_abreast (h : Beside S w v) (hF : ∀ s t, S s t → F s t)
    (f : Session → Except QueryFailure (α × Session)) : Abreast S F (learn f) (learn f) w v := by
  unfold Abreast learn
  rw [← h.session]
  cases f w.session with
  | ok made => exact ⟨rfl, rfl, h.gate, h.store⟩
  | error e => exact ⟨rfl, h.session, h.gate, hF _ _ h.store⟩

/-- A scope that both can open. -/
theorem inScope_abreast (h : Beside S w v) {gate : Gate}
    (hgate : w.heap.gate.enter w.session.options.waitBound = .ok gate) {q : Query σ α}
    {q' : Query τ α} (hq : Abreast S' F q q' (entered w gate) (entered v gate)) :
    Abreast S' F (inScope q) (inScope q') w v := by
  have hleft {T : σ → τ → Prop} {w' : Workspace σ} {v' : Workspace τ} (hb : Beside T w' v') :
      Beside T (left w') (left v') := ⟨hb.session, congrArg Gate.leave hb.gate, hb.store⟩
  have hgate' : v.heap.gate.enter v.session.options.waitBound = .ok gate := by
    rw [← h.session, ← h.gate, hgate]
  unfold Abreast
  simp only [inScope, hgate, hgate']
  obtain ⟨a, w', v', hq, hq', hb⟩ | ⟨e, w', v', hq, hq', hb⟩ := hq.cases
  · rw [hq, hq']
    exact ⟨rfl, hleft hb⟩
  · rw [hq, hq']
    exact ⟨rfl, hleft hb⟩

theorem entered_beside (h : Beside S w v) (gate : Gate) :
    Beside S (entered w gate) (entered v gate) :=
  ⟨by simp only [entered, h.session], rfl, h.store⟩

/-! ### Without a read -/

variable [MetadataSource σ] [MetadataSource τ] {id : Identity}

/-- A class that is held as loaded is resolved without a read. -/
theorem resolve_abreast_of_final (h : Beside S w v) {r : HandleRef}
    (hr : w.session.finalHandle? id = some r) : Abreast S F (resolve id) (resolve id) w v :=
  .of_ok (resolve_of_final hr) (resolve_of_final (h.session ▸ hr))
    ⟨by simp only [h.session], h.gate, h.store⟩

theorem resolve_of_refused (hnone : w.session.finalHandle? id = none) {e : HeapFailure}
    (hgate : w.heap.gate.enter w.session.options.waitBound = .error e) :
    resolve id w = .error (.heap e) w := by
  simp only [resolve, bind_apply, remembered_of_none hnone, inScope, hgate]

/-- Neither is there a read where the gate keeps the query out. -/
theorem resolve_abreast_of_refused (h : Beside S w v) (hF : ∀ s t, S s t → F s t)
    (hnone : w.session.finalHandle? id = none) {e : HeapFailure}
    (hgate : w.heap.gate.enter w.session.options.waitBound = .error e) :
    Abreast S F (resolve id) (resolve id) w v := by
  have hgate' : v.heap.gate.enter v.session.options.waitBound = .error e := by
    rw [← h.session, ← h.gate, hgate]
  exact .of_error (resolve_of_refused hnone hgate) (resolve_of_refused (h.session ▸ hnone) hgate')
    ⟨h.session, h.gate, hF _ _ h.store⟩

/-- Queries that run abreast are answered alike. -/
theorem Abreast.serve (request : Request) (h : Abreast S S request.run request.run w v) :
    (w.serve request).1 = (v.serve request).1 ∧
      Beside S (w.serve request).2 (v.serve request).2 := by
  unfold Workspace.serve
  obtain ⟨a, w', v', hq, hq', hb⟩ | ⟨e, w', v', hq, hq', hb⟩ := h.cases
  · rw [hq, hq']
    exact ⟨rfl, hb⟩
  · rw [hq, hq']
    exact ⟨rfl, hb⟩

end Query

end RuntimeTypes
