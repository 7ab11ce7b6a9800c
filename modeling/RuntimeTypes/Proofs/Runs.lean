/-
What a run of a stateful operation ends in.

Building an array and asking a session are runs of the same kind: a state goes in, and
a state comes out, with a value or with a failure.  `Ends` says both at once, so that
what a run keeps is shown for the failures along with the rest, and the rules below
take a run apart at its binds.
-/
import Mathlib.Logic.Relation

namespace RuntimeTypes

variable {ε σ α β : Type}

/-- A run from a state ends as said: in a value and a state, or in a failure and a state. -/
def Ends (m : EStateM ε σ α) (s : σ) (ok : α → σ → Prop) (failed : ε → σ → Prop) : Prop :=
  match m s with
  | .ok a s' => ok a s'
  | .error e s' => failed e s'

namespace Ends

variable {m : EStateM ε σ α} {s s' : σ} {ok : α → σ → Prop} {failed : ε → σ → Prop}

theorem of_ok (h : Ends m s ok failed) {a : α} (hm : m s = .ok a s') : ok a s' := by
  simpa [Ends, hm] using h

theorem of_error (h : Ends m s ok failed) {e : ε} (hm : m s = .error e s') : failed e s' := by
  simpa [Ends, hm] using h

theorem exists_ok (h : Ends m s ok fun _ _ => False) : ∃ a s', m s = .ok a s' ∧ ok a s' := by
  cases hm : m s with
  | ok a s' => exact ⟨a, s', rfl, h.of_ok hm⟩
  | error e s' => exact (h.of_error hm).elim

theorem pure {a : α} (h : ok a s) : Ends (Pure.pure a : EStateM ε σ α) s ok failed := h

theorem throw {e : ε} (h : failed e s) : Ends (throw e : EStateM ε σ α) s ok failed := h

theorem mono {ok' : α → σ → Prop} {failed' : ε → σ → Prop} (h : Ends m s ok failed)
    (hok : ∀ a s', ok a s' → ok' a s') (hfailed : ∀ e s', failed e s' → failed' e s') :
    Ends m s ok' failed' := by
  unfold Ends at h ⊢
  split at h
  · exact hok _ _ h
  · exact hfailed _ _ h

/-- What is said of a run in two ways. -/
theorem and {ok' : α → σ → Prop} {failed' : ε → σ → Prop} (h : Ends m s ok failed)
    (h' : Ends m s ok' failed') :
    Ends m s (fun a s' => ok a s' ∧ ok' a s') fun e s' => failed e s' ∧ failed' e s' := by
  unfold Ends at h h' ⊢
  split at h
  · rename_i hm
    rw [hm] at h'
    exact ⟨h, h'⟩
  · rename_i hm
    rw [hm] at h'
    exact ⟨h, h'⟩

/-- One run after another.  A failure of the first is the failure of both. -/
theorem bind {k : α → EStateM ε σ β} {ok' : β → σ → Prop} {failed' : ε → σ → Prop}
    (h : Ends m s ok failed) (hk : ∀ a s', ok a s' → Ends (k a) s' ok' failed')
    (hfailed : ∀ e s', failed e s' → failed' e s') : Ends (m >>= k) s ok' failed' := by
  unfold Ends at h ⊢
  simp only [Bind.bind, EStateM.bind]
  cases hm : m s with
  | ok a next =>
      rw [hm] at h
      exact hk a next h
  | error e next =>
      rw [hm] at h
      exact hfailed e next h

theorem map {f : α → β} {ok' : β → σ → Prop} (h : Ends m s (fun a s' => ok' (f a) s') failed) :
    Ends (f <$> m) s ok' failed := by
  unfold Ends at h ⊢
  simp only [Functor.map, EStateM.map]
  cases hm : m s <;> rw [hm] at h <;> exact h

/-- Runs that each go along a transitive relation go along it together. -/
theorem bind_along {R : σ → σ → Prop} (htrans : ∀ {s₁ s₂ s₃}, R s₁ s₂ → R s₂ s₃ → R s₁ s₃)
    {k : α → EStateM ε σ β} {P : α → σ → Prop} {Q : β → σ → Prop} {F : ε → Prop}
    (h : Ends m s (fun a s' => R s s' ∧ P a s') fun e s' => R s s' ∧ F e)
    (hk : ∀ a s', R s s' → P a s' →
      Ends (k a) s' (fun b s'' => R s' s'' ∧ Q b s'') fun e s'' => R s' s'' ∧ F e) :
    Ends (m >>= k) s (fun b s'' => R s s'' ∧ Q b s'') fun e s'' => R s s'' ∧ F e := by
  refine Ends.bind h ?_ fun _ _ h' => h'
  rintro a s' ⟨hR, hP⟩
  exact Ends.mono (hk a s' hR hP) (fun _ _ h' => ⟨htrans hR h'.1, h'.2⟩)
    fun _ _ h' => ⟨htrans hR h'.1, h'.2⟩

theorem get_bind {k : σ → EStateM ε σ β} {ok' : β → σ → Prop} (h : Ends (k s) s ok' failed) :
    Ends (get >>= k) s ok' failed := h

theorem set_bind {k : PUnit → EStateM ε σ β} {ok' : β → σ → Prop} (h : Ends (k ⟨⟩) s' ok' failed) :
    Ends (set s' >>= k) s ok' failed := h

end Ends

end RuntimeTypes
