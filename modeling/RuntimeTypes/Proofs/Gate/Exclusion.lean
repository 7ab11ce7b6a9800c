/-
Scopes and pauses at one gate exclude each other.

A thread *marks* the gate from the section in which it makes the pause pending until
it ends the pause: while it waits for the open scopes to be closed, and while it
holds the pause.  `Passage` says what one step can make of the gate and of the thread
that takes it; whom it wakes matters to nobody's count.  From it one step keeps a
crowd `Orderly`, and so does every run, in whatever order the threads take their
turns.  As long as a thread marks the gate no step opens a scope and nobody else can
end the pause.
-/
import Mathlib.Algebra.Order.BigOperators.Group.List
import Mathlib.Algebra.Order.Group.Nat
import Mathlib.Algebra.Ring.Nat
import RuntimeTypes.Gate.Scene

namespace RuntimeTypes

namespace Gate

/-- Whether a thread that stands here waits for the open scopes to be closed. -/
def Stage.draining : Stage → Bool
  | .asleep .drain => true
  | .awake .drain _ => true
  | _ => false

/-- Whether a thread has made a pause pending and not yet ended it. -/
def Thread.marking (t : Thread) : Bool := t.pausing || t.stage.draining

namespace Thread

@[simp]
theorem woken_scopes (t : Thread) : t.woken.scopes = t.scopes := by
  unfold woken
  split <;> rfl

@[simp]
theorem woken_pausing (t : Thread) : t.woken.pausing = t.pausing := by
  unfold woken
  split <;> rfl

@[simp]
theorem woken_draining (t : Thread) : t.woken.stage.draining = t.stage.draining := by
  unfold woken
  split
  · rename_i wait hstage
    rw [hstage]
    cases wait <;> rfl
  · rfl

@[simp]
theorem woken_marking (t : Thread) : t.woken.marking = t.marking := by
  simp [marking]

theorem marking_of_pausing {t : Thread} (h : t.pausing = true) : t.marking = true := by
  simp [marking, h]

@[simp]
theorem marking_gain_entry (t : Thread) (bound : Option Duration) :
    (t.gain (.entry bound)).marking = t.pausing := by
  simp [marking, gain, Stage.draining]

@[simp]
theorem marking_gain_turn (t : Thread) : (t.gain .turn).marking = true := rfl

@[simp]
theorem marking_gain_drain (t : Thread) : (t.gain .drain).marking = true := rfl

end Thread

/-! ### What one step can do -/

/-- What a step of a thread can make of the gate and of the thread, whoever is woken by it. -/
inductive Passage (g : Gate) (t : Thread) : Step → Gate → Thread → Prop
  /-- The thread goes to sleep, wakes up or is turned away. -/
  | waits {s : Step} {t' : Thread} (leaves : s ≠ .leave) (scopes : t'.scopes = t.scopes)
      (pausing : t'.pausing = t.pausing) (marking : t'.marking = t.marking) : Passage g t s g t'
  /-- It opens a scope. -/
  | opens {s : Step} (bound : Option Duration) (contended : Nat) (leaves : s ≠ .leave)
      (free : g.pending = false) :
      Passage g t s
        { g with openScopes := g.openScopes + 1, entered := g.entered + 1, contended := contended }
        (t.gain (.entry bound))
  /-- It makes a pause pending and waits for the open scopes. -/
  | marks {s : Step} (leaves : s ≠ .leave) (free : g.pending = false) :
      Passage g t s { g with pending := true } { t with stage := .asleep .drain }
  /-- It makes a pause pending and gets it at once. -/
  | pauses {s : Step} (leaves : s ≠ .leave) (free : g.pending = false) (closed : g.openScopes = 0) :
      Passage g t s { g with pending := true, pauses := g.pauses + 1 } (t.gain .turn)
  /-- It gets the pause that it has waited for. -/
  | drains {s : Step} (leaves : s ≠ .leave) (marking : t.marking = true)
      (closed : g.openScopes = 0) :
      Passage g t s { g with pauses := g.pauses + 1 } (t.gain .drain)
  /-- It closes a scope. -/
  | closes (holds : 0 < t.scopes) : Passage g t .leave g.leave { t with scopes := t.scopes - 1 }
  /-- It ends its pause. -/
  | resumes (pausing : t.pausing = true) (idle : t.stage = .idle) :
      Passage g t .resume g.resume { t with pausing := false }
  /-- It shuts the gate down. -/
  | shuts : Passage g t .shutdown g.shutdown t

/-- A thread that only moves on in its call. -/
theorem Passage.stays {g : Gate} {t : Thread} {s : Step} (leaves : s ≠ .leave) (stage : Stage)
    (answer? : Option (Except HeapFailure Unit)) (h : stage.draining = t.stage.draining) :
    Passage g t s g { t with stage := stage, answer? := answer? } :=
  .waits leaves rfl rfl (by simp [Thread.marking, h])

theorem tryEnter_cases (g : Gate) (bound : Option Duration) (waited expired : Bool) :
    (∃ e, g.tryEnter bound waited expired = .refused e) ∨
      g.tryEnter bound waited expired = .sleeps (.entry bound) g ∨
      g.pending = false ∧ ∃ contended, g.tryEnter bound waited expired =
        .granted { g with
          openScopes := g.openScopes + 1, entered := g.entered + 1, contended := contended } := by
  unfold tryEnter
  split
  · exact .inl ⟨_, rfl⟩
  split
  · split
    · exact .inl ⟨_, rfl⟩
    · exact .inr (.inl rfl)
  · rename_i hpending
    exact .inr (.inr ⟨by simpa using hpending, _, rfl⟩)

theorem tryDrain_cases (g : Gate) :
    g.openScopes = 0 ∧ g.tryDrain = .granted { g with pauses := g.pauses + 1 } ∨
      g.tryDrain = .sleeps .drain g := by
  unfold tryDrain
  split
  · rename_i hclosed
    exact .inl ⟨hclosed, rfl⟩
  · exact .inr rfl

theorem tryPause_cases (g : Gate) :
    (∃ e, g.tryPause = .refused e) ∨ g.tryPause = .sleeps .turn g ∨
      g.pending = false ∧ g.tryPause = { g with pending := true }.tryDrain := by
  unfold tryPause
  split
  · exact .inl ⟨_, rfl⟩
  split
  · exact .inr (.inl rfl)
  · rename_i hpending
    exact .inr (.inr ⟨by simpa using hpending, rfl⟩)

namespace Crowd

variable {c c' : Crowd} {i : Nat} {s : Step} {t : Thread}

/-- A section under the lock is a passage of the thread that runs it.  A thread that calls does not
wait for the open scopes to be closed, and one that is awake waits for what it has asked for. -/
theorem attempt_passage (leaves : s ≠ .leave) (wait : Wait) (waited expired : Bool)
    (hstage : t.stage.draining = decide (wait = .drain)) :
    ∃ g t', Passage c.gate t s g t' ∧
      c.attempt i t wait waited expired = (c.atGate g).put i t' := by
  cases wait with
  | entry bound =>
    obtain ⟨e, h⟩ | h | ⟨hpending, contended, h⟩ := c.gate.tryEnter_cases bound waited expired
    · exact ⟨c.gate, t.turnedAway e, .stays leaves .idle _ hstage.symm, by
        simp only [attempt, Gate.attempt, h, atGate]⟩
    · exact ⟨c.gate, _, .stays leaves (.asleep (.entry bound)) t.answer? hstage.symm, by
        simp only [attempt, Gate.attempt, h]⟩
    · exact ⟨_, _, .opens bound contended leaves hpending, by
        simp only [attempt, Gate.attempt, h]⟩
  | turn =>
    obtain ⟨e, h⟩ | h | ⟨hpending, h⟩ := c.gate.tryPause_cases
    · exact ⟨c.gate, t.turnedAway e, .stays leaves .idle _ hstage.symm, by
        simp only [attempt, Gate.attempt, h, atGate]⟩
    · exact ⟨c.gate, _, .stays leaves (.asleep .turn) t.answer? hstage.symm, by
        simp only [attempt, Gate.attempt, h]⟩
    obtain ⟨hclosed, hdrain⟩ | hdrain := { c.gate with pending := true }.tryDrain_cases
    · exact ⟨_, _, .pauses leaves hpending hclosed, by
        simp only [attempt, Gate.attempt, h, hdrain]⟩
    · exact ⟨_, _, .marks leaves hpending, by
        simp only [attempt, Gate.attempt, h, hdrain]⟩
  | drain =>
    have hdraining : t.stage.draining = true := by simpa using hstage
    obtain ⟨hclosed, h⟩ | h := c.gate.tryDrain_cases
    · exact ⟨_, _, .drains leaves (by simp [Thread.marking, hdraining]) hclosed, by
        simp only [attempt, Gate.attempt, h]⟩
    · exact ⟨c.gate, _, .stays leaves (.asleep .drain) t.answer? hstage.symm, by
        simp only [attempt, Gate.attempt, h]⟩

theorem put_self (h : c.threads[i]? = some t) : c.put i t = c := by
  obtain ⟨hi, rfl⟩ := List.getElem?_eq_some_iff.mp h
  simp [put]

/-- A step is a passage of the thread that takes it, and may wake the sleepers. -/
theorem step_passage (h : c.step i s = some c') :
    ∃ t g t', c.threads[i]? = some t ∧ Passage c.gate t s g t' ∧
      (c' = (c.atGate g).put i t' ∨ c' = ((c.atGate g).put i t').wakeAll) := by
  unfold step at h
  cases ht : c.threads[i]? with
  | none => simp [ht] at h
  | some t =>
    simp only [ht] at h
    have runs (wait : Wait) (waited expired : Bool) (leaves : s ≠ .leave)
        (hstage : t.stage.draining = decide (wait = .drain))
        (h : some (c.attempt i t wait waited expired) = some c') :
        ∃ t₀ g t', some t = some t₀ ∧ Passage c.gate t₀ s g t' ∧
          (c' = (c.atGate g).put i t' ∨ c' = ((c.atGate g).put i t').wakeAll) := by
      obtain ⟨g, t', hpassage, heq⟩ := attempt_passage (c := c) (i := i) leaves wait waited
        expired hstage
      exact ⟨t, g, t', rfl, hpassage, .inl (by rw [← heq]; simpa using h.symm)⟩
    split at h
    case h_1 bound hstage => exact runs _ _ _ (by simp) (by rw [hstage]; rfl) h
    case h_2 hstage =>
      split at h
      · rename_i hholds
        refine ⟨t, _, _, rfl, .closes hholds, ?_⟩
        have hleft : c.leave i t = c' := by simpa using h
        unfold leave at hleft
        split at hleft
        · exact .inr hleft.symm
        · exact .inl hleft.symm
      · simp at h
    case h_3 hstage => exact runs _ _ _ (by simp) (by rw [hstage]; rfl) h
    case h_4 hstage =>
      split at h
      · rename_i hpausing
        exact ⟨t, _, _, rfl, .resumes hpausing hstage, .inr (by simpa using h.symm)⟩
      · simp at h
    case h_5 hstage =>
      refine ⟨t, _, t, rfl, .shuts, .inr ?_⟩
      rw [put_self (c := c.atGate c.gate.shutdown) ht]
      simpa using h.symm
    case h_6 d hstage =>
      refine ⟨t, c.gate, _, rfl, ?_, .inl (by simpa [atGate] using h.symm)⟩
      exact .stays (by simp) (.awake (.entry (some d)) true) t.answer? (by rw [hstage]; rfl)
    case h_7 wait hstage =>
      refine ⟨t, c.gate, _, rfl, ?_, .inl (by simpa [atGate] using h.symm)⟩
      exact .stays (by simp) (.awake wait false) t.answer? (by rw [hstage]; cases wait <;> rfl)
    case h_8 wait expired hstage =>
      exact runs _ _ _ (by simp) (by rw [hstage]; cases wait <;> rfl) h
    case h_9 => simp at h

end Crowd

/-! ### What a passage leaves as it was -/

namespace Passage

variable {g g' : Gate} {t t' : Thread} {s : Step}

theorem openScopes (h : Passage g t s g' t') (hle : t.scopes ≤ g.openScopes) :
    g'.openScopes + t.scopes = g.openScopes + t'.scopes := by
  cases h with
  | waits _ hscopes => rw [hscopes]
  | closes hholds => simp only [leave]; omega
  | opens => simp only [Thread.gain]; omega
  | _ => rfl

/-- Whatever is opened is counted, and only what is closed is taken off the open scopes again. -/
theorem entered (h : Passage g t s g' t') (hle : t.scopes ≤ g.openScopes) :
    g'.entered + g.openScopes = g.entered + g'.openScopes + if s = .leave then 1 else 0 := by
  cases h with
  | closes hholds => simp only [leave, if_true]; omega
  | resumes => simp [resume]
  | shuts => simp [shutdown]
  | opens _ _ hleaves => simp only [hleaves, if_false]; omega
  | waits hleaves | marks hleaves | pauses hleaves | drains hleaves => simp [hleaves]

/-- A pause becomes pending when the thread begins to mark the gate, and is over when it stops. -/
theorem pending (h : Passage g t s g' t') (hmarks : t.marking = true → g.pending = true) :
    g'.pending.toNat + t.marking.toNat = g.pending.toNat + t'.marking.toNat := by
  have hfree (h : g.pending = false) : t.marking = false := by
    cases hmarking : t.marking with
    | false => rfl
    | true => simp [hmarks hmarking] at h
  cases h with
  | waits _ _ _ hmarking => rw [hmarking]
  | opens _ _ _ hpending =>
    have hpausing : t.pausing = false := by
      have := hfree hpending
      simp_all [Thread.marking]
    rw [hfree hpending, Thread.marking_gain_entry, hpausing]
  | marks _ hpending =>
    have hdrains : Thread.marking { t with stage := .asleep .drain } = true := by
      simp [Thread.marking, Stage.draining]
    rw [hfree hpending, hpending, hdrains]
    rfl
  | pauses _ hpending => rw [hfree hpending, hpending, Thread.marking_gain_turn]; rfl
  | drains _ hmarking => rw [hmarking, Thread.marking_gain_drain]
  | closes => rfl
  | resumes hpausing hidle =>
    have hmarking := Thread.marking_of_pausing hpausing
    have hends : Thread.marking { t with pausing := false } = false := by
      simp [Thread.marking, Stage.draining, hidle]
    rw [hmarking, hmarks hmarking, hends]
    rfl
  | shuts => rfl

/-- A thread gets a pause only while no scope is open, and opens none while it holds one. -/
theorem quiet (h : Passage g t s g' t') (hmarks : t.marking = true → g.pending = true)
    (hquiet : t.pausing = true → g.openScopes = 0) (hpausing : t'.pausing = true) :
    g'.openScopes = 0 := by
  cases h with
  | waits _ _ heq => exact hquiet (heq ▸ hpausing)
  | opens _ _ _ hfree =>
    have hpending := hmarks (Thread.marking_of_pausing hpausing)
    simp [hfree] at hpending
  | pauses _ _ hclosed => exact hclosed
  | drains _ _ hclosed => exact hclosed
  | closes => simp [leave, hquiet hpausing]
  | resumes => simp at hpausing
  | marks | shuts => exact hquiet hpausing

theorem closed (h : Passage g t s g' t') (hpending : g.pending = true) :
    g'.openScopes ≤ g.openScopes ∧ g'.entered = g.entered ∧ t'.scopes ≤ t.scopes := by
  cases h with
  | waits _ hscopes => exact ⟨Nat.le_refl _, rfl, Nat.le_of_eq hscopes⟩
  | opens _ _ _ hfree | marks _ hfree | pauses _ hfree => simp [hfree] at hpending
  | closes => exact ⟨Nat.sub_le _ _, rfl, Nat.sub_le _ _⟩
  | drains | resumes | shuts => exact ⟨Nat.le_refl _, rfl, Nat.le_refl _⟩

theorem of_leave (h : Passage g t .leave g' t') : 0 < t.scopes ∧ g' = g.leave := by
  cases h with
  | closes hholds => exact ⟨hholds, rfl⟩
  | waits hleaves | opens _ _ hleaves | marks hleaves | pauses hleaves | drains hleaves =>
    exact absurd rfl hleaves

theorem marking_keeps (h : Passage g t s g' t') (hs : s ≠ .resume) (hmarking : t.marking = true)
    (hpending : g.pending = true) : t'.marking = true := by
  cases h with
  | waits _ _ _ heq => rw [heq, hmarking]
  | opens _ _ _ hfree | marks _ hfree | pauses _ hfree => simp [hfree] at hpending
  | drains => simp [Thread.marking, Thread.gain]
  | closes | shuts => exact hmarking
  | resumes => exact absurd rfl hs

end Passage

/-! ### What a run keeps -/

namespace Crowd

variable {c c' d : Crowd} {i j : Nat} {s : Step} {t : Thread} {steps : List (Nat × Step)}

/-- The sum of a number over the threads. -/
def total (c : Crowd) (f : Thread → Nat) : Nat := (c.threads.map f).sum

/-- The scopes that threads hold open. -/
def held (c : Crowd) : Nat := c.total Thread.scopes

/-- How many threads mark the gate. -/
def marks (c : Crowd) : Nat := c.total fun t => t.marking.toNat

/-- How many scopes a run closes. -/
def closings (steps : List (Nat × Step)) : Nat := steps.countP fun turn => turn.2 = .leave

theorem total_put (f : Thread → Nat) (t' : Thread) (h : c.threads[i]? = some t) :
    (c.put i t').total f + f t = c.total f + f t' := by
  show ((c.threads.set i t').map f).sum + f t = (c.threads.map f).sum + f t'
  generalize c.threads = threads at h
  induction threads generalizing i with
  | nil => simp at h
  | cons u rest ih =>
    cases i with
    | zero =>
      obtain rfl : u = t := by simpa using h
      simp only [List.set_cons_zero, List.map_cons, List.sum_cons]
      omega
    | succ i =>
      have := ih (i := i) (by simpa using h)
      simp only [List.set_cons_succ, List.map_cons, List.sum_cons]
      omega

@[simp]
theorem total_wakeAll (f : Thread → Nat) (hf : ∀ t, f t.woken = f t) :
    c.wakeAll.total f = c.total f := by
  simp [total, wakeAll, Function.comp_def, hf]

theorem le_total (f : Thread → Nat) (h : c.threads[i]? = some t) : f t ≤ c.total f :=
  List.le_sum_of_mem (List.mem_map_of_mem (List.mem_of_getElem? h))

/-- What holds of a crowd in which `dropped` scopes have been closed so far. -/
structure Orderly (c : Crowd) (dropped : Nat) : Prop where
  /-- The gate knows how many scopes the threads hold. -/
  counted : c.gate.openScopes = c.held
  /-- Scopes opened so far are open still or have been closed. -/
  balanced : c.gate.entered = c.gate.openScopes + dropped
  /-- A pause is pending if one thread marks the gate, and no second one does. -/
  marked : c.marks = c.gate.pending.toNat
  /-- Whoever holds a pause does so while no scope is open. -/
  quiet : ∀ t ∈ c.threads, t.pausing = true → c.gate.openScopes = 0

namespace Orderly

variable {dropped : Nat}

theorem start (n : Nat) : (start n).Orderly 0 := by
  have hnone (f : Thread → Nat) (hf : f {} = 0) : (Crowd.start n).total f = 0 := by
    simp [total, Crowd.start, hf]
  refine ⟨(hnone _ rfl).symm, rfl, hnone _ rfl, fun t ht hpausing => rfl⟩

theorem scopes_le (h : c.Orderly dropped) (ht : c.threads[i]? = some t) :
    t.scopes ≤ c.gate.openScopes := by
  rw [h.counted]
  exact le_total Thread.scopes ht

theorem pending_of_marking (h : c.Orderly dropped) (ht : c.threads[i]? = some t)
    (hmarking : t.marking = true) : c.gate.pending = true := by
  have hle := le_total (fun t => t.marking.toNat) ht
  have hmarked : c.total (fun t => t.marking.toNat) = c.gate.pending.toNat := h.marked
  rw [hmarked, hmarking] at hle
  cases hpending : c.gate.pending with
  | true => rfl
  | false => simp [hpending] at hle

theorem wakeAll (h : c.Orderly dropped) : c.wakeAll.Orderly dropped := by
  refine ⟨?_, h.balanced, ?_, ?_⟩
  · exact h.counted.trans (total_wakeAll _ (by simp)).symm
  · exact (total_wakeAll _ (by simp)).trans h.marked
  · intro t ht hpausing
    obtain ⟨u, hu, rfl⟩ : ∃ u ∈ c.threads, u.woken = t := by simpa [Crowd.wakeAll] using ht
    exact h.quiet u hu (by simpa using hpausing)

/-- A passage of one thread keeps the crowd orderly. -/
theorem passage {g : Gate} {t' : Thread} (h : c.Orderly dropped) (ht : c.threads[i]? = some t)
    (hp : Passage c.gate t s g t') :
    ((c.atGate g).put i t').Orderly (dropped + if s = .leave then 1 else 0) := by
  have hscopes := hp.openScopes (h.scopes_le ht)
  have hentered := hp.entered (h.scopes_le ht)
  have hpending := hp.pending fun hm => h.pending_of_marking ht hm
  have hheld : ((c.atGate g).put i t').held + t.scopes = c.held + t'.scopes :=
    total_put (c := c.atGate g) Thread.scopes t' ht
  have hmarks : ((c.atGate g).put i t').marks + t.marking.toNat = c.marks + t'.marking.toNat :=
    total_put (c := c.atGate g) (fun t => t.marking.toNat) t' ht
  have hcounted := h.counted
  have hbalanced := h.balanced
  have hmarked := h.marked
  refine ⟨?_, ?_, ?_, ?_⟩
  · show g.openScopes = _
    omega
  · show g.entered = g.openScopes + _
    omega
  · show _ = g.pending.toNat
    omega
  · intro u hu hpausing
    obtain hu | rfl := List.mem_or_eq_of_mem_set hu
    · obtain ⟨j, hj⟩ := List.mem_iff_getElem?.mp hu
      have hopen := hp.closed (h.pending_of_marking hj (Thread.marking_of_pausing hpausing))
      exact Nat.le_zero.mp (h.quiet u hu hpausing ▸ hopen.1)
    · exact hp.quiet (h.pending_of_marking ht) (h.quiet t (List.mem_of_getElem? ht)) hpausing

theorem step (h : c.Orderly dropped) (hs : c.step i s = some c') :
    c'.Orderly (dropped + if s = .leave then 1 else 0) := by
  obtain ⟨t, g, t', ht, hp, rfl | rfl⟩ := step_passage hs
  · exact h.passage ht hp
  · exact (h.passage ht hp).wakeAll

theorem run (h : c.Orderly dropped) (hr : c.run steps = some c') :
    c'.Orderly (dropped + closings steps) := by
  induction steps generalizing c dropped with
  | nil =>
    obtain rfl : c = c' := by simpa [Crowd.run] using hr
    exact h
  | cons turn rest ih =>
    obtain ⟨i, s⟩ := turn
    obtain ⟨d, hd, hrest⟩ : ∃ d, c.step i s = some d ∧ d.run rest = some c' := by
      simpa [Crowd.run, Option.bind_eq_some_iff] using hr
    have := ih (h.step hd) hrest
    simpa [closings, List.countP_cons, Nat.add_assoc, Nat.add_comm] using this

/-- Two threads that mark the gate are the same. -/
theorem marking_unique {u : Thread} (h : c.Orderly dropped) (hi : c.threads[i]? = some t)
    (hj : c.threads[j]? = some u) (ht : t.marking = true) (hu : u.marking = true) : i = j := by
  by_contra hne
  have hput := total_put (fun t => t.marking.toNat) {} hi
  have hleft : (c.put i {}).threads[j]? = some u := by
    rw [← hj]
    exact List.getElem?_set_ne hne
  have hle := le_total (fun t => t.marking.toNat) hleft
  have hmarked : c.total (fun t => t.marking.toNat) = c.gate.pending.toNat := h.marked
  have hbound := c.gate.pending.toNat_le
  have hempty : (Thread.marking {}).toNat = 0 := rfl
  simp only [ht, hu, Bool.toNat_true] at hput hle
  omega

theorem pending_iff (h : c.Orderly dropped) :
    c.gate.pending = true ↔ ∃ t ∈ c.threads, t.marking = true := by
  constructor
  · intro hpending
    by_contra hnone
    have hzero : c.marks = 0 := by
      refine List.sum_eq_zero ?_
      simpa using hnone
    have hmarked := h.marked
    simp [hzero, hpending] at hmarked
  · rintro ⟨t, ht, hmarking⟩
    obtain ⟨i, hi⟩ := List.mem_iff_getElem?.mp ht
    exact h.pending_of_marking hi hmarking

end Orderly

/-! ### While a pause is marked -/

/-- From `c` to `c'` thread `i` goes on marking the gate, and nobody opens a scope. -/
structure Barred (i : Nat) (c c' : Crowd) : Prop where
  /-- The thread marks the gate. -/
  marks : ∃ t, c'.threads[i]? = some t ∧ t.marking = true
  /-- The gate has let nobody in. -/
  entered : c'.gate.entered = c.gate.entered
  /-- Every thread has at most the scopes that it had. -/
  scopes : ∀ (j : Nat) (u' : Thread), c'.threads[j]? = some u' →
    ∃ u, c.threads[j]? = some u ∧ u'.scopes ≤ u.scopes

namespace Barred

theorem refl (ht : c.threads[i]? = some t) (hmarking : t.marking = true) : Barred i c c :=
  ⟨⟨t, ht, hmarking⟩, rfl, fun _ u hu => ⟨u, hu, Nat.le_refl _⟩⟩

theorem trans (h : Barred i c c') (h' : Barred i c' d) : Barred i c d := by
  refine ⟨h'.marks, h'.entered.trans h.entered, ?_⟩
  intro j w hw
  obtain ⟨v, hv, hwv⟩ := h'.scopes j w hw
  obtain ⟨u, hu, hvu⟩ := h.scopes j v hv
  exact ⟨u, hu, hwv.trans hvu⟩

theorem wakeAll (h : Barred i c c') : Barred i c c'.wakeAll := by
  refine ⟨?_, h.entered, ?_⟩
  · obtain ⟨t, ht, hmarking⟩ := h.marks
    exact ⟨t.woken, by simp [Crowd.wakeAll, ht], by simpa using hmarking⟩
  · intro j u' hu'
    obtain ⟨v, hv, rfl⟩ : ∃ v, c'.threads[j]? = some v ∧ v.woken = u' := by
      simpa [Crowd.wakeAll] using hu'
    simpa using h.scopes j v hv

end Barred

/-- As long as a thread marks the gate no step opens a scope, whoever takes it; and the thread goes
on marking unless the step ends its pause. -/
theorem Orderly.step_barred {dropped : Nat} (h : c.Orderly dropped) (ht : c.threads[i]? = some t)
    (hmarking : t.marking = true) (hs : c.step j s = some c') (hne : (j, s) ≠ (i, .resume)) :
    Barred i c c' := by
  obtain ⟨u, g, u', hu, hp, hc'⟩ := step_passage hs
  have hpending := h.pending_of_marking ht hmarking
  have hclosed := hp.closed hpending
  have hbarred : Barred i c ((c.atGate g).put j u') := by
    refine ⟨?_, hclosed.2.1, ?_⟩
    · by_cases hij : j = i
      · subst hij
        obtain rfl : t = u := by simpa [ht] using hu
        refine ⟨u', List.getElem?_set_self (List.getElem?_eq_some_iff.mp ht).1, ?_⟩
        exact hp.marking_keeps (by simpa using hne) hmarking hpending
      · exact ⟨t, (List.getElem?_set_ne hij).trans ht, hmarking⟩
    · intro k v hv
      by_cases hjk : j = k
      · subst hjk
        obtain rfl : u' = v := by
          have hself := List.getElem?_set_self (a := u') (List.getElem?_eq_some_iff.mp hu).1
          exact Option.some.inj (hself.symm.trans hv)
        exact ⟨u, hu, hclosed.2.2⟩
      · exact ⟨v, (List.getElem?_set_ne hjk).symm.trans hv, Nat.le_refl _⟩
  obtain rfl | rfl := hc'
  · exact hbarred
  · exact hbarred.wakeAll

/-- So does a run in which the thread does not end its pause. -/
theorem Orderly.run_barred {dropped : Nat} (h : c.Orderly dropped) (ht : c.threads[i]? = some t)
    (hmarking : t.marking = true) (hne : (i, .resume) ∉ steps) (hr : c.run steps = some c') :
    Barred i c c' := by
  induction steps generalizing c t dropped with
  | nil =>
    obtain rfl : c = c' := by simpa [Crowd.run] using hr
    exact .refl ht hmarking
  | cons turn rest ih =>
    obtain ⟨j, s⟩ := turn
    obtain ⟨d, hd, hrest⟩ : ∃ d, c.step j s = some d ∧ d.run rest = some c' := by
      simpa [Crowd.run, Option.bind_eq_some_iff] using hr
    obtain ⟨hfirst, hlater⟩ : (j, s) ≠ (i, .resume) ∧ (i, .resume) ∉ rest := by
      simpa [eq_comm] using hne
    have hbarred := h.step_barred ht hmarking hd hfirst
    obtain ⟨t', ht', hmarking'⟩ := hbarred.marks
    exact hbarred.trans (ih (h.step hd) ht' hmarking' hlater hrest)

/-- A thread begins to mark the gate in a step of its own that makes the pause pending. -/
theorem Orderly.step_begins {dropped : Nat} {t' : Thread} (h : c.Orderly dropped)
    (ht : c.threads[i]? = some t) (hfree : t.marking = false) (hs : c.step j s = some c')
    (ht' : c'.threads[i]? = some t') (hmarking : t'.marking = true) :
    j = i ∧ c.gate.pending = false ∧ c'.gate.pending = true := by
  have hafter := h.step hs
  have hown : j = i := by
    by_contra hji
    obtain ⟨u, g, u', hu, hp, rfl | rfl⟩ := step_passage hs
    · have hkept : c.threads[i]? = some t' := (List.getElem?_set_ne hji).symm.trans ht'
      simp_all
    · have hkept : (c.threads[i]?).map Thread.woken = some t' := by
        simpa [Crowd.wakeAll, put, atGate, List.getElem?_set_ne hji] using ht'
      obtain rfl : t.woken = t' := by simpa [ht] using hkept
      simp [hfree] at hmarking
  refine ⟨hown, ?_, hafter.pending_of_marking ht' hmarking⟩
  by_contra hpending
  obtain ⟨u, hu, humarking⟩ := h.pending_iff.mp (by simpa using hpending)
  obtain ⟨k, hk⟩ := List.mem_iff_getElem?.mp hu
  have hki : k ≠ i := by
    rintro rfl
    obtain rfl : t = u := by simpa [ht] using hk
    simp [hfree] at humarking
  obtain ⟨v, hv, hvmarking⟩ := (h.step_barred hk humarking hs (by grind)).marks
  exact hki (hafter.marking_unique hv ht' hvmarking hmarking)

/-! ### Mutual exclusion -/

/-- How scopes and pauses keep out of each other's way in a crowd whose threads have closed
`dropped` scopes. -/
structure Exclusive (c : Crowd) (dropped : Nat) : Prop where
  /-- The gate counts exactly the scopes that threads hold. -/
  counted : c.gate.openScopes = c.held
  /-- Those are the scopes opened so far without the ones closed. -/
  balanced : c.gate.entered = c.gate.openScopes + dropped
  /-- Whoever closes a scope finds one open. -/
  leaves : ∀ i c', c.step i .leave = some c' → c.gate.openScopes = c'.gate.openScopes + 1
  /-- At most one thread marks the gate. -/
  alone : ∀ (i j : Nat) (t u : Thread), c.threads[i]? = some t → c.threads[j]? = some u →
    t.marking = true → u.marking = true → i = j
  /-- A pause is pending exactly if one does. -/
  pending : c.gate.pending = true ↔ ∃ t ∈ c.threads, t.marking = true
  /-- A thread begins to mark the gate by making a pause pending itself. -/
  begins : ∀ (i j : Nat) (s : Step) (t t' : Thread) (c' : Crowd), c.step j s = some c' →
    c.threads[i]? = some t → t.marking = false → c'.threads[i]? = some t' → t'.marking = true →
      j = i ∧ c.gate.pending = false ∧ c'.gate.pending = true
  /-- From there on it marks the gate and nobody opens a scope, until it ends its pause. -/
  barred : ∀ (i : Nat) (t : Thread), c.threads[i]? = some t → t.marking = true →
    ∀ steps c', (i, .resume) ∉ steps → c.run steps = some c' → Barred i c c'
  /-- While a pause is held no scope is open. -/
  quiet : ∀ t ∈ c.threads, t.pausing = true → c.gate.openScopes = 0

/-- Whatever any number of threads do at a gate, in whatever order, scopes and pauses exclude each
other. -/
theorem run_exclusive (n : Nat) (h : (start n).run steps = some c) :
    c.Exclusive (closings steps) := by
  have horderly : c.Orderly (closings steps) := by
    simpa using (Orderly.start n).run h
  refine
    { counted := horderly.counted
      balanced := horderly.balanced
      leaves := ?_
      alone := fun i j t u hi hj => horderly.marking_unique hi hj
      pending := horderly.pending_iff
      begins := fun i j s t t' c' hs ht hfree => horderly.step_begins ht hfree hs
      barred := fun i t ht hmarking steps c' => horderly.run_barred ht hmarking
      quiet := horderly.quiet }
  intro i c' hs
  obtain ⟨t, g, t', ht, hp, hc'⟩ := step_passage hs
  have hgate : c'.gate = g := by obtain rfl | rfl := hc' <;> rfl
  obtain ⟨hholds, hleft⟩ := hp.of_leave
  have hopen := hholds.trans_le (horderly.scopes_le ht)
  rw [hgate, hleft]
  exact (Nat.sub_add_cancel hopen).symm

/-- Three threads: the second asks for a pause while the first holds a scope, the gate is shut down
before that is closed, and the third, which has slept meanwhile, is turned away. -/
def drainedLate : List (Nat × Step) :=
  [(0, .enter none), (1, .pause), (2, .enter (some probeBound)), (2, .stir), (2, .proceed),
    (0, .shutdown), (1, .proceed), (2, .proceed), (0, .leave), (1, .proceed)]

/-- How they end. -/
def drainedLateEnd : Crowd where
  gate := { pending := true, shutDown := true, entered := 1, pauses := 1 }
  threads :=
    [{ answer? := some (.ok ()) }, { pausing := true, answer? := some (.ok ()) },
      { answer? := some (.error .shutDown) }]

theorem run_exclusive_drainedLate :
    (start 3).run drainedLate = some drainedLateEnd ∧
      drainedLateEnd.Exclusive (closings drainedLate) :=
  ⟨rfl, run_exclusive 3 rfl⟩

end Crowd

end Gate

end RuntimeTypes
