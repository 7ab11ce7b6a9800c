/-
What a step at a gate is made of.

`Section` lists what a thread can do to the gate and to itself, and whether that wakes the
sleepers: try for what it waits for, close a scope, end its pause, shut the gate down, or
wake up.  `step_section` says that a step of a crowd is one of these and touches nobody
else, so what a step keeps is shown of the gate and of one thread at a time.
-/
import RuntimeTypes.Proofs.Gate.Exclusion

namespace RuntimeTypes

namespace Gate

/-- The gate after a section that found it in state `g`. -/
def Verdict.gate (g : Gate) : Verdict → Gate
  | .granted next => next
  | .refused _ => g
  | .sleeps _ next => next

/-- The thread after the section, if it was in state `t` and tried for `wait`. -/
def Verdict.thread (t : Thread) (wait : Wait) : Verdict → Thread
  | .granted _ => t.gain wait
  | .refused e => t.turnedAway e
  | .sleeps next _ => { t with stage := .asleep next }

/-- A step of a thread makes this of the gate and of the thread, and wakes the sleepers or not. -/
inductive Section (g : Gate) (t : Thread) : Step → Gate → Thread → Bool → Prop
  /-- The thread tries for what it waits for. -/
  | tries {s : Step} (wait : Wait) (waited expired : Bool) (leaves : s ≠ .leave)
      (draining : t.stage.draining = decide (wait = .drain)) :
      Section g t s ((g.attempt wait waited expired).gate g)
        ((g.attempt wait waited expired).thread t wait) false
  /-- It closes a scope. -/
  | closes (idle : t.stage = .idle) (holds : 0 < t.scopes) :
      Section g t .leave g.leave { t with scopes := t.scopes - 1 } g.leaveWakes
  /-- It ends its pause. -/
  | resumes (idle : t.stage = .idle) (pausing : t.pausing = true) :
      Section g t .resume g.resume { t with pausing := false } true
  /-- It shuts the gate down. -/
  | shuts (idle : t.stage = .idle) : Section g t .shutdown g.shutdown t true
  /-- It wakes up. -/
  | wakes {s : Step} (wait : Wait) (expired : Bool) (leaves : s ≠ .leave)
      (asleep : t.stage = .asleep wait) :
      Section g t s g { t with stage := .awake wait expired } false

namespace Crowd

variable {c c' : Crowd} {i : Nat} {s : Step} {t : Thread}

/-- The crowd after thread `i` has made this of the gate and of itself. -/
def moved (c : Crowd) (i : Nat) (g : Gate) (t : Thread) (wakes : Bool) : Crowd :=
  if wakes then ((c.atGate g).put i t).wakeAll else (c.atGate g).put i t

@[simp]
theorem gate_moved (g : Gate) (t : Thread) (wakes : Bool) : (c.moved i g t wakes).gate = g := by
  unfold moved
  split <;> rfl

theorem moved_self (ht : c.threads[i]? = some t) (g : Gate) (t' : Thread) (wakes : Bool) :
    (c.moved i g t' wakes).threads[i]? = some (if wakes then t'.woken else t') := by
  have hput : ((c.atGate g).put i t').threads[i]? = some t' :=
    List.getElem?_set_self (List.getElem?_eq_some_iff.mp ht).1
  unfold moved
  cases wakes with
  | true => simp [wakeAll, hput]
  | false => exact hput

/-- Whoever else is there has been there before, and at most has been woken. -/
theorem moved_other {j : Nat} {u' : Thread} {g : Gate} {t' : Thread} {wakes : Bool} (hij : i ≠ j)
    (hu : (c.moved i g t' wakes).threads[j]? = some u') :
    ∃ u, c.threads[j]? = some u ∧ u' = if wakes then u.woken else u := by
  have hput : ((c.atGate g).put i t').threads[j]? = c.threads[j]? := List.getElem?_set_ne hij
  unfold moved at hu
  cases wakes with
  | true =>
    obtain ⟨u, hj, rfl⟩ : ∃ u, c.threads[j]? = some u ∧ u.woken = u' := by
      simpa [wakeAll, hput] using hu
    exact ⟨u, hj, rfl⟩
  | false => exact ⟨u', hput ▸ hu, rfl⟩

theorem attempt_eq (wait : Wait) (waited expired : Bool) :
    c.attempt i t wait waited expired = c.moved i ((c.gate.attempt wait waited expired).gate c.gate)
      ((c.gate.attempt wait waited expired).thread t wait) false := by
  unfold attempt
  cases c.gate.attempt wait waited expired <;> rfl

/-- **A step is a section of the thread that takes it**, and moves nobody else. -/
theorem step_section (h : c.step i s = some c') :
    ∃ t g t' wakes, c.threads[i]? = some t ∧ Section c.gate t s g t' wakes ∧
      c' = c.moved i g t' wakes := by
  unfold step at h
  cases ht : c.threads[i]? with
  | none => simp [ht] at h
  | some t =>
    simp only [ht] at h
    have tries (wait : Wait) (waited expired : Bool) (leaves : s ≠ .leave)
        (draining : t.stage.draining = decide (wait = .drain))
        (h : some (c.attempt i t wait waited expired) = some c') :
        ∃ t₀ g t' wakes, some t = some t₀ ∧ Section c.gate t₀ s g t' wakes ∧
          c' = c.moved i g t' wakes :=
      ⟨t, _, _, _, rfl, .tries wait waited expired leaves draining, by
        rw [← attempt_eq]; exact (Option.some.inj h).symm⟩
    split at h
    case h_1 bound idle => exact tries _ _ _ (by simp) (by rw [idle]; rfl) h
    case h_2 idle =>
      split at h
      · rename_i holds
        refine ⟨t, _, _, _, rfl, .closes idle holds, ?_⟩
        simpa [leave, moved] using h.symm
      · simp at h
    case h_3 idle => exact tries _ _ _ (by simp) (by rw [idle]; rfl) h
    case h_4 idle =>
      split at h
      · rename_i pausing
        exact ⟨t, _, _, _, rfl, .resumes idle pausing, by simpa [moved] using h.symm⟩
      · simp at h
    case h_5 idle =>
      refine ⟨t, _, _, _, rfl, .shuts idle, ?_⟩
      have hput : (c.atGate c.gate.shutdown).put i t = c.atGate c.gate.shutdown := put_self ht
      simpa [moved, hput] using h.symm
    case h_6 d asleep =>
      exact ⟨t, _, _, _, rfl, .wakes (.entry (some d)) true (by simp) asleep, by
        simpa [moved, atGate] using h.symm⟩
    case h_7 wait asleep =>
      exact ⟨t, _, _, _, rfl, .wakes wait false (by simp) asleep, by
        simpa [moved, atGate] using h.symm⟩
    case h_8 wait expired awake =>
      exact tries _ _ _ (by simp) (by rw [awake]; cases wait <;> rfl) h
    case h_9 => simp at h

/-- A run goes on from where its first step leads. -/
theorem run_cons_eq_some {rest : List (Nat × Step)} :
    c.run ((i, s) :: rest) = some c' ↔ ∃ d, c.step i s = some d ∧ d.run rest = some c' :=
  Option.bind_eq_some_iff

end Crowd

end Gate

end RuntimeTypes
