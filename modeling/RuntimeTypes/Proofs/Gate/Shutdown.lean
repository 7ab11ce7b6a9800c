/-
A gate that has been shut down stays so, and lets nobody in any more.

What goes on after the shutdown is winding up.  Whoever tries to enter or asks for a pause
is turned away, whether the call is new or has waited, and whatever has become of its bound.
One thread at most can still get a pause, the one that was waiting for the open scopes
when the gate was shut down; and scopes are closed, each by the thread that holds it.

`Section.windsUp` says so of one section.  What adds up along a run is in `WindsUp`: the
pauses granted and the threads that wait for one keep their sum, and so do the scopes of
each thread and those that it has closed.
-/
import RuntimeTypes.Proofs.Gate.Sleepers

namespace RuntimeTypes

namespace Gate

variable {g g' : Gate} {t t' : Thread} {s : Step}

/-- A gate that has been shut down turns everybody away who does not wait for the open scopes. -/
theorem attempt_of_shutDown (hshut : g.shutDown = true) {wait : Wait} (hwait : wait ≠ .drain)
    (waited expired : Bool) : g.attempt wait waited expired = .refused .shutDown := by
  cases wait with
  | entry bound => simp [attempt, tryEnter, hshut]
  | turn => simp [attempt, tryPause, hshut]
  | drain => exact absurd rfl hwait

/-- What a section leaves of a gate that has been shut down, and of the thread. -/
structure Section.WindsUp (g : Gate) (t : Thread) (s : Step) (g' : Gate) (t' : Thread) : Prop where
  shutDown : g'.shutDown = true
  entered : g'.entered = g.entered
  /-- A pause is granted to a thread that has waited for the open scopes, which then waits no more. -/
  pauses : g'.pauses + t'.stage.draining.toNat = g.pauses + t.stage.draining.toNat
  /-- No thread begins to wait for the open scopes. -/
  draining : t'.stage.draining = true → t.stage.draining = true
  /-- No scope is opened. -/
  scopes : t.scopes = t'.scopes + if s = .leave then 1 else 0

theorem Section.windsUp {wakes : Bool} (h : Section g t s g' t' wakes) (hshut : g.shutDown = true) :
    Section.WindsUp g t s g' t' := by
  cases h with
  | tries wait waited expired leaves draining =>
    by_cases hwait : wait = .drain
    · subst hwait
      have hdraining : t.stage.draining = true := by simpa using draining
      obtain ⟨-, hv⟩ | hv := g.tryDrain_cases
      · rw [attempt, hv]
        exact ⟨hshut, rfl, by rw [hdraining]; rfl, fun _ => hdraining,
          by simp [leaves, Verdict.thread, Thread.gain]⟩
      · rw [attempt, hv]
        exact ⟨hshut, rfl, by rw [hdraining]; rfl, fun _ => hdraining,
          by simp [leaves, Verdict.thread]⟩
    · have hidle : t.stage.draining = false := by simpa [hwait] using draining
      rw [attempt_of_shutDown hshut hwait]
      exact ⟨hshut, rfl, by rw [hidle]; rfl, fun h => absurd h Bool.false_ne_true,
        by simp [leaves, Verdict.thread, Thread.turnedAway]⟩
  | closes idle holds => exact ⟨hshut, rfl, rfl, id, (Nat.sub_add_cancel holds).symm⟩
  | resumes => exact ⟨hshut, rfl, rfl, id, by simp⟩
  | shuts => exact ⟨rfl, rfl, rfl, id, by simp⟩
  | wakes wait expired leaves asleep =>
    have hsame : (Stage.awake wait expired).draining = t.stage.draining := by
      rw [asleep]
      cases wait <;> rfl
    exact ⟨hshut, rfl, by rw [hsame], fun h => hsame ▸ h, by simp [leaves]⟩

namespace Crowd

variable {c c' d : Crowd} {i : Nat} {steps later : List (Nat × Step)}

/-- How many threads wait for the open scopes to be closed. -/
def drainers (c : Crowd) : Nat := c.total fun t => t.stage.draining.toNat

theorem drainers_moved (ht : c.threads[i]? = some t) (g : Gate) (t' : Thread) (wakes : Bool) :
    (c.moved i g t' wakes).drainers + t.stage.draining.toNat =
      c.drainers + t'.stage.draining.toNat := by
  have hput := total_put (c := c.atGate g) (fun t => t.stage.draining.toNat) t' ht
  unfold moved
  cases wakes with
  | false => exact hput
  | true =>
    have hwoken : ((c.atGate g).put i t').wakeAll.drainers = ((c.atGate g).put i t').drainers :=
      total_wakeAll _ (by simp)
    exact (congrArg (· + _) hwoken).trans hput

/-- What the steps from `c` to `c'` have done if the gate had been shut down before them. -/
structure WindsUp (c : Crowd) (steps : List (Nat × Step)) (c' : Crowd) : Prop where
  shutDown : c'.gate.shutDown = true
  entered : c'.gate.entered = c.gate.entered
  pauses : c'.gate.pauses + c'.drainers = c.gate.pauses + c.drainers
  draining : ∀ (i : Nat) (t' : Thread), c'.threads[i]? = some t' → t'.stage.draining = true →
    ∃ t, c.threads[i]? = some t ∧ t.stage.draining = true
  scopes : ∀ (i : Nat) (t' : Thread), c'.threads[i]? = some t' →
    ∃ t, c.threads[i]? = some t ∧ t.scopes = t'.scopes + steps.count (i, .leave)

namespace WindsUp

theorem refl (hshut : c.gate.shutDown = true) : WindsUp c [] c :=
  ⟨hshut, rfl, rfl, fun _ t ht hdraining => ⟨t, ht, hdraining⟩, fun _ t ht => ⟨t, ht, rfl⟩⟩

theorem trans (h : WindsUp c steps c') (h' : WindsUp c' later d) : WindsUp c (steps ++ later) d := by
  refine ⟨h'.shutDown, h'.entered.trans h.entered, h'.pauses.trans h.pauses, ?_, ?_⟩
  · intro i v hv hdraining
    obtain ⟨u, hu, hdraining'⟩ := h'.draining i v hv hdraining
    exact h.draining i u hu hdraining'
  · intro i v hv
    obtain ⟨u, hu, huv⟩ := h'.scopes i v hv
    obtain ⟨t, ht, htu⟩ := h.scopes i u hu
    exact ⟨t, ht, by rw [List.count_append]; omega⟩

theorem step (hshut : c.gate.shutDown = true) (hs : c.step i s = some c') :
    WindsUp c [(i, s)] c' := by
  obtain ⟨t, g, t', wakes, ht, hsection, rfl⟩ := step_section hs
  have hwinds := hsection.windsUp hshut
  have hdrainers := drainers_moved ht g t' wakes
  have hpauses := hwinds.pauses
  -- Each thread is the one that moves, or has at most been woken.
  have hthreads (j : Nat) (u' : Thread) (hu' : (c.moved i g t' wakes).threads[j]? = some u') :
      ∃ u, c.threads[j]? = some u ∧ (u'.stage.draining = true → u.stage.draining = true) ∧
        u.scopes = u'.scopes + [(i, s)].count (j, .leave) := by
    by_cases hij : i = j
    · subst hij
      obtain rfl := Option.some.inj ((moved_self ht g t' wakes).symm.trans hu')
      refine ⟨t, ht, ?_, ?_⟩
      · cases wakes <;> simpa using hwinds.draining
      · rw [hwinds.scopes]
        cases wakes <;> simp [List.count_singleton]
    · obtain ⟨u, hu, rfl⟩ := moved_other hij hu'
      refine ⟨u, hu, ?_, ?_⟩
      · cases wakes <;> simp
      · cases wakes <;> simp [hij]
  refine ⟨by simpa using hwinds.shutDown, by simpa using hwinds.entered, ?_, ?_, ?_⟩
  · rw [gate_moved]
    omega
  · intro j u' hu' hdraining
    obtain ⟨u, hu, hkept, -⟩ := hthreads j u' hu'
    exact ⟨u, hu, hkept hdraining⟩
  · intro j u' hu'
    obtain ⟨u, hu, -, hscopes⟩ := hthreads j u' hu'
    exact ⟨u, hu, hscopes⟩

theorem run (hshut : c.gate.shutDown = true) (hr : c.run steps = some c') : WindsUp c steps c' := by
  induction steps generalizing c with
  | nil =>
    obtain rfl : c = c' := by simpa [Crowd.run] using hr
    exact .refl hshut
  | cons turn rest ih =>
    obtain ⟨i, s⟩ := turn
    obtain ⟨d, hd, hrest⟩ := run_cons_eq_some.mp hr
    have hfirst := step hshut hd
    exact hfirst.trans (ih hfirst.shutDown hrest)

end WindsUp

/-! ### Turned away -/

/-- At a gate that has been shut down a call is turned away at once. -/
theorem call_of_shutDown (hshut : c.gate.shutDown = true) (ht : c.threads[i]? = some t)
    (hidle : t.stage = .idle) :
    (∀ bound, c.step i (.enter bound) = some (c.put i (t.turnedAway .shutDown))) ∧
      c.step i .pause = some (c.put i (t.turnedAway .shutDown)) := by
  constructor
  · intro bound
    simp [Crowd.step, ht, hidle, attempt, attempt_of_shutDown hshut]
  · simp [Crowd.step, ht, hidle, attempt, attempt_of_shutDown hshut]

/-- So is one that has waited, if not for the open scopes. -/
theorem proceed_of_shutDown (hshut : c.gate.shutDown = true) (ht : c.threads[i]? = some t)
    {wait : Wait} {expired : Bool} (hawake : t.stage = .awake wait expired) (hwait : wait ≠ .drain) :
    c.step i .proceed = some (c.put i (t.turnedAway .shutDown)) := by
  simp [Crowd.step, ht, hawake, attempt, attempt_of_shutDown hshut hwait]

theorem Rested.asleep_of_shutDown (h : c.Rested) (hshut : c.gate.shutDown = true)
    (ht : c.threads[i]? = some t) {wait : Wait} (hasleep : t.stage = .asleep wait) :
    wait = .drain := by
  have hreason := h t (List.mem_of_getElem? ht) wait hasleep
  cases wait with
  | drain => rfl
  | entry | turn => exact absurd hshut (by simp [hreason.2])

/-! ### The one pause that is left -/

theorem Orderly.drainers_le_one {dropped : Nat} (h : c.Orderly dropped) : c.drainers ≤ 1 := by
  have hle : c.drainers ≤ c.marks := by
    refine List.sum_le_sum fun t ht => ?_
    cases hdraining : t.stage.draining with
    | false => exact Nat.zero_le _
    | true => simp [Thread.marking, hdraining]
  exact (hle.trans_eq h.marked).trans (Bool.toNat_le _)

/-- A step that grants a pause is of a thread that waits for the open scopes. -/
theorem draining_of_step (hshut : c.gate.shutDown = true) (hs : c.step i s = some d)
    (hpauses : d.gate.pauses ≠ c.gate.pauses) :
    ∃ t, c.threads[i]? = some t ∧ t.stage.draining = true := by
  obtain ⟨t, g, t', wakes, ht, hsection, rfl⟩ := step_section hs
  have hwinds := hsection.windsUp hshut
  refine ⟨t, ht, ?_⟩
  by_contra hidle
  have hidle' : t'.stage.draining = false := by
    simpa using fun h => hidle (hwinds.draining h)
  have hsum := hwinds.pauses
  simp only [Bool.not_eq_true] at hidle
  rw [hidle, hidle'] at hsum
  exact hpauses (by simpa using hsum)

/-! ### Shutting down for good -/

/-- What is left to do at `c'`, to which `steps` lead from a crowd `c` whose gate has been shut
down. -/
structure Final (c : Crowd) (steps : List (Nat × Step)) (c' : Crowd) : Prop where
  /-- The gate is not opened again. -/
  shutDown : c'.gate.shutDown = true
  /-- It has let nobody in. -/
  entered : c'.gate.entered = c.gate.entered
  /-- Whoever calls is turned away. -/
  calls : ∀ (i : Nat) (t : Thread), c'.threads[i]? = some t → t.stage = .idle →
    (∀ bound, c'.step i (.enter bound) = some (c'.put i (t.turnedAway .shutDown))) ∧
      c'.step i .pause = some (c'.put i (t.turnedAway .shutDown))
  /-- Nobody sleeps who waits to enter or for its turn to pause. -/
  asleep : ∀ (i : Nat) (t : Thread) (wait : Wait), c'.threads[i]? = some t →
    t.stage = .asleep wait → wait = .drain
  /-- Whoever has waited for that is turned away, also if its bound has passed. -/
  waited : ∀ (i : Nat) (t : Thread) (wait : Wait) (expired : Bool), c'.threads[i]? = some t →
    t.stage = .awake wait expired → wait ≠ .drain →
      c'.step i .proceed = some (c'.put i (t.turnedAway .shutDown))
  /-- One pause at most has been granted. -/
  pauses : c'.gate.pauses ≤ c.gate.pauses + 1
  /-- It is granted to the thread that had made it pending and was waiting for the open scopes. -/
  drained : ∀ (i : Nat) (s : Step) (d : Crowd), c'.step i s = some d →
    d.gate.pauses ≠ c'.gate.pauses →
      c.gate.pending = true ∧ ∃ t, c.threads[i]? = some t ∧ t.stage.draining = true
  /-- Every thread has the scopes that it had, but for those that it has closed itself. -/
  scopes : ∀ (i : Nat) (t' : Thread), c'.threads[i]? = some t' →
    ∃ t, c.threads[i]? = some t ∧ t.scopes = t'.scopes + steps.count (i, .leave)
  /-- No other scope has been taken off the gate's count. -/
  openScopes : c.gate.openScopes = c'.gate.openScopes + closings steps

/-- Whatever any number of threads do at a gate that has been shut down, in whatever order, it stays
shut down. -/
theorem run_final (n : Nat) {before : List (Nat × Step)} (h : (start n).run before = some c)
    (hshut : c.gate.shutDown = true) (hr : c.run steps = some c') : Final c steps c' := by
  have horderly := (Orderly.start n).run h
  have hrested := ((rested_start n).run (.start n) h).run horderly hr
  have hwinds := WindsUp.run hshut hr
  have hsum := hwinds.pauses
  have hone := horderly.drainers_le_one
  have hbefore := horderly.balanced
  have hafter := (horderly.run hr).balanced
  have hentered := hwinds.entered
  refine
    { shutDown := hwinds.shutDown
      entered := hentered
      calls := fun i t ht hidle => call_of_shutDown hwinds.shutDown ht hidle
      asleep := fun i t wait ht hasleep => hrested.asleep_of_shutDown hwinds.shutDown ht hasleep
      waited := fun i t wait expired ht hawake hwait =>
        proceed_of_shutDown hwinds.shutDown ht hawake hwait
      pauses := by omega
      drained := ?_
      scopes := hwinds.scopes
      openScopes := by omega }
  intro i s d hs hpauses
  obtain ⟨u, hu, hdraining⟩ := draining_of_step hwinds.shutDown hs hpauses
  obtain ⟨t, ht, hdraining'⟩ := hwinds.draining i u hu hdraining
  exact ⟨horderly.pending_of_marking ht (by simp [Thread.marking, hdraining']), t, ht, hdraining'⟩

/-- Four threads: the first holds a scope and the second waits for it to be closed.  The bound of the
third passes while it waits for the second, as the fourth does.  Then the gate is shut down. -/
def shutWhileWaiting : List (Nat × Step) :=
  [(0, .enter none), (1, .pause), (2, .enter (some probeBound)), (3, .pause), (2, .expire),
    (0, .shutdown)]

/-- How they stand then. -/
def shutWaiting : Crowd where
  gate := { openScopes := 1, pending := true, shutDown := true, entered := 1 }
  threads :=
    [{ scopes := 1, answer? := some (.ok ()) }, { stage := .awake .drain false },
      { stage := .awake (.entry (some probeBound)) true }, { stage := .awake .turn false }]

/-- All go on, and whoever is turned away or has let go calls once more. -/
def windDown : List (Nat × Step) :=
  [(2, .proceed), (3, .proceed), (1, .proceed), (2, .pause), (0, .leave), (3, .shutdown),
    (1, .proceed), (1, .resume), (1, .pause), (0, .enter none)]

/-- How they end. -/
def woundDown : Crowd where
  gate := { shutDown := true, entered := 1, pauses := 1 }
  threads := List.replicate 4 { answer? := some (.error .shutDown) }

theorem run_final_windDown :
    (start 4).run shutWhileWaiting = some shutWaiting ∧ shutWaiting.gate.shutDown = true ∧
      shutWaiting.run windDown = some woundDown ∧ Final shutWaiting windDown woundDown := by
  have hbefore : (start 4).run shutWhileWaiting = some shutWaiting := rfl
  have hafter : shutWaiting.run windDown = some woundDown := rfl
  exact ⟨hbefore, rfl, hafter, run_final 4 hbefore rfl hafter⟩

end Crowd

end Gate

end RuntimeTypes
