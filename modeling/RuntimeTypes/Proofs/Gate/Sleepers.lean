/-
Nobody sleeps at a gate without a reason.

`Gate.withholds` says what of the gate keeps a thread asleep.  A section that wakes nobody
takes no such reason away, and a thread goes to sleep only for one; the end of a pause, the
last scope that a pause waits for and the shutdown wake everybody.  So every sleeper has its
reason after every run, and a gate at which nothing is held and nobody is awake has no
sleepers.

The only reason that could get lost is that of a thread that waits for the open scopes: the
last scope wakes the sleepers if a pause is pending, and it is, as the thread marks the gate.
-/
import RuntimeTypes.Proofs.Gate.Sections

namespace RuntimeTypes

namespace Gate

/-- The gate is in the way of what a thread waits for. -/
def withholds (g : Gate) : Wait → Prop
  | .entry _ => g.pending = true ∧ g.shutDown = false
  | .turn => g.pending = true ∧ g.shutDown = false
  | .drain => 0 < g.openScopes

/-! ### Sections -/

variable {g g' : Gate} {t t' : Thread} {s : Step}

theorem tryDrain_withholds {g' : Gate} {wait : Wait} (h : g.tryDrain = .sleeps wait g') :
    g'.withholds wait := by
  unfold tryDrain at h
  split at h
  · cases h
  · rename_i hopen
    cases h
    exact Nat.pos_of_ne_zero hopen

theorem attempt_withholds {wait next : Wait} {waited expired : Bool}
    (h : g.attempt wait waited expired = .sleeps next g') : g'.withholds next := by
  cases wait with
  | entry bound =>
    simp only [attempt, tryEnter] at h
    split at h
    · cases h
    rename_i hshut
    split at h
    · rename_i hpending
      split at h
      · cases h
      · cases h
        exact ⟨hpending, by simpa using hshut⟩
    · cases h
  | turn =>
    simp only [attempt, tryPause] at h
    split at h
    · cases h
    rename_i hshut
    split at h
    · rename_i hpending
      cases h
      exact ⟨hpending, by simpa using hshut⟩
    · exact tryDrain_withholds h
  | drain => exact tryDrain_withholds h

theorem tryDrain_keeps (g : Gate) (wait : Wait) (h : g.withholds wait) :
    (g.tryDrain.gate g).withholds wait := by
  obtain ⟨-, hd⟩ | hd := g.tryDrain_cases <;> rw [hd] <;> cases wait <;> exact h

/-- What a thread tries for is no reason of another one's. -/
theorem attempt_keeps (g : Gate) (wait other : Wait) (waited expired : Bool)
    (h : g.withholds other) : ((g.attempt wait waited expired).gate g).withholds other := by
  cases wait with
  | entry bound =>
    obtain ⟨e, hd⟩ | hd | ⟨-, contended, hd⟩ := g.tryEnter_cases bound waited expired
    · rw [attempt, hd]
      exact h
    · rw [attempt, hd]
      exact h
    · rw [attempt, hd]
      cases other with
      | drain => exact Nat.lt_succ_of_lt h
      | entry | turn => exact h
  | turn =>
    obtain ⟨e, hd⟩ | hd | ⟨hfree, hd⟩ := g.tryPause_cases
    · rw [attempt, hd]
      exact h
    · rw [attempt, hd]
      exact h
    · rw [attempt, hd]
      have hmarked : withholds { g with pending := true } other := by
        cases other with
        | drain => exact h
        | entry | turn => exact ⟨rfl, h.2⟩
      have hkept := tryDrain_keeps _ other hmarked
      cases hv : tryDrain { g with pending := true } with
      | refused e => exact h
      | granted next => rw [hv] at hkept; exact hkept
      | sleeps wait next => rw [hv] at hkept; exact hkept
  | drain => exact tryDrain_keeps g other h

/-- Closing a scope without waking the sleepers is no reason of one of them. -/
theorem leave_keeps (hquiet : g.leaveWakes = false) {wait : Wait}
    (hdrain : wait = .drain → g.pending = true) (h : g.withholds wait) : g.leave.withholds wait := by
  cases wait with
  | drain =>
    refine Nat.pos_of_ne_zero fun hclosed => ?_
    simp [leaveWakes, hclosed, hdrain rfl] at hquiet
  | entry | turn => exact h

namespace Section

theorem keeps (h : Section g t s g' t' false) {wait : Wait}
    (hdrain : wait = .drain → g.pending = true) (hreason : g.withholds wait) :
    g'.withholds wait := by
  generalize hw : false = wakes at h
  cases h with
  | tries other waited expired => exact g.attempt_keeps other wait waited expired hreason
  | closes => exact leave_keeps hw.symm hdrain hreason
  | wakes => exact hreason
  | resumes | shuts => cases hw

theorem sleeps {wakes : Bool} (h : Section g t s g' t' wakes) {wait : Wait}
    (hasleep : t'.stage = .asleep wait) : g'.withholds wait := by
  cases h with
  | tries other waited expired =>
    cases hv : g.attempt other waited expired with
    | granted next => cases other <;> simp [hv, Verdict.thread, Thread.gain] at hasleep
    | refused e => simp [hv, Verdict.thread, Thread.turnedAway] at hasleep
    | sleeps next after =>
      obtain rfl : next = wait := by simpa [hv, Verdict.thread] using hasleep
      exact attempt_withholds hv
  | closes idle | resumes idle | shuts idle => simp [idle] at hasleep
  | wakes => simp at hasleep

end Section

namespace Crowd

variable {c c' : Crowd} {i : Nat} {steps : List (Nat × Step)}

/-- Whoever is asleep has a reason to be. -/
def Rested (c : Crowd) : Prop :=
  ∀ t ∈ c.threads, ∀ wait, t.stage = .asleep wait → c.gate.withholds wait

theorem woken_ne_asleep (t : Thread) (wait : Wait) : t.woken.stage ≠ .asleep wait := by
  unfold Thread.woken
  split
  · simp
  · rename_i hnever
    exact hnever wait

theorem rested_wakeAll (c : Crowd) : c.wakeAll.Rested := by
  intro t ht wait hasleep
  obtain ⟨u, -, rfl⟩ : ∃ u ∈ c.threads, u.woken = t := by simpa [wakeAll] using ht
  exact absurd hasleep (woken_ne_asleep u wait)

theorem Rested.step {dropped : Nat} (h : c.Rested) (ho : c.Orderly dropped)
    (hs : c.step i s = some c') : c'.Rested := by
  obtain ⟨t, g, t', wakes, ht, hsection, rfl⟩ := step_section hs
  cases wakes with
  | true => exact rested_wakeAll _
  | false =>
    intro u hu wait hasleep
    rw [gate_moved]
    obtain hu | rfl := List.mem_or_eq_of_mem_set hu
    · refine hsection.keeps ?_ (h u hu wait hasleep)
      rintro rfl
      obtain ⟨j, hj⟩ := List.mem_iff_getElem?.mp hu
      exact ho.pending_of_marking hj (by simp [Thread.marking, hasleep, Stage.draining])
    · exact hsection.sleeps hasleep

theorem Rested.run {dropped : Nat} (h : c.Rested) (ho : c.Orderly dropped)
    (hr : c.run steps = some c') : c'.Rested := by
  induction steps generalizing c dropped with
  | nil =>
    obtain rfl : c = c' := by simpa [Crowd.run] using hr
    exact h
  | cons turn rest ih =>
    obtain ⟨i, s⟩ := turn
    obtain ⟨d, hd, hrest⟩ := run_cons_eq_some.mp hr
    exact ih (h.step ho hd) (ho.step hd) hrest

theorem rested_start (n : Nat) : (start n).Rested := by
  intro t ht wait hasleep
  obtain ⟨-, rfl⟩ : n ≠ 0 ∧ t = {} := by simpa [start] using ht
  cases hasleep

/-- A thread that neither holds anything of the gate nor is about to run a section. -/
def Spent (t : Thread) : Prop :=
  t.scopes = 0 ∧ t.pausing = false ∧ ∀ wait expired, t.stage ≠ .awake wait expired

/-- Where nothing is held and nobody is awake in a call, nobody is in a call. -/
theorem Rested.idle_of_spent {dropped : Nat} (h : c.Rested) (ho : c.Orderly dropped)
    (hspent : ∀ t ∈ c.threads, Spent t) : ∀ t ∈ c.threads, t.stage = .idle := by
  have hclosed : c.gate.openScopes = 0 := by
    rw [ho.counted]
    refine List.sum_eq_zero ?_
    simpa using fun t ht => (hspent t ht).1
  have hdrain : ∀ t ∈ c.threads, t.stage ≠ .asleep .drain := by
    intro t ht hasleep
    have hopen : 0 < c.gate.openScopes := h t ht .drain hasleep
    exact absurd hclosed (Nat.ne_of_gt hopen)
  -- Whoever marks the gate holds a pause, or is awake or asleep for the open scopes.
  have hfree : c.gate.pending ≠ true := by
    intro hpending
    obtain ⟨u, hu, hmarking⟩ := ho.pending_iff.mp hpending
    obtain ⟨-, hpausing, hawake⟩ := hspent u hu
    have hdraining : u.stage.draining = true := by simpa [Thread.marking, hpausing] using hmarking
    unfold Stage.draining at hdraining
    split at hdraining
    · rename_i hasleep
      exact hdrain u hu hasleep
    · rename_i expired hstage
      exact hawake _ _ hstage
    · cases hdraining
  intro t ht
  cases hstage : t.stage with
  | idle => rfl
  | awake wait expired => exact absurd hstage ((hspent t ht).2.2 wait expired)
  | asleep wait =>
    have hreason := h t ht wait hstage
    cases wait with
    | drain => exact absurd hstage (hdrain t ht)
    | entry | turn => exact absurd hreason.1 hfree

/-! ### No lost wake-up -/

/-- Nobody is stranded at the gate. -/
structure NobodyStranded (c : Crowd) : Prop where
  /-- Whoever is asleep has a reason to be. -/
  rested : c.Rested
  /-- Once nothing is held and nobody is awake in a call, nobody is in a call any more. -/
  ended : (∀ t ∈ c.threads, Spent t) → ∀ t ∈ c.threads, t.stage = .idle

/-- Whatever any number of threads do at a gate, in whatever order, nobody goes on sleeping without a
reason. -/
theorem run_nobodyStranded (n : Nat) (h : (start n).run steps = some c) : c.NobodyStranded := by
  have horderly := (Orderly.start n).run h
  have hrested := (rested_start n).run (.start n) h
  exact ⟨hrested, hrested.idle_of_spent horderly⟩

/-- Four threads: the first holds a scope, the second waits for it to be closed, and the others sleep
because of the second, one to enter and one to pause. -/
def lineUp : List (Nat × Step) :=
  [(0, .enter none), (1, .pause), (2, .enter (some probeBound)), (3, .pause)]

/-- The scope is closed, and the pauses and the entry follow, each woken by what ends before it. -/
def workOff : List (Nat × Step) :=
  [(0, .leave), (1, .proceed), (3, .proceed), (2, .proceed), (3, .stir), (3, .proceed), (1, .resume),
    (2, .proceed), (3, .proceed), (2, .leave), (3, .proceed), (3, .resume)]

/-- How the four line up. -/
def linedUp : Crowd where
  gate := { openScopes := 1, pending := true, entered := 1 }
  threads :=
    [{ scopes := 1, answer? := some (.ok ()) }, { stage := .asleep .drain },
      { stage := .asleep (.entry (some probeBound)) }, { stage := .asleep .turn }]

/-- How they end. -/
def workedOff : Crowd where
  gate := { entered := 2, contended := 1, pauses := 2 }
  threads := List.replicate 4 { answer? := some (.ok ()) }

theorem run_nobodyStranded_lineUp :
    ((start 4).run lineUp = some linedUp ∧ linedUp.NobodyStranded) ∧
      (start 4).run (lineUp ++ workOff) = some workedOff ∧ workedOff.NobodyStranded ∧
        ∀ t ∈ workedOff.threads, Spent t := by
  have hup : (start 4).run lineUp = some linedUp := rfl
  have hoff : (start 4).run (lineUp ++ workOff) = some workedOff := rfl
  refine ⟨⟨hup, run_nobodyStranded 4 hup⟩, hoff, run_nobodyStranded 4 hoff, ?_⟩
  simp [workedOff, Spent]

end Crowd

end Gate

end RuntimeTypes
