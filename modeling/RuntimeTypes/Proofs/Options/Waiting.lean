/-
How long a query waits at the gate, against how long it was asked to wait.

Options keep a bound in whole milliseconds and in 64 bits.  What is asked for is
rounded down to milliseconds, of which the lowest 64 bits are kept.  Rounding loses
less than a millisecond, and cutting off loses nothing as long as 64 bits are enough.

So the bound is the one asked for from one millisecond on and below `2 ^ 64` of
them, and nowhere else.  Less than a millisecond becomes none at all, which the
check refuses; more than 64 bits hold becomes some other bound, which it lets pass
unless that is none again.
-/
import RuntimeTypes.Options

namespace RuntimeTypes

namespace Duration

theorem totalNanos_ofMillis (millis : UInt64) :
    (ofMillis millis).totalNanos = millis.toNat * 1000000 := by
  have hsplit := Nat.div_add_mod millis.toNat 1000
  simp [ofMillis, totalNanos]
  omega

/-- Rounding down to milliseconds loses less than one of them. -/
theorem totalMillis_bounds (d : Duration) : d.totalMillis * 1000000 ≤ d.totalNanos ∧
    d.totalNanos < d.totalMillis * 1000000 + 1000000 := by
  unfold totalMillis
  omega

end Duration

namespace Options

/-- The options pass the check, and a query waits as long as asked for, up to a millisecond less. -/
structure WaitsFor (o : Options) (bound : Duration) : Prop where
  checked : o.check = .ok ()
  bounded : ∃ t, o.waitBound = some t ∧ t.totalNanos ≤ bound.totalNanos ∧
    bound.totalNanos < t.totalNanos + 1000000

theorem exists_waitBound_waitingFor (bound : Duration) : ∃ t,
    (waitingFor bound).waitBound = some t ∧
      t.totalNanos = bound.totalMillis % UInt64.size * 1000000 := by
  refine ⟨Duration.ofMillis (UInt64.ofNat bound.totalMillis), rfl, ?_⟩
  rw [Duration.totalNanos_ofMillis, UInt64.toNat_ofNat', UInt64.size]

/-- The check refuses a bound of which nothing is kept, and no other. -/
theorem check_waitingFor (bound : Duration) : (waitingFor bound).check =
    if bound.totalMillis % UInt64.size = 0 then .error (.invalid .zeroTimeout) else .ok () := by
  have hzero : UInt64.ofNat bound.totalMillis = 0 ↔ bound.totalMillis % UInt64.size = 0 := by
    rw [← UInt64.toNat_inj, UInt64.toNat_ofNat', UInt64.size]
    rfl
  simp [check, waitingFor, hzero]

/-- **A query waits as long as it was asked to** exactly if that is a millisecond at least, and 64
bits hold the number of milliseconds.  In any case it waits for as many milliseconds as the lowest
64 bits say, and the check refuses the options if that is none. -/
theorem waitingFor_waits (bound : Duration) :
    (∃ t, (waitingFor bound).waitBound = some t ∧
      t.totalNanos = bound.totalMillis % UInt64.size * 1000000) ∧
    ((waitingFor bound).check =
      if bound.totalMillis % UInt64.size = 0 then .error (.invalid .zeroTimeout) else .ok ()) ∧
    ((waitingFor bound).WaitsFor bound ↔
      1000000 ≤ bound.totalNanos ∧ bound.totalNanos < UInt64.size * 1000000) := by
  obtain ⟨t, ht, htotal⟩ := exists_waitBound_waitingFor bound
  have hcheck := check_waitingFor bound
  have hround := bound.totalMillis_bounds
  refine ⟨⟨t, ht, htotal⟩, hcheck, ?_⟩
  constructor
  · intro h
    obtain ⟨t', ht', hle, hlt⟩ := h.bounded
    obtain rfl := Option.some.inj (ht.symm.trans ht')
    have hkept : bound.totalMillis % UInt64.size < UInt64.size := Nat.mod_lt _ (by decide)
    have hsome : bound.totalMillis % UInt64.size ≠ 0 := by
      intro hzero
      rw [if_pos hzero, h.checked] at hcheck
      cases hcheck
    omega
  · intro h
    have hsmall : bound.totalMillis < UInt64.size := by omega
    have hkept : bound.totalMillis % UInt64.size = bound.totalMillis := Nat.mod_eq_of_lt hsmall
    refine ⟨?_, t, ht, ?_, ?_⟩
    · rw [hcheck, if_neg]
      omega
    · omega
    · omega

/-- Half a millisecond is refused. -/
example : (waitingFor ⟨0, 500000, by decide⟩).check = .error (.invalid .zeroTimeout) := rfl

/-- One more millisecond than 64 bits hold is a bound of one millisecond, which the check lets
pass. -/
example : let o := waitingFor ⟨18446744073709551, 617000000, by decide⟩
    o.check = .ok () ∧ o.waitBound = some ⟨0, 1000000, by decide⟩ := ⟨rfl, rfl⟩

end Options

end RuntimeTypes
