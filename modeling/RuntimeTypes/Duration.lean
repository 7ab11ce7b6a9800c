/-
Spans of time, with nanosecond precision and 64-bit seconds.

A duration is written in the largest of the units seconds, milliseconds,
microseconds and nanoseconds of which it holds at least one (nanoseconds if
none), with its exact decimal fraction and without trailing zeros.
-/

namespace RuntimeTypes

/-- A span of time. -/
structure Duration where
  /-- Whole seconds. -/
  secs : UInt64
  /-- Nanoseconds past the whole seconds. -/
  nanos : Nat
  /-- A full second counts as one. -/
  nanos_lt : nanos < 1000000000
  deriving DecidableEq, Repr

namespace Duration

/-- The duration of this many seconds and nanoseconds, full seconds of nanoseconds carried over,
unless the seconds no longer fit. -/
def ofParts? (secs nanos : Nat) : Option Duration :=
  if secs + nanos / 1000000000 < UInt64.size then
    some ⟨UInt64.ofNat (secs + nanos / 1000000000), nanos % 1000000000,
      Nat.mod_lt nanos (by decide)⟩
  else
    none

/-- The duration of this many milliseconds. -/
def ofMillis (millis : UInt64) : Duration :=
  ⟨millis / 1000, (millis % 1000).toNat * 1000000, by
    have h : (millis % 1000).toNat = millis.toNat % 1000 := by simp
    have := Nat.mod_lt millis.toNat (show 0 < 1000 by decide)
    omega⟩

/-- Length in nanoseconds. -/
def totalNanos (d : Duration) : Nat :=
  d.secs.toNat * 1000000000 + d.nanos

/-- Length in milliseconds, rounded down. -/
def totalMillis (d : Duration) : Nat :=
  d.totalNanos / 1000000

/-- The `width` decimal digits of a fraction without trailing zeros, after a point if any is left. -/
def fractionText (fraction width : Nat) : String :=
  let digits := Nat.toDigits 10 fraction
  let padded := List.replicate (width - digits.length) '0' ++ digits
  let kept := (padded.reverse.dropWhile (· = '0')).reverse
  if kept.isEmpty then "" else "." ++ String.ofList kept

/-- A whole number with a fraction of `width` digits and its unit. -/
def decimalText (whole fraction width : Nat) (unit : String) : String :=
  Nat.repr whole ++ fractionText fraction width ++ unit

/-- A duration in the largest unit it fills. -/
def text (d : Duration) : String :=
  if 0 < d.secs then
    decimalText d.secs.toNat d.nanos 9 "s"
  else if 1000000 ≤ d.nanos then
    decimalText (d.nanos / 1000000) (d.nanos % 1000000) 6 "ms"
  else if 1000 ≤ d.nanos then
    decimalText (d.nanos / 1000) (d.nanos % 1000) 3 "µs"
  else
    decimalText d.nanos 0 0 "ns"

end Duration

end RuntimeTypes
