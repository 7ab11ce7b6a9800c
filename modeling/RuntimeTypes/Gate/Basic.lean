/-
The gate between compilations and the running program.

Whoever reads class metadata holds a scope; whoever changes it for good pauses the
gate, which keeps new scopes out and waits until the open ones are closed.  Shutting
the gate down keeps everybody out for ever.

The functions here are the sections that a thread runs under the gate's lock.  A
section grants what was asked for, refuses it, or sends the thread to sleep, and
says what the thread then waits for; `Gate.attempt` is the section a thread runs
when it calls and again whenever it wakes.  `Gate.enter` and `Gate.pause` put the
sections together for a program of one thread, where sleep ends with the bound or
not at all.
-/
import RuntimeTypes.Failure

namespace RuntimeTypes

/-- The state of a gate under its lock, with what has gone through it. -/
structure Gate where
  /-- Open scopes. -/
  openScopes : Nat := 0
  /-- Whether a pause has been asked for or granted. -/
  pending : Bool := false
  /-- Whether everybody is kept out. -/
  shutDown : Bool := false
  /-- Scopes opened so far. -/
  entered : Nat := 0
  /-- How many of them had to wait. -/
  contended : Nat := 0
  /-- Pauses granted so far. -/
  pauses : Nat := 0
  deriving DecidableEq, Repr

namespace Gate

/-- What a thread asleep at the gate waits for. -/
inductive Wait
  /-- To enter, once no pause is pending, for as long as the bound says. -/
  | entry (bound : Option Duration)
  /-- To ask for a pause, once no other is pending. -/
  | turn
  /-- To be granted its own pause, once all scopes are closed. -/
  | drain
  deriving DecidableEq, Repr

/-- How a section under the lock ends. -/
inductive Verdict
  /-- The thread has what it asked for. -/
  | granted (gate : Gate)
  /-- The thread is turned away. -/
  | refused (error : HeapFailure)
  /-- The thread goes to sleep. -/
  | sleeps (wait : Wait) (gate : Gate)
  deriving DecidableEq, Repr

/-- Open a scope unless a pause is pending.  A thread whose bound has passed while it slept gives
up if a pause is pending still. -/
def tryEnter (g : Gate) (bound : Option Duration) (waited expired : Bool) : Verdict :=
  if g.shutDown then
    .refused .shutDown
  else if g.pending then
    match bound, expired with
    | some d, true => .refused (.timeout d)
    | _, _ => .sleeps (.entry bound) g
  else
    .granted
      { g with
        openScopes := g.openScopes + 1
        entered := g.entered + 1
        contended := if waited then g.contended + 1 else g.contended }

/-- Grant a pending pause once all scopes are closed, even if the gate has been shut down. -/
def tryDrain (g : Gate) : Verdict :=
  if g.openScopes = 0 then .granted { g with pauses := g.pauses + 1 } else .sleeps .drain g

/-- Ask for a pause unless another is pending. -/
def tryPause (g : Gate) : Verdict :=
  if g.shutDown then
    .refused .shutDown
  else if g.pending then
    .sleeps .turn g
  else
    tryDrain { g with pending := true }

/-- The section that a thread runs for what it waits for. -/
def attempt (g : Gate) (wait : Wait) (waited expired : Bool) : Verdict :=
  match wait with
  | .entry bound => g.tryEnter bound waited expired
  | .turn => g.tryPause
  | .drain => g.tryDrain

/-- Close a scope. -/
def leave (g : Gate) : Gate := { g with openScopes := g.openScopes - 1 }

/-- Whether closing a scope wakes the sleepers: it does if it was the last one and somebody waits to
be granted a pause. -/
def leaveWakes (g : Gate) : Bool := g.leave.openScopes = 0 && g.pending

/-- End a pause; this wakes the sleepers. -/
def resume (g : Gate) : Gate := { g with pending := false }

/-- Keep everybody out from now on; this wakes the sleepers. -/
def shutdown (g : Gate) : Gate := { g with shutDown := true }

/-- Enter, where no other thread is there to end a pause. -/
def enter (g : Gate) (bound : Option Duration) : Except HeapFailure Gate :=
  match g.tryEnter bound false false with
  | .granted next => .ok next
  | .refused e => .error e
  | .sleeps _ _ =>
    match bound with
    | some d => .error (.timeout d)
    | none => .error .blocked

/-- Pause, where no other thread is there to close a scope or end a pause. -/
def pause (g : Gate) : Except HeapFailure Gate :=
  match g.tryPause with
  | .granted next => .ok next
  | .refused e => .error e
  | .sleeps _ _ => .error .blocked

end Gate

end RuntimeTypes
