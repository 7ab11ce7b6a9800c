/-
Any number of threads at one gate.

A `Crowd` is the gate and where every thread stands.  One `Step` of one thread is a
section under the lock, or a wake-up: the bound of an entry passes, or a thread
wakes for no reason at all, as threads may.  Sections that wake the sleepers move
all of them to `awake`; each still has to run its own section again before it gets
anything.  A run of the program is a list of steps of whichever threads, and every
interleaving is such a list.
-/
import RuntimeTypes.Gate.Basic

namespace RuntimeTypes

namespace Gate

/-- Where a thread stands. -/
inductive Stage
  /-- In no call to the gate. -/
  | idle
  /-- Asleep in a call. -/
  | asleep (wait : Wait)
  /-- Awake in a call, about to take the lock again; `expired` if its bound woke it. -/
  | awake (wait : Wait) (expired : Bool)
  deriving DecidableEq, Repr

/-- One thread, as far as the gate is concerned. -/
structure Thread where
  /-- Scopes it holds open. -/
  scopes : Nat := 0
  /-- Whether it holds a pause. -/
  pausing : Bool := false
  /-- Where it stands. -/
  stage : Stage := .idle
  /-- How its latest call ended. -/
  answer? : Option (Except HeapFailure Unit) := none

namespace Thread

/-- A thread that gets what it waited for. -/
def gain (t : Thread) : Wait → Thread
  | .entry _ => { t with scopes := t.scopes + 1, stage := .idle, answer? := some (.ok ()) }
  | .turn => { t with pausing := true, stage := .idle, answer? := some (.ok ()) }
  | .drain => { t with pausing := true, stage := .idle, answer? := some (.ok ()) }

/-- A thread that is turned away. -/
def turnedAway (t : Thread) (e : HeapFailure) : Thread :=
  { t with stage := .idle, answer? := some (.error e) }

/-- A thread that hears the sleepers being woken. -/
def woken (t : Thread) : Thread :=
  match t.stage with
  | .asleep wait => { t with stage := .awake wait false }
  | _ => t

end Thread

/-- A gate and the threads that use it. -/
structure Crowd where
  /-- The gate. -/
  gate : Gate := {}
  /-- The threads. -/
  threads : List Thread := []

/-- What one thread does next. -/
inductive Step
  /-- Call to enter. -/
  | enter (bound : Option Duration)
  /-- Close a scope. -/
  | leave
  /-- Call for a pause. -/
  | pause
  /-- End the pause it holds. -/
  | resume
  /-- Shut the gate down. -/
  | shutdown
  /-- Wake because the bound has passed. -/
  | expire
  /-- Wake for no reason. -/
  | stir
  /-- Run the section of its call again. -/
  | proceed
  deriving DecidableEq, Repr

namespace Crowd

/-- The crowd with another state of one thread. -/
def put (c : Crowd) (i : Nat) (t : Thread) : Crowd :=
  { c with threads := c.threads.set i t }

/-- The crowd after its sleepers have been woken. -/
def wakeAll (c : Crowd) : Crowd :=
  { c with threads := c.threads.map Thread.woken }

/-- The crowd with another state of the gate. -/
def atGate (c : Crowd) (g : Gate) : Crowd :=
  { c with gate := g }

/-- Thread `i`, in state `t`, runs the section for what it waits for. -/
def attempt (c : Crowd) (i : Nat) (t : Thread) (wait : Wait) (waited expired : Bool) : Crowd :=
  match c.gate.attempt wait waited expired with
  | .granted g => (c.atGate g).put i (t.gain wait)
  | .refused e => c.put i (t.turnedAway e)
  | .sleeps next g => (c.atGate g).put i { t with stage := .asleep next }

/-- Thread `i`, in state `t`, closes a scope. -/
def leave (c : Crowd) (i : Nat) (t : Thread) : Crowd :=
  let next := (c.atGate c.gate.leave).put i { t with scopes := t.scopes - 1 }
  if c.gate.leaveWakes then next.wakeAll else next

/-- One step of thread `i`, if it can take it. -/
def step (c : Crowd) (i : Nat) (s : Step) : Option Crowd :=
  match c.threads[i]? with
  | none => none
  | some t =>
    match s, t.stage with
    | .enter bound, .idle => some (c.attempt i t (.entry bound) false false)
    | .leave, .idle => if 0 < t.scopes then some (c.leave i t) else none
    | .pause, .idle => some (c.attempt i t .turn false false)
    | .resume, .idle =>
      if t.pausing then
        some ((c.atGate c.gate.resume).put i { t with pausing := false }).wakeAll
      else
        none
    | .shutdown, .idle => some (c.atGate c.gate.shutdown).wakeAll
    | .expire, .asleep (.entry (some d)) =>
      some (c.put i { t with stage := .awake (.entry (some d)) true })
    | .stir, .asleep wait => some (c.put i { t with stage := .awake wait false })
    | .proceed, .awake wait expired => some (c.attempt i t wait true expired)
    | _, _ => none

/-- The crowd after a list of steps, if each can be taken. -/
def run (c : Crowd) : List (Nat × Step) → Option Crowd
  | [] => some c
  | (i, s) :: rest => (c.step i s).bind fun next => next.run rest

/-- The threads before any of them has called. -/
def start (threads : Nat) : Crowd :=
  { threads := List.replicate threads {} }

end Crowd

end Gate

end RuntimeTypes
