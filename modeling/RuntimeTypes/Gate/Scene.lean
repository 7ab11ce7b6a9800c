/-
A main thread, and helpers that wait for it.

In a `Scene` some helpers call at the gate, one after the other, each letting go at
once of whatever it gets.  Then the main thread acts, and in the end the helpers
are waited for.  The scene is a run of a `Crowd` in which the main thread is thread
0: the helpers move while the main thread starts them, sleeps in a probe, or waits
for their end.

Time goes by only while all threads sleep.  A probe in vain lasts as long as its
bound, so the bounds of helpers asleep pass if the main thread has spent as much
time in probes; a bound of zero passes at once.  Whatever bounds are left pass while
the main thread waits for the helpers' end.
-/
import RuntimeTypes.Gate.Crowd

namespace RuntimeTypes

namespace Gate

/-- What every helper of a scene asks for. -/
inductive Call
  /-- A scope. -/
  | enter (bound : Option Duration)
  /-- A pause. -/
  | pause
  deriving DecidableEq, Repr

/-- What the main thread of a scene does. -/
inductive Action
  /-- End its pause. -/
  | resume
  /-- Shut the gate down. -/
  | shutdown
  /-- Close one scope. -/
  | leaveOne
  /-- Close all scopes. -/
  | leaveAll
  /-- Try for two milliseconds to enter, and leave at once. -/
  | probe
  deriving DecidableEq, Repr

/-- How an action ended. -/
inductive ActionAnswer
  /-- Whether there was anything to end or to close. -/
  | was (there : Bool)
  /-- The probe got in. -/
  | entered
  /-- The probe did not get in. -/
  | failed (error : HeapFailure)
  deriving DecidableEq, Repr

/-- How long a probe waits. -/
def probeBound : Duration := ⟨0, 2000000, by decide⟩

namespace Scene

/-- The main thread's number. -/
def main : Nat := 0

/-- Thread `i` takes a step if it can. -/
def push (c : Crowd) (i : Nat) (s : Step) : Crowd :=
  (c.step i s).getD c

/-- Where thread `i` stands. -/
def stage (c : Crowd) (i : Nat) : Stage :=
  ((c.threads[i]?).map (·.stage)).getD .idle

/-- Thread `i` closes its scope and ends its pause, whichever it has. -/
def letGo (c : Crowd) (i : Nat) : Crowd :=
  push (push c i .leave) i .resume

/-- The first helper that is awake in a call. -/
def awakeHelper? (c : Crowd) : Option Nat :=
  (List.range c.threads.length).find? fun i =>
    match stage c i with
    | .awake _ _ => i ≠ main
    | _ => false

/-- Helpers that are awake run their sections and let go, at most `moves` times. -/
def settleIn : (moves : Nat) → Crowd → Crowd
  | 0, c => c
  | moves + 1, c =>
    match awakeHelper? c with
    | some i => settleIn moves (letGo (push c i .proceed) i)
    | none => c

/-- Helpers move until each is out of its call or asleep.  A helper moves once per time it is woken,
and is woken at most once by each helper that lets go. -/
def settle (c : Crowd) : Crowd :=
  settleIn ((c.threads.length + 1) * (c.threads.length + 1)) c

/-- Whether thread `i` is a helper asleep with a bound of which `due` holds. -/
def isDue (due : Duration → Bool) (c : Crowd) (i : Nat) : Bool :=
  match stage c i with
  | .asleep (.entry (some bound)) => i ≠ main && due bound
  | _ => false

/-- The bounds of which `due` holds pass, one helper after the other. -/
def lapse (due : Duration → Bool) (c : Crowd) : Crowd :=
  (List.range c.threads.length).foldl
    (fun c i => if isDue due c i then settle (push c i .expire) else c) c

/-- The bounds of helpers that have passed after this many nanoseconds. -/
def lapseTo (elapsed : Nat) (c : Crowd) : Crowd :=
  lapse (fun bound => decide (bound.totalNanos ≤ elapsed)) c

/-- Helper `i` calls, before any time has gone by. -/
def callFrom (call : Call) (c : Crowd) (i : Nat) : Crowd :=
  match call with
  | .enter bound => lapseTo 0 (settle (letGo (push c i (.enter bound)) i))
  | .pause => settle (letGo (push c i .pause) i)

/-- A crowd some time after its helpers have called. -/
structure Moment where
  /-- The crowd. -/
  crowd : Crowd
  /-- Nanoseconds that the main thread has spent in probes. -/
  elapsed : Nat := 0

/-- The bound of the main thread's probe passes, after those of helpers that end no later. -/
def giveUp (m : Moment) : Moment :=
  let elapsed := m.elapsed + probeBound.totalNanos
  { crowd := push (push (lapseTo elapsed m.crowd) main .expire) main .proceed, elapsed := elapsed }

/-- The main thread waits in a probe, at most `rounds` times, and then the bound passes. -/
def awaitProbe : (rounds : Nat) → Moment → Moment
  | 0, m => giveUp m
  | rounds + 1, m =>
    match stage m.crowd main with
    | .idle => m
    | .awake _ _ => awaitProbe rounds { m with crowd := push m.crowd main .proceed }
    | .asleep _ =>
      let next := { m with crowd := settle m.crowd }
      match stage next.crowd main with
      | .asleep _ => giveUp next
      | _ => awaitProbe rounds next

/-- How the main thread's latest call ended. -/
def probeAnswer (c : Crowd) : ActionAnswer :=
  match (c.threads[main]?).bind (·.answer?) with
  | some (.ok ()) => .entered
  | some (.error e) => .failed e
  | none => .failed .blocked

/-- The main thread, if the crowd has one. -/
def mainThread (c : Crowd) : Thread :=
  (c.threads[main]?).getD {}

/-- The main thread tries to enter, and leaves at once if it gets in. -/
def probe (m : Moment) : ActionAnswer × Moment :=
  let called := { m with crowd := push m.crowd main (.enter (some probeBound)) }
  let tried := awaitProbe (m.crowd.threads.length + 2) called
  match probeAnswer tried.crowd with
  | .entered => (.entered, { tried with crowd := push tried.crowd main .leave })
  | answer => (answer, tried)

/-- The main thread closes all its scopes. -/
def leaveAll (c : Crowd) : Crowd :=
  (List.range (mainThread c).scopes).foldl (fun c _ => push c main .leave) c

/-- The main thread acts. -/
def act (m : Moment) : Action → ActionAnswer × Moment
  | .resume =>
    (.was (mainThread m.crowd).pausing, { m with crowd := push m.crowd main .resume })
  | .shutdown => (.was true, { m with crowd := push m.crowd main .shutdown })
  | .leaveOne =>
    (.was (decide (0 < (mainThread m.crowd).scopes)), { m with crowd := push m.crowd main .leave })
  | .leaveAll => (.was true, { m with crowd := leaveAll m.crowd })
  | .probe => probe m

/-- The main thread acts several times. -/
def actAll (m : Moment) : List Action → List ActionAnswer × Moment
  | [] => ([], m)
  | action :: rest =>
    let (answer, next) := act m action
    let (answers, last) := actAll next rest
    (answer :: answers, last)

/-- The helpers are waited for, however long their bounds are. -/
def join (c : Crowd) : Crowd := lapse (fun _ => true) (settle c)

/-- How a helper's call ended; a helper still asleep has no end to wait for. -/
def helperAnswer (t : Thread) : Except HeapFailure Unit :=
  match t.stage, t.answer? with
  | .idle, some answer => answer
  | _, _ => .error .blocked

/-- What a scene shows. -/
structure Outcome where
  /-- How the main thread's actions ended. -/
  actions : List ActionAnswer
  /-- How the helpers' calls ended. -/
  helpers : List (Except HeapFailure Unit)
  /-- The gate afterwards. -/
  gate : Gate
  /-- Whether the main thread still holds its pause. -/
  pausing : Bool

/-- Play a scene at a gate where the main thread holds `scopes` open and perhaps a pause. -/
def play (g : Gate) (scopes : Nat) (pausing : Bool) (helpers : Nat) (call : Call)
    (actions : List Action) : Outcome :=
  let crowd : Crowd :=
    { gate := g
      threads := { scopes := scopes, pausing := pausing } :: List.replicate helpers {} }
  let waiting := ((List.range helpers).map (· + 1)).foldl (callFrom call) crowd
  let (answers, acted) := actAll { crowd := waiting } actions
  let last := join acted.crowd
  { actions := answers
    helpers := (last.threads.drop 1).map helperAnswer
    gate := last.gate
    pausing := (mainThread last).pausing }

end Scene

end Gate

end RuntimeTypes
