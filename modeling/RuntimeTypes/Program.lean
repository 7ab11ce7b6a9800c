/-
A running program and the compilations that look at it.

A `Program` is a heap with any number of sessions over it.  Sessions are numbered
as they are opened, so a reference tells which of them made it.  What happens to a
program whose classes are in a table is a list of events: an operation on the
table, a session that is opened, a request of a session, and whatever other threads
do at the gate.
-/
import RuntimeTypes.Session.Request
import RuntimeTypes.Store.Table

namespace RuntimeTypes

/-- A heap and the sessions over it. -/
structure Program (σ : Type) where
  /-- The heap. -/
  heap : Heap σ
  /-- The sessions; the number of each is its position. -/
  sessions : Array Session := #[]

namespace Program

variable {σ : Type}

/-- A program without sessions. -/
def start (store : σ) : Program σ :=
  { heap := { store := store } }

/-- The program with another state of its gate. -/
def atGate (p : Program σ) (gate : Gate) : Program σ :=
  { p with heap := { p.heap with gate := gate } }

/-- Open a session. -/
def openSession (p : Program σ) (options : Options) : Program σ :=
  { p with sessions := p.sessions.push (Session.start p.sessions.size options) }

/-- A request of session `i`, if it is open. -/
def request [MetadataSource σ] (p : Program σ) (i : Nat) (r : Request) :
    Option (Except QueryFailure Answer × Program σ) :=
  p.sessions[i]?.map fun s =>
    let (answer, after) := Workspace.serve { session := s, heap := p.heap } r
    (answer, { heap := after.heap, sessions := p.sessions.setIfInBounds i after.session })

/-- An operation on the class table. -/
def perform (p : Program ClassTable) (op : ClassTable.Op) :
    Except TableRefusal ClassTable.Reply × Program ClassTable :=
  let (reply, heap) := p.heap.perform op
  (reply, { p with heap := heap })

/-- What happens to a program. -/
inductive Event
  | perform (op : ClassTable.Op)
  | openSession (options : Options)
  | request (i : Nat) (r : Request)
  /-- Other threads have left the gate like this. -/
  | atGate (gate : Gate)
  deriving DecidableEq, Repr

/-- The program after an event.  A request of a session that is not open is none. -/
def step (p : Program ClassTable) : Event → Program ClassTable
  | .perform op => (p.perform op).2
  | .openSession options => p.openSession options
  | .request i r => ((p.request i r).map (·.2)).getD p
  | .atGate gate => p.atGate gate

/-- The program after a list of events. -/
def after (p : Program ClassTable) (events : List Event) : Program ClassTable :=
  events.foldl step p

end Program

end RuntimeTypes
