/-
A class table that other threads work on.

A scope keeps out what needs a pause, and nothing else.  So while a query reads a class part by
part, other threads may declare, define and complete classes, ask for arrays and make loaders
between any two of its reads.  A `SharedTable` says what they are going to do: before each read
they take a turn, which is a list of operations, and the read finds the table that they leave.
-/
import RuntimeTypes.Session.Query
import RuntimeTypes.Store.Table

namespace RuntimeTypes

/-- A class table, and what other threads do to it between the reads. -/
structure SharedTable where
  /-- The table as the last read has found it. -/
  table : ClassTable
  /-- What other threads do before the next reads, turn by turn. -/
  turns : List (List ClassTable.Op) := []
  /-- Whether the reads so far have been answered, in their order. -/
  answered : List Bool := []

namespace SharedTable

/-- The table that the next read finds. -/
def upcoming (s : SharedTable) : ClassTable := s.table.after (s.turns.headD [])

/-- The store after the next read, which leaves this table. -/
def next (s : SharedTable) (table : ClassTable) (answered : Bool) : SharedTable where
  table := table
  turns := s.turns.tail
  answered := s.answered ++ [answered]

/-- Read from the table, once the other threads have had their turn. -/
def read {α : Type} (r : Read ClassTable α) : Read SharedTable α := fun s =>
  match r s.upcoming with
  | .ok a table => .ok a (s.next table true)
  | .error e table => .error e (s.next table false)

instance : MetadataSource SharedTable where
  name id := read (MetadataSource.name id)
  loadStatus id := read (MetadataSource.loadStatus id)
  shape id := read (MetadataSource.shape id)
  layout id := read (MetadataSource.layout id)
  ancestry id := read (MetadataSource.ancestry id)
  flags id := read (MetadataSource.flags id)
  prototypeHeader id := read (MetadataSource.prototypeHeader id)
  loader id := read (MetadataSource.loader id)
  find? loader name := read (MetadataSource.find? loader name)

end SharedTable

namespace Workspace

/-- The workspace, where other threads take these turns between the reads. -/
def amid (w : Workspace ClassTable) (turns : List (List ClassTable.Op)) : Workspace SharedTable where
  session := w.session
  heap := { gate := w.heap.gate, store := { table := w.heap.store, turns := turns } }

/-- The workspace with the table after these operations. -/
def following (w : Workspace ClassTable) (ops : List ClassTable.Op) : Workspace ClassTable :=
  { w with heap := { w.heap with store := w.heap.store.after ops } }

end Workspace

end RuntimeTypes
