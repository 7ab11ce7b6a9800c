/-
Looking a name up on a table that other threads work on.

`ClassTable.find` asks the whole way from the bootstrap loader down at one moment.  But the
index is probed once for each loader on the way, and nothing keeps the table as it is
between two probes.  `SharedTable.search` is the lookup taken apart: the way is looked up
once, and then the other threads have a turn before each probe.
-/
import RuntimeTypes.Store.Shared

namespace RuntimeTypes

/-- Probe the index: what a loader itself means by a name, leaving its ancestors out. -/
def ClassTable.probe (loader : Loader) (name : String) : Read ClassTable (Option Identity) := fun t =>
  .ok (t.names.get? (loader, name)) t

namespace SharedTable

/-- Probe the index for one loader after the other, up to the first that has the name. -/
def probeAll (name : String) : List Loader → Read SharedTable (Option Identity)
  | [] => pure none
  | loader :: rest => do
    match ← read (ClassTable.probe loader name) with
    | some id => pure (some id)
    | none => probeAll name rest

/-- Find the class that a name means to a loader, which has to exist, from the bootstrap loader
down. -/
def search (loader : Loader) (name : String) : Read SharedTable (Option Identity) := fun s =>
  match s.table.loaders.chain? loader with
  | some chain => probeAll name chain.reverse s
  | none => .error (.storeFailure (TableRefusal.unknownLoader loader).message) s

/-- Where the others leave the table alone, the probes find what the table means by the name. -/
theorem probeAll_of_quiet (name : String) (loaders : List Loader) (s : SharedTable)
    (hquiet : s.turns = []) : ∃ s', s'.table = s.table ∧
      probeAll name loaders s
        = .ok (loaders.findSome? fun l => s.table.names.get? (l, name)) s' := by
  induction loaders generalizing s with
  | nil => exact ⟨s, rfl, rfl⟩
  | cons loader rest ih =>
    have hnow : s.upcoming = s.table := by
      rw [upcoming, hquiet]
      rfl
    simp only [probeAll, bind, EStateM.bind, read, ClassTable.probe, hnow, List.findSome?_cons]
    cases s.table.names.get? (loader, name) with
    | some id => exact ⟨s.next s.table true, rfl, rfl⟩
    | none => exact ih (s.next s.table true) (by simp [next, hquiet])

/-- So does the whole search. -/
theorem search_of_quiet (t : ClassTable) (loader : Loader) (name : String) :
    (∀ answer t', ClassTable.find loader name t = .ok answer t' →
        ∃ s', s'.table = t' ∧ search loader name { table := t } = .ok answer s') ∧
      ∀ e t', ClassTable.find loader name t = .error e t' →
        search loader name { table := t } = .error e { table := t' } := by
  unfold ClassTable.find search ClassTable.lookup?
  cases t.loaders.chain? loader with
  | none => simp
  | some chain =>
    simpa using probeAll_of_quiet name chain.reverse { table := t } rfl

end SharedTable

end RuntimeTypes
