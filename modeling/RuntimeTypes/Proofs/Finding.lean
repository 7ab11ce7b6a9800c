/-
Finding a class by its name, from the loaders to the handle.

A search starts from a type that the session holds as loaded, and goes by the loader in its
snapshot.  Loaders are never removed, so that loader exists even where the type itself is
gone, and the table answers.  It answers with a class that is in the table, as the name index
leads nowhere else, and the record of the class is accepted.  So a session without a limit,
before a gate that is open, comes by a handle; that leaves no other failure than a name that
means nothing, as long as there is a number of 32 bits left for the handle and for its name.

A handle carries the name that its class has in the table.  That holds of unloaded handles
too, so also where the class had been resolved before it was found.
-/
import RuntimeTypes.Proofs.Displays
import RuntimeTypes.Proofs.Session.Interning
import RuntimeTypes.Proofs.Session.Placeholders
import RuntimeTypes.Proofs.Session.Scopes
import RuntimeTypes.Proofs.Table.Delegation

namespace RuntimeTypes

namespace Gate

variable {g : Gate}

/-- The gate has not been shut down, and nobody has asked for a pause. -/
structure IsOpen (g : Gate) : Prop where
  running : g.shutDown = false
  unpaused : g.pending = false

theorem IsOpen.passing (h : g.IsOpen) (n : Nat) : (g.passing n).IsOpen := ⟨h.running, h.unpaused⟩

end Gate

namespace Query

section

variable {σ : Type} {w : Workspace σ}

variable [MetadataSource σ] {origin r : HandleRef} {c : Snapshot} {name : String} {id : Identity}
  {inside : Gate}

end

open Workspace

variable {A : Archive} {w : Workspace ClassTable} {origin r : HandleRef} {c : Snapshot} {name : String}
  {id : Identity}

end Query

namespace Session

variable {s : Session} {number : Nat} {options : Options} {text : String} {e : QueryFailure}

end Session

namespace ClassTable

end ClassTable

namespace Program

open ClassTable

section

variable {p : Program ClassTable} {A : Archive} {log : LoadLog} {events : List Event} {i : Nat}
  {s : Session}

/-- A handle of a class that is in the table has the name that stands there. -/
theorem Recorded.nameText_eq (h : p.Recorded A log) (hdescribed : p.Described events)
    (hs : (p.after events).sessions[i]? = some s) {r : HandleRef} {hd : Handle} {id : Identity}
    {e : ClassObject} (hr : s.handle r = .ok hd) (hid : hd.identity? = some id)
    (he : (p.after events).heap.store.objectAt id = some e) : s.nameText r = .ok e.name := by
  obtain ⟨before, ⟨past, hpast, hbefore⟩, hdescribes⟩ := hdescribed i s hs r hd id hr hid
  rw [(h.matures hpast hbefore he).name]
  exact Session.nameText_eq hr hdescribes.name

end

namespace FindsName

variable {p p' : Program ClassTable} {i : Nat} {s s' : Session} {origin r : HandleRef}
  {loader : Loader} {name : String} {id : Identity} {h : Handle} {e : QueryFailure}

end FindsName

section

variable {p : Program ClassTable} {A : Archive} {log : LoadLog} {i : Nat} {s : Session}
  {q : Query ClassTable HandleRef} {r : HandleRef} {e : QueryFailure}
  {after : Workspace ClassTable}

/-- Nothing can go wrong with a class that is in the table, as long as the session has room. -/
theorem Checkable.admits (h : p.Checkable A log) {id : Identity} {entry : ClassObject}
    (he : p.heap.store.objectAt id = some entry) :
    Query.Admits (fun e => s.finalHandle? id = none ∧ s.RunsOut entry.name e) p.heap.store s id where
  unknown := fun hnone => by
    rw [he] at hnone
    cases hnone
  malformed := fun b name failure hb hfailed => by
    obtain ⟨ancestry, hok⟩ := h.ofRecord_ok hb name s.options.verifyRecords
    rw [hok] at hfailed
    cases hfailed
  crowded := fun entry' e he' hnone hout => by
    obtain rfl := Option.some.inj (he.symm.trans he')
    exact ⟨hnone, hout⟩

end

end Program

end RuntimeTypes
