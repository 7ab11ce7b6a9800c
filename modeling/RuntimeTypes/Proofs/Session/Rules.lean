/-
What the pieces of a query end in.

The rules for any run take a query apart at its binds.  What is left are the pieces
that are no binds: asking the session and changing it, a name, reading the store, a scope,
and the search that goes on with a placeholder.  Each has one rule here, which names
the ways it can end, and nothing below looks into a piece again.  A snapshot is taken in
many reads, but for most purposes it is a piece too, and has a rule besides.
-/
import RuntimeTypes.Proofs.Runs
import RuntimeTypes.Session.Request

namespace RuntimeTypes

namespace Session

/-- The failures of a request for which the session would have to add a handle with the name `text`
and has no room to: there is none for the handle, or there is none for the name. -/
inductive RunsOut (s : Session) (text : String) : QueryFailure → Prop
  | handles : s.IsFull → RunsOut s text (.exhausted s.options.handleBound)
  | names : s.names.find? text = none → NameTable.mostNames ≤ s.names.size →
      RunsOut s text (.exhausted s.names.size)

end Session

namespace Query

variable {σ α : Type} {w : Workspace σ} {ok : α → Workspace σ → Prop}
  {failed : QueryFailure → Workspace σ → Prop}

theorem ends_ask {f : Session → Except QueryFailure α}
    (hok : ∀ a, f w.session = .ok a → ok a w)
    (hfailed : ∀ e, f w.session = .error e → failed e w) : Ends (ask f) w ok failed := by
  unfold Ends ask
  cases hf : f w.session with
  | ok a => exact hok a hf
  | error e => exact hfailed e hf

/-- A change that fails is not made. -/
theorem ends_learn {f : Session → Except QueryFailure (α × Session)}
    (hok : ∀ a s, f w.session = .ok (a, s) → ok a { w with session := s })
    (hfailed : ∀ e, f w.session = .error e → failed e w) : Ends (learn f) w ok failed := by
  unfold Ends learn
  cases hf : f w.session with
  | ok made => exact hok made.1 made.2 hf
  | error e => exact hfailed e hf

/-- A name has the number its table gives it, unless the session has run out of numbers. -/
theorem ends_intern {text : String} {ok : NameId → Workspace σ → Prop}
    (hok : w.session.intern text = .ok ((w.session.names.intern text).1, w.session.met text) →
      ok (w.session.names.intern text).1 { w with session := w.session.met text })
    (hfailed : ∀ e, w.session.RunsOut text e → failed e w) : Ends (intern text) w ok failed := by
  refine ends_learn (fun name s hs => ?_) fun e he => ?_
  · obtain ⟨rfl, rfl⟩ := Session.intern_eq_ok hs
    exact hok hs
  · obtain ⟨hnew, hfull, rfl⟩ := Session.intern_eq_error he
    exact hfailed _ (.names hnew hfull)

/-- The store is handed back also where the reading fails. -/
theorem ends_read {r : Read σ α}
    (hok : ∀ a store, r w.heap.store = .ok a store →
      ok a { w with heap := { w.heap with store := store } })
    (hfailed : ∀ e store, r w.heap.store = .error e store →
      failed (.heap e) { w with heap := { w.heap with store := store } }) :
    Ends (read r) w ok failed := by
  unfold Ends read Heap.read
  cases hr : r w.heap.store with
  | ok a store => exact hok a store hr
  | error e store => exact hfailed e store hr

/-- Where the gate lets the query in, it is left again whatever has happened inside. -/
theorem ends_inScope {body : Query σ α}
    (hrefused : ∀ e, w.heap.gate.enter w.session.options.waitBound = .error e →
      failed (.heap e) w)
    (hbody : ∀ gate, w.heap.gate.enter w.session.options.waitBound = .ok gate →
      Ends body (entered w gate) (fun a after => ok a (left after))
        fun e after => failed e (left after)) : Ends (inScope body) w ok failed := by
  unfold Ends
  cases hgate : w.heap.gate.enter w.session.options.waitBound with
  | error e =>
      rw [inScope_of_refused hgate]
      exact hrefused e hgate
  | ok gate =>
      have hinside := hbody gate hgate
      cases hrun : body (entered w gate) with
      | ok a after =>
          rw [inScope_of_ok hgate hrun]
          exact hinside.of_ok hrun
      | error e after =>
          rw [inScope_of_error hgate hrun]
          exact hinside.of_error hrun

/-- A class that is held as loaded counts as a hit, and otherwise nothing has happened. -/
theorem ends_remembered {id : Identity} {ok : Option HandleRef → Workspace σ → Prop}
    (hsome : ∀ r, w.session.finalHandle? id = some r → ok (some r) { w with session :=
      { w.session with stats := { w.session.stats with hits := w.session.stats.hits + 1 } } })
    (hnone : w.session.finalHandle? id = none → ok none w) : Ends (remembered id) w ok failed := by
  unfold remembered
  have hlook : Ends (ask fun s => .ok (s.finalHandle? id)) w
      (fun r? w' => w.session.finalHandle? id = r? ∧ w' = w) fun _ _ => False :=
    ends_ask (fun _ h => ⟨Except.ok.inj h, rfl⟩) nofun
  refine hlook.bind ?_ fun _ _ h => h.elim
  rintro r? w' ⟨hfinal, rfl⟩
  cases r? with
  | some r => exact hsome r hfinal
  | none => exact hnone hfinal

/-- A record is taken over as the options say. -/
theorem ends_ofRecord {record : AncestryRecord} {id : Identity} {name : String}
    {ok : Ancestry → Workspace σ → Prop}
    (hok : ∀ a, Ancestry.ofRecord record id name w.session.options.verifyRecords = .ok a → ok a w)
    (hfailed : ∀ e, Ancestry.ofRecord record id name w.session.options.verifyRecords = .error e →
      failed (.heap e) w) :
    Ends (ask fun s => (Ancestry.ofRecord record id name s.options.verifyRecords).mapError .heap) w
      ok failed := by
  unfold Ends ask
  cases hr : Ancestry.ofRecord record id name w.session.options.verifyRecords with
  | ok a =>
      simp only [hr]
      exact hok a hr
  | error e =>
      simp only [hr]
      exact hfailed e hr

/-- A snapshot comes from a record that has been taken over.  Nothing is learnt by it, and it is the
heap that fails. -/
theorem ends_snapshot [MetadataSource σ] (id : Identity) (name : String) :
    Ends (snapshot id name) w
      (fun c w' => w'.session = w.session ∧ c.identity = id ∧ ∃ record,
        Ancestry.ofRecord record id name w.session.options.verifyRecords = .ok c.ancestry)
      fun e w' => w'.session = w.session ∧ ∃ failure, e = .heap failure := by
  have hread : ∀ {α : Type} (r : Read σ α) (w' : Workspace σ), w'.session = w.session →
      Ends (read r) w' (fun _ w'' => w''.session = w.session)
        fun e w'' => w''.session = w.session ∧ ∃ failure, e = .heap failure :=
    fun r w' h => ends_read (fun _ _ _ => h) fun e _ _ => ⟨h, e, rfl⟩
  refine (hread _ w rfl).bind (fun record w₁ h₁ => ?_) fun _ _ h => h
  have htake : Ends (ask fun s => (Ancestry.ofRecord record id name
      s.options.verifyRecords).mapError QueryFailure.heap) w₁
      (fun a w' => w'.session = w.session ∧
        Ancestry.ofRecord record id name w.session.options.verifyRecords = .ok a)
      fun e w' => w'.session = w.session ∧ ∃ failure, e = .heap failure :=
    ends_ofRecord (fun a ha => ⟨h₁, h₁ ▸ ha⟩) fun e _ => ⟨h₁, e, rfl⟩
  refine htake.bind ?_ fun _ _ h => h
  rintro ancestry w₂ ⟨h₂, hancestry⟩
  refine (hread _ w₂ h₂).bind (fun shape w₃ h₃ => ?_) fun _ _ h => h
  refine (hread _ w₃ h₃).bind (fun layout w₄ h₄ => ?_) fun _ _ h => h
  refine (hread _ w₄ h₄).bind (fun flags w₅ h₅ => ?_) fun _ _ h => h
  refine (hread _ w₅ h₅).bind (fun loader w₆ h₆ => ?_) fun _ _ h => h
  refine (hread _ w₆ h₆).bind (fun header w₇ h₇ => ?_) fun _ _ h => h
  exact ⟨h₇, rfl, record, hancestry⟩

variable [MetadataSource σ] {origin : HandleRef} {name : String}
  {ok : HandleRef → Workspace σ → Prop} {searched : QueryFailure → Workspace σ → Prop}

/-- Only a search that has missed the name is followed by a placeholder. -/
theorem ends_findOrPlaceholder (hfind : Ends (find origin name) w ok searched)
    (hmissing : ∀ missing after, searched (.notFound missing) after →
      Ends (placeholder name (BasicType.ofInternalName name)) after ok failed)
    (hfailed : ∀ e after, (∀ missing, e ≠ .notFound missing) → searched e after →
      failed e after) : Ends (findOrPlaceholder origin name) w ok failed := by
  unfold Ends
  cases hrun : find origin name w with
  | ok r after =>
      rw [findOrPlaceholder_of_found hrun]
      exact hfind.of_ok hrun
  | error e after =>
      have hsearched := hfind.of_error hrun
      by_cases hnotFound : ∃ missing, e = .notFound missing
      · obtain ⟨missing, rfl⟩ := hnotFound
        rw [findOrPlaceholder_of_missing hrun]
        exact hmissing missing after hsearched
      · have hother : ∀ missing, e ≠ .notFound missing :=
          fun missing he => hnotFound ⟨missing, he⟩
        rw [findOrPlaceholder_of_error hrun hother]
        exact hfailed e after hother hsearched

end Query

/-- Opening a scope takes up no room. -/
theorem Session.RunsOut.of_entered {σ : Type} {w : Workspace σ} {gate : Gate} {text : String}
    {e : QueryFailure} (h : (Query.entered w gate).session.RunsOut text e) :
    w.session.RunsOut text e := by
  cases h with
  | handles hfull => exact .handles hfull
  | names hnew hfull => exact .names hnew hfull

/-- What holds of the workspace however a request ends holds after it. -/
theorem Workspace.serve_of_ends {σ : Type} [MetadataSource σ] {w : Workspace σ} {request : Request}
    {P : Workspace σ → Prop} (h : Ends request.run w (fun _ w' => P w') fun _ w' => P w') :
    P (w.serve request).2 := by
  cases hrun : request.run w with
  | ok answer next =>
      rw [serve_of_ok hrun]
      exact h.of_ok hrun
  | error e next =>
      rw [serve_of_error hrun]
      exact h.of_error hrun

end RuntimeTypes
