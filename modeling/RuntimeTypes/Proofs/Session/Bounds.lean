/-
Queries that look where they take things from.

A session takes handles out of its arena, names out of its name table, a display out of a
chain and pieces out of texts, each at a place that it trusts.  Here the operations are
written out with the place looked at: where there is nothing to take, a `Checked` query
has no outcome at all, no answer and no failure either.  In a session with a history that
never happens, whatever the stores have answered, and what has an outcome has the one
that it has unchecked.

The places are in bounds for different reasons.  The index by identity leads into the arena,
and handles have names that have been met; both go on from move to move.  A display is no longer
than the chain because both are taken over together.  And the pieces of a text are
there whatever the text is.  A query can only add to the arena as its last piece, so it
finds things throughout as they were when it was asked.
-/
import RuntimeTypes.Proofs.Slices
import RuntimeTypes.Proofs.Session.Taking

namespace RuntimeTypes

/-! ### Queries that are checked -/

/-- What a compilation asks, without an outcome where something would be taken out of bounds. -/
def Checked (σ α : Type) := Workspace σ → Option (EStateM.Result QueryFailure (Workspace σ) α)

namespace Checked

open Query

variable {σ α β : Type}

/-- A query that takes nothing out. -/
def ofQuery (q : Query σ α) : Checked σ α := fun w => some (q w)

/-- Take something out of the session. -/
def access (f : Session → Option α) : Checked σ α := fun w => (f w.session).map (.ok · w)

instance : Monad (Checked σ) where
  pure a := ofQuery (pure a)
  bind q k := fun w =>
    match q w with
    | none => none
    | some (.ok a next) => k a next
    | some (.error e next) => some (.error e next)

/-- Open a scope for a piece of reading, and close it if the reading has ended. -/
def inScope (body : Checked σ α) : Checked σ α := fun w =>
  match w.heap.gate.enter w.session.options.waitBound with
  | .error e => some (.error (.heap e) w)
  | .ok gate =>
    match body (entered w gate) with
    | none => none
    | some (.ok a after) => some (.ok a (left after))
    | some (.error e after) => some (.error e (left after))

/-- The loaded handle of a class object, looked up in the arena. -/
def finalHandle? (s : Session) (id : Identity) : Option (Option HandleRef) :=
  match s.byIdentity.get? id with
  | none => some none
  | some r => (s.handles[r.index]?).map fun h => if h.isLoaded then some r else none

/-- The internal name of a type, looked up in the table of names. -/
def nameText (s : Session) (r : HandleRef) : Option (Except QueryFailure String) :=
  match s.handle r with
  | .error e => some (.error e)
  | .ok h => (s.names.text? h.name).map .ok

/-- A type in one line: its internal name, and whether it is loaded. -/
def describe (s : Session) (r : HandleRef) : Option (Except QueryFailure String) :=
  match s.handle r with
  | .error e => some (.error e)
  | .ok h => (s.names.text? h.name).map fun name =>
    .ok ("name=" ++ name ++ " loaded=" ++ if h.isLoaded then "true" else "false")

/-- The front part of the chain that is in the display. -/
def display (a : Ancestry) : Option (List Identity) :=
  if a.displayLength ≤ a.chain.length then some (a.chain.take a.displayLength) else none

/-- The ancestor in display slot `depth`. -/
def superAt? (a : Ancestry) (depth : Nat) : Option (Option Identity) :=
  (display a).map (·[depth]?)

/-- Whether a class is a subtype of another. -/
def subtype (sub sup : Snapshot) : Option Bool :=
  if sub.identity = sup.identity then
    some true
  else
    match sup.ancestry.checkTarget with
    | .display depth => (superAt? sub.ancestry depth).map fun id? => id? = some sup.identity
    | .secondary => some (sub.ancestry.secondary.contains sup.identity)

/-- The loaded handle of a class object, if the session has one; that counts as a hit. -/
def remembered (id : Identity) : Checked σ (Option HandleRef) := do
  match ← access fun s => finalHandle? s id with
  | some r => do
    ofQuery countHit
    pure (some r)
  | none => pure none

/-- A placeholder for a type of which no more than the name is known. -/
def placeholder (text : String) (hint : BasicType) : Checked σ HandleRef := do
  if hint.isReference then
    let name ← ofQuery (intern text)
    let shared? ← ofQuery (ask fun s =>
      .ok (if s.options.sharePlaceholders then s.placeholders.get? name else none))
    match shared? with
    | some r => pure r
    | none => do
      let external ← access fun _ => ExternalName.spell? text
      ofQuery (learn fun s => s.addPlaceholder
        { name := name, externalName := external, state := .unloaded none hint })
  else
    ofQuery (throw (.precondition "resolve_unloaded" (.placeholderHint text hint)))

/-- Whether type `a` is a subtype of type `b`. -/
def isSubtype (a b : HandleRef) : Checked σ Bool := do
  let sub ← ofQuery (ask fun s => s.snapshot a "is_subtype_of")
  let sup ← ofQuery (ask fun s => s.snapshot b "is_subtype_of")
  if a = b then pure true else access fun _ => subtype sub sup

variable [MetadataSource σ]

/-- Build a new handle for a class object. -/
def build (id : Identity) (state : LoadStatus) : Checked σ HandleRef := do
  let text ← ofQuery (read (MetadataSource.name id))
  let name ← ofQuery (intern text)
  let content ← match state with
    | .loaded => ofQuery (HandleState.loaded <$> snapshot id text)
    | .unloaded => pure (HandleState.unloaded (some id) (BasicType.ofInternalName text))
  let external ← access fun _ => ExternalName.spell? text
  ofQuery (learn fun s => s.addClass id { name := name, externalName := external, state := content })

/-- The handle of a class object, inside a scope. -/
def resolveInside (id : Identity) : Checked σ HandleRef := do
  match ← remembered id with
  | some r => pure r
  | none => do
    let state ← ofQuery (read (MetadataSource.loadStatus id))
    match ← ofQuery (ask fun s => .ok (s.cached? id)), state with
    | some r, .unloaded => pure r
    | _, _ => build id state

/-- The handle of a class object. -/
def resolve (id : Identity) : Checked σ HandleRef := do
  match ← remembered id with
  | some r => pure r
  | none => inScope (resolveInside id)

/-- The class that a name means to the loader of `origin`, which has to be loaded. -/
def find (origin : HandleRef) (name : String) : Checked σ HandleRef := do
  let loader ← ofQuery (ask fun s => (s.handle origin).bind Handle.loader)
  inScope do
    match ← ofQuery (read (MetadataSource.find? loader name)) with
    | some id => resolveInside id
    | none => ofQuery (throw (.notFound name))

/-- The class that a name means to the loader of `origin`, or else a placeholder. -/
def findOrPlaceholder (origin : HandleRef) (name : String) : Checked σ HandleRef := fun w =>
  match find origin name w with
  | some (.error (.notFound _) after) => placeholder name (BasicType.ofInternalName name) after
  | result => result

/-- The ancestor of a type in a display slot, if the slot is in use. -/
def ancestorAt (r : HandleRef) (depth : Nat) : Checked σ (Option HandleRef) := do
  let c ← ofQuery (ask fun s => s.snapshot r "super_of_depth")
  match ← access fun _ => superAt? c.ancestry depth with
  | some id => some <$> resolve id
  | none => pure none

/-- The deepest common class of two chains. -/
def commonAncestor (a b : HandleRef) : Checked σ HandleRef := do
  let first ← ofQuery (ask fun s => s.snapshot a "least_common_ancestor")
  let second ← ofQuery (ask fun s => s.snapshot b "least_common_ancestor")
  if a = b ∨ first.isSubclass second then
    pure b
  else if second.isSubclass first then
    pure a
  else do
    let common ← ofQuery (ask fun _ => (first.commonAncestor second).mapError .heap)
    resolve common

/-- Carry a request out. -/
def run : Request → Checked σ Answer
  | .resolve id => Answer.type <$> resolve id
  | .placeholder name hint => Answer.type <$> placeholder name hint
  | .find origin name => Answer.type <$> find origin name
  | .findOrPlaceholder origin name => Answer.type <$> findOrPlaceholder origin name
  | .primitive type => Answer.type <$> ofQuery (Query.primitive type)
  | .isSubtype a b => Answer.truth <$> isSubtype a b
  | .isSubclass a b => Answer.truth <$> ofQuery (ask fun s => s.isSubclass a b)
  | .ancestorAt r depth => Answer.type? <$> ancestorAt r depth
  | .commonAncestor a b => Answer.type <$> commonAncestor a b

end Checked

/-! ### What is there to take -/

namespace Session

/-- What is taken out of the session is there. -/
structure Sheltered (s : Session) : Prop where
  /-- The index by identity leads into the arena. -/
  indexed : ∀ id r, s.byIdentity.get? id = some r → r.index < s.handles.size
  /-- The name of a handle is in the table of names. -/
  named : ∀ r h, s.handle r = .ok h → ∃ text, s.names.text? h.name = some text
  /-- No display is longer than the chain it is a part of. -/
  display : ∀ r c, s.Holds r c → c.ancestry.displayLength ≤ c.ancestry.chain.length

/-- Numbers and counters do not matter. -/
theorem Sheltered.entered {σ : Type} {w : Workspace σ} (h : w.session.Sheltered) (gate : Gate) :
    (Query.entered w gate).session.Sheltered :=
  ⟨h.indexed, h.named, h.display⟩

end Session

namespace Checked

open Query

variable {σ α β : Type} {w : Workspace σ}

/-- The checked query has an outcome, the one that it has unchecked. -/
def InBounds (c : Checked σ α) (q : Query σ α) (w : Workspace σ) : Prop := c w = some (q w)

/-! ### The rules -/

namespace InBounds

variable {c : Checked σ α} {q : Query σ α}

theorem ofQuery (q : Query σ α) : InBounds (.ofQuery q) q w := rfl

theorem pure (a : α) : InBounds (Pure.pure a) (Pure.pure a) w := rfl

theorem access {f : Session → Option α} {a : α} (h : f w.session = some a) (hq : q w = .ok a w) :
    InBounds (.access f) q w := by
  unfold InBounds Checked.access
  rw [h, hq]
  rfl

theorem access_bind {f : Session → Option β} {b : β} {k : β → Checked σ α}
    (h : f w.session = some b) (hk : InBounds (k b) q w) : InBounds (.access f >>= k) q w := by
  unfold InBounds at hk ⊢
  simp only [Bind.bind, Checked.access, h]
  exact hk

/-- One query after another: the second is only looked at where it is run. -/
theorem bind {c' : α → Checked σ β} {k : α → Query σ β} (h : InBounds c q w)
    (hk : ∀ a w', q w = .ok a w' → InBounds (c' a) (k a) w') : InBounds (c >>= c') (q >>= k) w := by
  unfold InBounds at h ⊢
  rw [bind_apply]
  simp only [Bind.bind, h]
  cases hq : q w with
  | ok a w' => exact hk a w' hq
  | error e w' => rfl

/-- Asking the session changes nothing. -/
theorem ask_bind {f : Session → Except QueryFailure α} {c' : α → Checked σ β} {k : α → Query σ β}
    (hk : ∀ a, f w.session = .ok a → InBounds (c' a) (k a) w) :
    InBounds (.ofQuery (ask f) >>= c') (ask f >>= k) w := by
  refine (ofQuery _).bind fun a w' hw' => ?_
  unfold ask at hw'
  split at hw'
  · rename_i a' ha
    obtain ⟨rfl, rfl⟩ := EStateM.Result.ok.inj hw'
    exact hk a' ha
  · cases hw'

theorem map {f : α → β} (h : InBounds c q w) : InBounds (f <$> c) (f <$> q) w := by
  unfold InBounds at h ⊢
  simp only [Functor.map, EStateM.map, h]
  cases q w <;> rfl

theorem inScope (h : ∀ gate, InBounds c q (entered w gate)) :
    InBounds (.inScope c) (Query.inScope q) w := by
  unfold InBounds Checked.inScope Query.inScope
  cases w.heap.gate.enter w.session.options.waitBound with
  | error e => rfl
  | ok gate =>
      have hbody : c (entered w gate) = some (q (entered w gate)) := h gate
      simp only [hbody]
      cases q (entered w gate) <;> rfl

end InBounds

/-! ### What looks at the session -/

section

variable {s : Session}

theorem finalHandle?_eq (h : s.Sheltered) (id : Identity) :
    finalHandle? s id = some (s.finalHandle? id) := by
  unfold finalHandle? Session.finalHandle?
  cases hr : s.byIdentity.get? id with
  | none => rfl
  | some r =>
      have hi := Array.getElem?_eq_getElem (h.indexed id r hr)
      simp [hi, Option.filter]

theorem nameText_eq (h : s.Sheltered) (r : HandleRef) : nameText s r = some (s.nameText r) := by
  unfold nameText Session.nameText
  cases hr : s.handle r with
  | error e => rfl
  | ok hd =>
      obtain ⟨text, htext⟩ := h.named r hd hr
      simp [htext, bind, Except.bind]

theorem describe_eq (h : s.Sheltered) (r : HandleRef) : describe s r = some (s.describe r) := by
  unfold describe Session.describe Session.nameText
  cases hr : s.handle r with
  | error e => rfl
  | ok hd =>
      obtain ⟨text, htext⟩ := h.named r hd hr
      simp [htext, bind, Except.bind]

end

theorem superAt?_eq {a : Ancestry} (h : a.displayLength ≤ a.chain.length) (depth : Nat) :
    superAt? a depth = some (a.superAt? depth) := by
  simp [superAt?, display, h, Ancestry.superAt?, Ancestry.display]

/-- A longer one cannot. -/
example : superAt? ⟨[], 1, [], true, 0, .secondary⟩ 0 = none := by decide

theorem subtype_eq {sub : Snapshot} (h : sub.ancestry.displayLength ≤ sub.ancestry.chain.length)
    (sup : Snapshot) : subtype sub sup = some (sub.isSubtype sup) := by
  unfold subtype Snapshot.isSubtype
  split
  · rfl
  · cases sup.ancestry.checkTarget with
    | display depth => simp [superAt?_eq h]
    | secondary => rfl

/-! ### The requests -/

theorem remembered_inBounds (h : w.session.Sheltered) (id : Identity) :
    InBounds (remembered id) (Query.remembered id) w := by
  have hlook : InBounds (access fun s => finalHandle? s id)
      (ask fun s => .ok (s.finalHandle? id)) w :=
    .access (finalHandle?_eq h id) (ask_apply rfl)
  refine hlook.bind fun r? w' _ => ?_
  cases r? with
  | none => exact .pure none
  | some r => exact (InBounds.ofQuery countHit).bind fun _ _ _ => .pure (some r)

/-- Any text has an external name, so a placeholder needs nothing of the session. -/
theorem placeholder_inBounds (text : String) (hint : BasicType) :
    InBounds (placeholder text hint) (Query.placeholder text hint) w := by
  unfold placeholder Query.placeholder
  split
  · refine (InBounds.ofQuery _).bind fun name w₁ _ => ?_
    refine (InBounds.ofQuery _).bind fun shared? w₂ _ => ?_
    cases shared? with
    | some r => exact .pure r
    | none => exact .access_bind (ExternalName.spell?_eq text) (.ofQuery _)
  · exact .ofQuery _

theorem isSubtype_inBounds (h : w.session.Sheltered) (a b : HandleRef) :
    InBounds (isSubtype a b) (ask fun s => s.isSubtype a b) w := by
  have hsteps : ask (fun s => s.isSubtype a b) w = (do
      let sub ← ask fun s => s.snapshot a "is_subtype_of"
      let sup ← ask fun s => s.snapshot b "is_subtype_of"
      pure (a = b || sub.isSubtype sup)) w := by
    simp only [bind_apply, ask, Session.isSubtype]
    cases w.session.snapshot a "is_subtype_of" with
    | error e => rfl
    | ok sub =>
        simp only
        cases w.session.snapshot b "is_subtype_of" <;> rfl
  unfold InBounds
  rw [hsteps]
  refine InBounds.ask_bind fun sub hsub => InBounds.ask_bind fun sup _ => ?_
  by_cases hab : a = b
  · simp only [hab, if_true, decide_true, Bool.true_or]
    exact .pure true
  · simp only [hab, if_false, decide_false, Bool.false_or]
    exact .access (subtype_eq (h.display a sub (Session.holds_of_snapshot hsub)) sup) rfl

variable [MetadataSource σ]

theorem build_inBounds (id : Identity) (state : LoadStatus) :
    InBounds (build id state) (Query.build id state) w := by
  refine (InBounds.ofQuery _).bind fun text w₁ _ => ?_
  refine (InBounds.ofQuery _).bind fun name w₂ _ => ?_
  cases state with
  | loaded =>
      refine (InBounds.ofQuery _).bind fun content w₃ _ => ?_
      exact .access_bind (ExternalName.spell?_eq text) (.ofQuery _)
  | unloaded =>
      refine (InBounds.pure _).bind fun content w₃ _ => ?_
      exact .access_bind (ExternalName.spell?_eq text) (.ofQuery _)

theorem resolveInside_inBounds (h : w.session.Sheltered) (id : Identity) :
    InBounds (resolveInside id) (Query.resolveInside id) w := by
  refine (remembered_inBounds h id).bind fun r? w₁ _ => ?_
  cases r? with
  | some r => exact .pure r
  | none =>
      refine (InBounds.ofQuery _).bind fun state w₂ _ => ?_
      refine (InBounds.ofQuery _).bind fun cached? w₃ _ => ?_
      cases cached? with
      | none => exact build_inBounds id state
      | some r =>
          cases state with
          | loaded => exact build_inBounds id .loaded
          | unloaded => exact .pure r

theorem resolve_inBounds (h : w.session.Sheltered) (id : Identity) :
    InBounds (resolve id) (Query.resolve id) w := by
  have hends : Ends (Query.remembered id) w (fun r? w' => r? = none → w' = w) fun _ _ => True :=
    ends_remembered (fun _ _ => nofun) fun _ _ => rfl
  refine (remembered_inBounds h id).bind fun r? w₁ hr => ?_
  cases r? with
  | some r => exact .pure r
  | none =>
      -- Where nothing is found, the scope opens on the session that was asked.
      obtain rfl := hends.of_ok hr rfl
      exact .inScope fun gate => resolveInside_inBounds (h.entered gate) id

theorem find_inBounds (h : w.session.Sheltered) (origin : HandleRef) (name : String) :
    InBounds (find origin name) (Query.find origin name) w := by
  refine .ask_bind fun loader _ => .inScope fun gate => ?_
  refine (InBounds.ofQuery _).bind fun id? w₁ hread => ?_
  cases id? with
  | none => exact .ofQuery _
  | some id =>
      have hsame : w₁.session = (entered w gate).session := (Ends.of_ok (read_moving _) hread).2
      refine resolveInside_inBounds ?_ id
      rw [hsame]
      exact h.entered gate

theorem findOrPlaceholder_inBounds (h : w.session.Sheltered) (origin : HandleRef) (name : String) :
    InBounds (findOrPlaceholder origin name) (Query.findOrPlaceholder origin name) w := by
  have hfind : find origin name w = some (Query.find origin name w) := find_inBounds h origin name
  unfold InBounds findOrPlaceholder Query.findOrPlaceholder
  rw [hfind]
  split
  · rename_i heq
    rw [Option.some.inj heq]
    exact placeholder_inBounds name _
  · rename_i hother
    split
    · rename_i heq
      exact absurd (congrArg some heq) (hother _ _)
    · rfl

theorem ancestorAt_inBounds (h : w.session.Sheltered) (r : HandleRef) (depth : Nat) :
    InBounds (ancestorAt r depth) (Query.ancestorAt r depth) w := by
  refine .ask_bind fun c hc => ?_
  have hdisplay := h.display r c (Session.holds_of_snapshot hc)
  refine .access_bind (superAt?_eq hdisplay depth) ?_
  cases c.ancestry.superAt? depth with
  | none => exact .pure none
  | some id => exact (resolve_inBounds h id).map

theorem commonAncestor_inBounds (h : w.session.Sheltered) (a b : HandleRef) :
    InBounds (commonAncestor a b) (Query.commonAncestor a b) w := by
  refine .ask_bind fun first _ => .ask_bind fun second _ => ?_
  split
  · exact .pure b
  · split
    · exact .pure a
    · exact .ask_bind fun common _ => resolve_inBounds h common

theorem run_inBounds (h : w.session.Sheltered) (request : Request) :
    InBounds (run request) request.run w := by
  cases request with
  | resolve id => exact (resolve_inBounds h id).map
  | placeholder name hint => exact (placeholder_inBounds name hint).map
  | find origin name => exact (find_inBounds h origin name).map
  | findOrPlaceholder origin name => exact (findOrPlaceholder_inBounds h origin name).map
  | primitive type => exact (InBounds.ofQuery _).map
  | isSubtype a b => exact (isSubtype_inBounds h a b).map
  | isSubclass a b => exact (InBounds.ofQuery _).map
  | ancestorAt r depth => exact (ancestorAt_inBounds h r depth).map
  | commonAncestor a b => exact (commonAncestor_inBounds h a b).map

end Checked

/-! ### Sessions with a history -/

theorem Snapshot.ofRecords_displayLength :
    Snapshot.OfRecords fun _ c => c.ancestry.displayLength ≤ c.ancestry.chain.length := by
  intro record c name verify h
  obtain ⟨-, hshows, -⟩ := Ancestry.ofRecord_eq_ok_iff.mp h
  rw [hshows.displayLength, hshows.chain]
  exact Nat.min_le_left _ _

namespace Session

variable {σ : Type} [MetadataSource σ] {s : Session}

theorem sheltered_through (number : Nat) (options : Options) (steps : List (Heap σ × Request)) :
    ((start number options).through steps).Sheltered := by
  obtain ⟨hordered, hlisted⟩ := Moves.keeps (through_moves (start number options) steps)
  refine ⟨fun id r hr => ?_, fun r h hr => ?_, ?_⟩
  · obtain ⟨loaded, hof⟩ := hordered.own hr
    exact hof.index_lt
  · obtain ⟨text, htext⟩ := hlisted.named hr
    exact ⟨text, NameTable.text?_of_find? htext⟩
  · exact (HoldsOnly.through Snapshot.ofRecords_displayLength
      (holdsOnly_start number options) steps).2

/-- Nothing that is asked of the session takes anything out of bounds, with references of whatever
session: looked at or not, places make no difference. -/
structure Unfailing (σ : Type) [MetadataSource σ] (s : Session) : Prop where
  /-- A request ends in an answer or in a failure, the one that it ends in unchecked. -/
  requests : ∀ (heap : Heap σ) (request : Request),
    Checked.run request ⟨s, heap⟩ = some (request.run ⟨s, heap⟩)
  /-- A handle of the session has a name there. -/
  names : ∀ r, Checked.nameText s r = some (s.nameText r)
  /-- So it can be described. -/
  descriptions : ∀ r, Checked.describe s r = some (s.describe r)
  /-- The display of a class can be cut out of its chain. -/
  displays : ∀ r c, s.Holds r c → Checked.display c.ancestry = some c.ancestry.display

theorem Sheltered.unfailing (h : s.Sheltered) : s.Unfailing σ where
  requests := fun _ request => Checked.run_inBounds h request
  names := Checked.nameText_eq h
  descriptions := Checked.describe_eq h
  displays := fun r c hr => if_pos (h.display r c hr)

/-- **Accesses are in bounds**: whatever a session has been asked, and whatever the stores have
answered, the next request has an outcome, and so has whatever looks at the session alone.  The same
holds of spelling any text with slices. -/
theorem through_unfailing (number : Nat) (options : Options) (steps : List (Heap σ × Request)) :
    ((start number options).through steps).Unfailing σ ∧
      ∀ text, ExternalName.spell? text = some (externalName text) :=
  ⟨(sheltered_through number options steps).unfailing, ExternalName.spell?_eq⟩

end Session

end RuntimeTypes
