/-
Queries: what a compilation asks of a session.

A query runs on a `Workspace`, a session and the heap it looks at, and leaves one
behind also where it fails.  What the session has learnt before is not lost then,
and neither is a scope: `inScope` closes the one it opens however the reading ends,
and no query opens a second.

`resolve` is the heart of it.  A loaded handle is final, so it is handed out without
a look at the heap.  An unloaded one is not, so its class is looked at again, and
gets a second handle once it has been loaded.
-/
import RuntimeTypes.Session.Basic
import RuntimeTypes.Store

namespace RuntimeTypes

/-- A session and the heap it looks at. -/
structure Workspace (σ : Type) where
  /-- The session. -/
  session : Session
  /-- The heap. -/
  heap : Heap σ

/-- What a compilation asks. -/
abbrev Query (σ α : Type) := EStateM QueryFailure (Workspace σ) α

namespace Query

variable {σ α : Type}

/-- One query after another: the second runs on what the first leaves behind. -/
theorem bind_apply {β : Type} (q : Query σ α) (f : α → Query σ β) (w : Workspace σ) :
    (q >>= f) w = match q w with
      | .ok a next => f a next
      | .error e next => .error e next := by
  simp only [bind, EStateM.bind]
  cases q w <;> rfl

theorem bind_of_ok {β : Type} {q : Query σ α} {f : α → Query σ β} {w next : Workspace σ} {a : α}
    (h : q w = .ok a next) : (q >>= f) w = f a next := by
  rw [bind_apply, h]

/-- Ask the session, which stays as it is. -/
def ask (f : Session → Except QueryFailure α) : Query σ α := fun w =>
  match f w.session with
  | .ok a => .ok a w
  | .error e => .error e w

theorem ask_apply {w : Workspace σ} {f : Session → Except QueryFailure α} {a : α}
    (h : f w.session = .ok a) : ask f w = .ok a w := by
  unfold ask
  rw [h]

/-- Change the session, unless that fails. -/
def learn (f : Session → Except QueryFailure (α × Session)) : Query σ α := fun w =>
  match f w.session with
  | .ok (a, session) => .ok a { w with session := session }
  | .error e => .error e w

/-- The number of a name, which is remembered whatever comes after. -/
def intern (text : String) : Query σ NameId := learn fun s => s.intern text

/-- Count one request that found its loaded handle. -/
def countHit : Query σ Unit := fun w =>
  let stats := { w.session.stats with hits := w.session.stats.hits + 1 }
  .ok () { w with session := { w.session with stats := stats } }

/-- Read from the store. -/
def read (r : Read σ α) : Query σ α := fun w =>
  match w.heap.read r with
  | (.ok a, heap) => .ok a { w with heap := heap }
  | (.error e, heap) => .error (.heap e) { w with heap := heap }

/-- The workspace inside a scope that has just been opened at the gate. -/
def entered (w : Workspace σ) (gate : Gate) : Workspace σ :=
  let stats := { w.session.stats with scopesOpened := w.session.stats.scopesOpened + 1 }
  { session := { w.session with stats := stats }, heap := { w.heap with gate := gate } }

/-- The workspace after its scope has been closed. -/
def left (w : Workspace σ) : Workspace σ :=
  { w with heap := { w.heap with gate := w.heap.gate.leave } }

/-- Open a scope for a piece of reading, within the bound the options set, and close it however the
reading ends. -/
def inScope (body : Query σ α) : Query σ α := fun w =>
  match w.heap.gate.enter w.session.options.waitBound with
  | .error e => .error (.heap e) w
  | .ok gate =>
    match body (entered w gate) with
    | .ok a after => .ok a (left after)
    | .error e after => .error e (left after)

section

variable {body : Query σ α} {w after : Workspace σ} {gate : Gate}

theorem inScope_of_refused {e : HeapFailure}
    (h : w.heap.gate.enter w.session.options.waitBound = .error e) :
    inScope body w = .error (.heap e) w := by
  simp only [inScope, h]

theorem inScope_of_ok {a : α} (h : w.heap.gate.enter w.session.options.waitBound = .ok gate)
    (hbody : body (entered w gate) = .ok a after) : inScope body w = .ok a (left after) := by
  simp only [inScope, h, hbody]

theorem inScope_of_error {e : QueryFailure}
    (h : w.heap.gate.enter w.session.options.waitBound = .ok gate)
    (hbody : body (entered w gate) = .error e after) :
    inScope body w = .error e (left after) := by
  simp only [inScope, h, hbody]

end

/-- The loaded handle of a class object, if the session has one; that counts as a hit. -/
def remembered (id : Identity) : Query σ (Option HandleRef) := do
  match ← ask fun s => .ok (s.finalHandle? id) with
  | some r => do
    countHit
    pure (some r)
  | none => pure none

variable [MetadataSource σ]

/-- Take the snapshot of a loaded class, part by part. -/
def snapshot (id : Identity) (name : String) : Query σ Snapshot := do
  let record ← read (MetadataSource.ancestry id)
  let ancestry ← ask fun s =>
    (Ancestry.ofRecord record id name s.options.verifyRecords).mapError .heap
  let shape ← read (MetadataSource.shape id)
  let layout ← read (MetadataSource.layout id)
  let flags ← read (MetadataSource.flags id)
  let loader ← read (MetadataSource.loader id)
  let prototypeHeader ← read (MetadataSource.prototypeHeader id)
  pure
    { identity := id
      shape := shape
      layout := layout
      ancestry := ancestry
      flags := flags
      loader := loader
      prototypeHeader := prototypeHeader }

/-- Build a new handle for a class object. -/
def build (id : Identity) (state : LoadStatus) : Query σ HandleRef := do
  let text ← read (MetadataSource.name id)
  let name ← intern text
  let content ← match state with
    | .loaded => HandleState.loaded <$> snapshot id text
    | .unloaded => pure (HandleState.unloaded (some id) (BasicType.ofInternalName text))
  learn fun s => s.addClass id { name := name, externalName := externalName text, state := content }

/-- The handle of a class object, inside a scope. -/
def resolveInside (id : Identity) : Query σ HandleRef := do
  match ← remembered id with
  | some r => pure r
  | none => do
    let state ← read (MetadataSource.loadStatus id)
    match ← ask fun s => .ok (s.cached? id), state with
    | some r, .unloaded => pure r
    | _, _ => build id state

/-- The handle of a class object. -/
def resolve (id : Identity) : Query σ HandleRef := do
  match ← remembered id with
  | some r => pure r
  | none => inScope (resolveInside id)

/-- A class that is held as loaded is handed out without opening a scope. -/
theorem resolve_of_final {w : Workspace σ} {id : Identity} {r : HandleRef}
    (h : w.session.finalHandle? id = some r) :
    resolve id w = .ok r { w with session := { w.session with
      stats := { w.session.stats with hits := w.session.stats.hits + 1 } } } := by
  unfold resolve remembered
  simp only [bind_apply, ask, h]
  rfl

omit [MetadataSource σ] in
theorem remembered_of_none {w : Workspace σ} {id : Identity}
    (h : w.session.finalHandle? id = none) : remembered id w = .ok none w := by
  simp only [remembered, bind_apply, ask, h]
  rfl

omit [MetadataSource σ] in
/-- A placeholder for a type of which no more than the name is known.  The hint says whether it is
taken for an object or an array. -/
def placeholder (text : String) (hint : BasicType) : Query σ HandleRef := do
  if hint.isReference then
    let name ← intern text
    let shared? ← ask fun s =>
      .ok (if s.options.sharePlaceholders then s.placeholders.get? name else none)
    match shared? with
    | some r => pure r
    | none =>
      learn fun s => s.addPlaceholder
        { name := name, externalName := externalName text, state := .unloaded none hint }
  else
    throw (.precondition "resolve_unloaded" (.placeholderHint text hint))

/-- The class that a name means to the loader of `origin`, which has to be loaded. -/
def find (origin : HandleRef) (name : String) : Query σ HandleRef := do
  let loader ← ask fun s => (s.handle origin).bind Handle.loader
  inScope do
    match ← read (MetadataSource.find? loader name) with
    | some id => resolveInside id
    | none => throw (.notFound name)

/-- The class that a name means to the loader of `origin`, or else a placeholder. -/
def findOrPlaceholder (origin : HandleRef) (name : String) : Query σ HandleRef := fun w =>
  match find origin name w with
  | .error (.notFound _) after => placeholder name (BasicType.ofInternalName name) after
  | result => result

section

variable {origin : HandleRef} {name : String} {w after : Workspace σ}

theorem findOrPlaceholder_of_found {r : HandleRef} (h : find origin name w = .ok r after) :
    findOrPlaceholder origin name w = .ok r after := by
  simp only [findOrPlaceholder, h]

theorem findOrPlaceholder_of_missing {missing : String}
    (h : find origin name w = .error (.notFound missing) after) :
    findOrPlaceholder origin name w =
      placeholder name (BasicType.ofInternalName name) after := by
  simp only [findOrPlaceholder, h]

theorem findOrPlaceholder_of_error {e : QueryFailure} (h : find origin name w = .error e after)
    (he : ∀ missing, e ≠ .notFound missing) :
    findOrPlaceholder origin name w = .error e after := by
  unfold findOrPlaceholder
  rw [h]
  split
  · rename_i heq
    injection heq with hmissing
    exact absurd hmissing (he _)
  · rfl

end

omit [MetadataSource σ] in
/-- The handle of a primitive type. -/
def primitive (type : BasicType) : Query σ HandleRef := do
  if type.isReference then
    throw (.precondition "primitive" (.notPrimitive type))
  else
    match ← ask fun s => .ok (s.primitives.get? type) with
    | some r => pure r
    | none => do
      let name ← intern type.name
      learn fun s => s.addPrimitive type
        { name := name, externalName := type.name, state := .primitive type }

/-- The ancestor of a type in a display slot, if the slot is in use. -/
def ancestorAt (r : HandleRef) (depth : Nat) : Query σ (Option HandleRef) := do
  let c ← ask fun s => s.snapshot r "super_of_depth"
  match c.ancestry.superAt? depth with
  | some id => some <$> resolve id
  | none => pure none

/-- The deepest common class of two chains: one of the types themselves if it is an ancestor of the
other. -/
def commonAncestor (a b : HandleRef) : Query σ HandleRef := do
  let first ← ask fun s => s.snapshot a "least_common_ancestor"
  let second ← ask fun s => s.snapshot b "least_common_ancestor"
  if a = b ∨ first.isSubclass second then
    pure b
  else if second.isSubclass first then
    pure a
  else do
    let common ← ask fun _ => (first.commonAncestor second).mapError .heap
    resolve common

end Query

end RuntimeTypes
