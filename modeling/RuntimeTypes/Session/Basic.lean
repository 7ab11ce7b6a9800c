/-
A session: what one compilation has learnt about types.

Handles stand in an arena, to which a session only ever adds.  Four indexes lead
into it: by identity, by name, to the placeholders of names without a class object,
and to the primitive types.  Where an identity or a name comes to have a loaded
handle beside an unloaded one, its index leads to the loaded one from then on.

Everything here works on the session alone.  `addHandle` is the only way to a new
handle and `intern` the only way to a new name, so the bounds on their numbers are
checked there and nowhere else.
-/
import RuntimeTypes.Handle
import RuntimeTypes.Index
import RuntimeTypes.Options
import RuntimeTypes.ExternalName
import RuntimeTypes.Session.Supertypes

namespace RuntimeTypes

/-- What has happened in a session. -/
structure SessionStats where
  /-- Requests for a class that found its loaded handle. -/
  hits : Nat := 0
  /-- Scopes opened. -/
  scopesOpened : Nat := 0
  /-- Handles built from reads. -/
  built : Nat := 0
  /-- Unloaded handles that got a loaded one beside them. -/
  superseded : Nat := 0
  deriving DecidableEq, Repr

/-- What one compilation has learnt about types. -/
structure Session where
  /-- The session's number, which its references carry. -/
  number : Nat
  /-- The settings. -/
  options : Options := {}
  /-- The names met so far. -/
  names : NameTable := {}
  /-- The arena. -/
  handles : Array Handle := #[]
  /-- The best handle of each class object. -/
  byIdentity : Index Identity HandleRef := {}
  /-- The shared placeholder of each name. -/
  placeholders : Index NameId HandleRef := {}
  /-- The best handle of each name. -/
  byName : Index NameId HandleRef := {}
  /-- The handle of each primitive type. -/
  primitives : Index BasicType HandleRef := {}
  /-- The counters. -/
  stats : SessionStats := {}
  deriving Repr

namespace Session

/-- A session that has not been asked anything. -/
def start (number : Nat) (options : Options) : Session :=
  { number := number, options := options }

/-- Number of handles. -/
def size (s : Session) : Nat := s.handles.size

/-! ### Looking at handles -/

/-- The handle of a reference, which has to be the session's own. -/
def handle (s : Session) (r : HandleRef) : Except QueryFailure Handle :=
  if r.session ≠ s.number then
    .error (.precondition "get" (.foreignRef r.session s.number))
  else
    match s.handles[r.index]? with
    | some h => .ok h
    | none => .error (.precondition "get" (.danglingRef r.index))

theorem handle_eq_ok {s : Session} {r : HandleRef} {h : Handle} :
    s.handle r = .ok h ↔ r.session = s.number ∧ s.handles[r.index]? = some h := by
  unfold handle
  by_cases hn : r.session = s.number
  · rw [if_neg (by simp [hn])]
    split <;> rename_i hh <;> simp [hn, hh]
  · rw [if_pos (by simpa using hn)]
    simp [hn]

/-- The snapshot of a loaded class, which `operation` cannot do without. -/
def snapshot (s : Session) (r : HandleRef) (operation : String) : Except QueryFailure Snapshot := do
  let h ← s.handle r
  h.loaded operation

/-- The internal name of a type. -/
def nameText (s : Session) (r : HandleRef) : Except QueryFailure String := do
  let h ← s.handle r
  .ok ((s.names.text? h.name).getD "")

/-- A type in one line: its internal name, and whether it is loaded. -/
def describe (s : Session) (r : HandleRef) : Except QueryFailure String := do
  let h ← s.handle r
  let name ← s.nameText r
  .ok ("name=" ++ name ++ " loaded=" ++ if h.isLoaded then "true" else "false")

/-- The best handle of a class object so far. -/
def cached? (s : Session) (id : Identity) : Option HandleRef := s.byIdentity.get? id

/-- The best handle of a name so far. -/
def cachedByName? (s : Session) (name : String) : Option HandleRef :=
  (s.names.find? name).bind s.byName.get?

/-- The loaded handle of a class object. -/
def finalHandle? (s : Session) (id : Identity) : Option HandleRef :=
  (s.byIdentity.get? id).filter fun r => ((s.handles[r.index]?).map (·.isLoaded)).getD false

/-! ### Supertypes -/

/-- Whether type `a` is a subtype of type `b`. -/
def isSubtype (s : Session) (a b : HandleRef) : Except QueryFailure Bool := do
  let sub ← s.snapshot a "is_subtype_of"
  let sup ← s.snapshot b "is_subtype_of"
  .ok (a = b || sub.isSubtype sup)

/-- Whether type `b` is on the chain of type `a`, or `a` itself. -/
def isSubclass (s : Session) (a b : HandleRef) : Except QueryFailure Bool := do
  let sub ← s.snapshot a "is_subclass_of"
  let sup ← s.snapshot b "is_subclass_of"
  .ok (a = b || sub.isSubclass sup)

/-! ### Learning -/

/-- The session once it has met a name. -/
def met (s : Session) (text : String) : Session :=
  { s with names := (s.names.intern text).2 }

/-- The number of a name, which is remembered, unless all numbers are given out. -/
def intern (s : Session) (text : String) : Except QueryFailure (NameId × Session) :=
  match s.names.intern? text with
  | some (name, names) => .ok (name, { s with names := names })
  | none => .error (.exhausted s.names.size)

theorem intern_eq_ok {s next : Session} {text : String} {name : NameId}
    (eq : s.intern text = .ok (name, next)) :
    name = (s.names.intern text).1 ∧ next = s.met text := by
  unfold intern at eq
  split at eq
  · rename_i h
    obtain ⟨rfl, rfl⟩ := Prod.mk.inj (Except.ok.inj eq)
    have hmade := NameTable.eq_intern_of_intern? h
    exact ⟨congrArg Prod.fst hmade, congrArg (fun made => { s with names := made.2 }) hmade⟩
  · cases eq

theorem intern_eq_error {s : Session} {text : String} {e : QueryFailure}
    (eq : s.intern text = .error e) :
    s.names.find? text = none ∧ NameTable.mostNames ≤ s.names.size ∧
      e = .exhausted s.names.size := by
  unfold intern at eq
  split at eq
  · cases eq
  · rename_i h
    obtain ⟨hnew, hfull⟩ := NameTable.intern?_eq_none_iff.mp h
    exact ⟨hnew, hfull, (Except.error.inj eq).symm⟩

/-- Whether there is no room for a further handle: the session holds as many as it may, or as many as
references of 32 bits can tell apart. -/
def IsFull (s : Session) : Prop :=
  s.options.handleBound ≤ s.handles.size ∨ UInt32.size ≤ s.handles.size

instance (s : Session) : Decidable s.IsFull := inferInstanceAs (Decidable (_ ∨ _))

/-- A new handle, unless there is no room for it. -/
def addHandle (s : Session) (h : Handle) : Except QueryFailure (HandleRef × Session) :=
  if s.IsFull then
    .error (.exhausted s.options.handleBound)
  else
    .ok (⟨s.number, s.handles.size⟩, { s with handles := s.handles.push h })

/-- A new handle goes to the end of the arena, where there is room for it.  Nothing else changes, and
what comes next goes on from there. -/
theorem addHandle_bind_eq_ok {α : Type} {s : Session} {h : Handle} {a : α}
    {k : HandleRef × Session → Except QueryFailure α} (eq : s.addHandle h >>= k = .ok a) :
    ¬s.IsFull ∧
      k (⟨s.number, s.handles.size⟩, { s with handles := s.handles.push h }) = .ok a := by
  unfold addHandle at eq
  split at eq
  · cases eq
  · rename_i hroom
    exact ⟨hroom, eq⟩

/-- Where what comes next cannot fail, no room is all that can be the matter. -/
theorem addHandle_bind_eq_error {α : Type} {s : Session} {h : Handle} {e : QueryFailure}
    {k : HandleRef × Session → Except QueryFailure α} (hk : ∀ made, ∃ a, k made = .ok a)
    (eq : s.addHandle h >>= k = .error e) :
    s.IsFull ∧ e = .exhausted s.options.handleBound := by
  unfold addHandle at eq
  split at eq
  · rename_i hfull
    exact ⟨hfull, (Except.error.inj eq).symm⟩
  · obtain ⟨a, hka⟩ := hk (⟨s.number, s.handles.size⟩, { s with handles := s.handles.push h })
    cases hka.symm.trans eq

/-- A new handle for a class object.  A loaded one becomes the best of its name; an unloaded one only
where the name has none. -/
def addClass (s : Session) (id : Identity) (h : Handle) :
    Except QueryFailure (HandleRef × Session) := do
  let (r, grown) ← s.addHandle h
  let superseded := if h.isLoaded ∧ (s.byIdentity.get? id).isSome then 1 else 0
  .ok (r,
    { grown with
      byIdentity := s.byIdentity.insert id r
      byName := if h.isLoaded then s.byName.insert h.name r else s.byName.insertIfNew h.name r
      stats :=
        { s.stats with
          built := s.stats.built + 1
          superseded := s.stats.superseded + superseded } })

/-- A new placeholder, which later requests for the name share if the options say so. -/
def addPlaceholder (s : Session) (h : Handle) : Except QueryFailure (HandleRef × Session) := do
  let (r, grown) ← s.addHandle h
  .ok (r,
    { grown with
      placeholders :=
        if s.options.sharePlaceholders then s.placeholders.insert h.name r else s.placeholders
      byName := s.byName.insertIfNew h.name r })

/-- A new handle for a primitive type. -/
def addPrimitive (s : Session) (type : BasicType) (h : Handle) :
    Except QueryFailure (HandleRef × Session) := do
  let (r, grown) ← s.addHandle h
  .ok (r, { grown with primitives := s.primitives.insert type r })

/-- A further handle of a class is indexed, and counted. -/
theorem addClass_eq_ok {s next : Session} {id : Identity} {h : Handle} {r : HandleRef}
    (eq : s.addClass id h = .ok (r, next)) :
    r = ⟨s.number, s.handles.size⟩ ∧ next =
      { s with
        handles := s.handles.push h
        byIdentity := s.byIdentity.insert id r
        byName := if h.isLoaded then s.byName.insert h.name r else s.byName.insertIfNew h.name r
        stats :=
          { s.stats with
            built := s.stats.built + 1
            superseded :=
              s.stats.superseded + if h.isLoaded ∧ (s.byIdentity.get? id).isSome then 1 else 0 } } := by
  obtain ⟨-, hmade⟩ := addHandle_bind_eq_ok eq
  obtain ⟨rfl, rfl⟩ := Prod.mk.inj (Except.ok.inj hmade)
  exact ⟨rfl, rfl⟩

/-- A further placeholder is indexed if it is to be shared. -/
theorem addPlaceholder_eq_ok {s next : Session} {h : Handle} {r : HandleRef}
    (eq : s.addPlaceholder h = .ok (r, next)) :
    r = ⟨s.number, s.handles.size⟩ ∧ next =
      { s with
        handles := s.handles.push h
        placeholders :=
          if s.options.sharePlaceholders then s.placeholders.insert h.name r else s.placeholders
        byName := s.byName.insertIfNew h.name r } := by
  obtain ⟨-, hmade⟩ := addHandle_bind_eq_ok eq
  obtain ⟨rfl, rfl⟩ := Prod.mk.inj (Except.ok.inj hmade)
  exact ⟨rfl, rfl⟩

/-- The handle of a primitive type is indexed. -/
theorem addPrimitive_eq_ok {s next : Session} {type : BasicType} {h : Handle} {r : HandleRef}
    (eq : s.addPrimitive type h = .ok (r, next)) :
    r = ⟨s.number, s.handles.size⟩ ∧ next =
      { s with
        handles := s.handles.push h
        primitives := s.primitives.insert type r } := by
  obtain ⟨-, hmade⟩ := addHandle_bind_eq_ok eq
  obtain ⟨rfl, rfl⟩ := Prod.mk.inj (Except.ok.inj hmade)
  exact ⟨rfl, rfl⟩

theorem addClass_eq_error {s : Session} {id : Identity} {h : Handle} {e : QueryFailure}
    (eq : s.addClass id h = .error e) : s.IsFull ∧ e = .exhausted s.options.handleBound :=
  addHandle_bind_eq_error (fun _ => ⟨_, rfl⟩) eq

theorem addPlaceholder_eq_error {s : Session} {h : Handle} {e : QueryFailure}
    (eq : s.addPlaceholder h = .error e) : s.IsFull ∧ e = .exhausted s.options.handleBound :=
  addHandle_bind_eq_error (fun _ => ⟨_, rfl⟩) eq

/-! ### The session in one line -/

/-- A named record with its fields between braces. -/
def recordText (name : String) (fields : List (String × String)) : String :=
  name ++ " \x7b " ++ ", ".intercalate (fields.map fun f => f.1 ++ ": " ++ f.2) ++ " \x7d"

/-- A number that may be missing. -/
def optionText : Option Nat → String
  | none => "None"
  | some n => "Some(" ++ Nat.repr n ++ ")"

/-- A truth value. -/
def boolText (b : Bool) : String := if b then "true" else "false"

/-- The session in one line: number, handles, options and counters. -/
def summary (s : Session) : String :=
  recordText "TypeOracle"
    [("session", "SessionId(#" ++ Nat.repr s.number ++ ")"),
      ("handles", Nat.repr s.size),
      ("options", recordText "OracleOptions"
        [("max_handles", optionText s.options.handleLimit),
          ("scope_timeout_ms", optionText (s.options.waitMillis.map UInt64.toNat)),
          ("dedup_unloaded", boolText s.options.sharePlaceholders),
          ("verify_hierarchy", boolText s.options.verifyRecords)]),
      ("stats", recordText "OracleStats"
        [("cache_hits", Nat.repr s.stats.hits),
          ("heap_entries", Nat.repr s.stats.scopesOpened),
          ("handles_built", Nat.repr s.stats.built),
          ("superseded", Nat.repr s.stats.superseded)])]

end Session

end RuntimeTypes
