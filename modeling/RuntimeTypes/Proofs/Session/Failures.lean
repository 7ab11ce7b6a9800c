/-
What a request that fails leaves behind.

By the time a request fails it may have opened its scope, and it may have met a name.
Both stay with the session: the scope is counted, and the name keeps its number.  Nothing
else does, as a handle is only added in the last piece of a request, together with all
that leads to it, and nothing fails after that.  A name that is turned away, because all
numbers are given out, is a failure of its own, and leaves the names as they were.

`Spends` bounds the two.  A name that is not found is the one failure after which a
request goes on, with a placeholder, and no name has been met by then.  So two pieces in a
row do not spend more than one.
-/
import RuntimeTypes.Store.Table
import RuntimeTypes.Proofs.Session.Cache

namespace RuntimeTypes

/-- The names after some texts have been interned, one after the other. -/
def NameTable.internAll (names : NameTable) (texts : List String) : NameTable :=
  texts.foldl (fun names text => (names.intern text).2) names

namespace Session

variable {s s' s'' : Session}

/-- The session with further names met, and further scopes counted. -/
def meeting (s : Session) (texts : List String) (scopes : Nat) : Session :=
  { s with
    names := s.names.internAll texts
    stats := { s.stats with scopesOpened := s.stats.scopesOpened + scopes } }

/-- The session has met some names and opened some scopes, at most so many of each, and is otherwise
the same. -/
def Spends (scopes texts : Nat) (s s' : Session) : Prop :=
  ∃ met opened, met.length ≤ texts ∧ opened ≤ scopes ∧ s' = s.meeting met opened

theorem Spends.refl (scopes texts : Nat) (s : Session) : Spends scopes texts s s :=
  ⟨[], 0, Nat.zero_le _, Nat.zero_le _, rfl⟩

theorem Spends.trans {m n m' n' : Nat} (h : Spends m n s s') (h' : Spends m' n' s' s'') :
    Spends (m + m') (n + n') s s'' := by
  obtain ⟨met, opened, hmet, hopened, rfl⟩ := h
  obtain ⟨met', opened', hmet', hopened', rfl⟩ := h'
  refine ⟨met ++ met', opened + opened', ?_, Nat.add_le_add hopened hopened', ?_⟩
  · rw [List.length_append]
    exact Nat.add_le_add hmet hmet'
  · simp only [meeting, NameTable.internAll, List.foldl_append, Nat.add_assoc]

theorem Spends.mono {m n m' n' : Nat} (h : Spends m n s s') (hm : m ≤ m') (hn : n ≤ n') :
    Spends m' n' s s' := by
  obtain ⟨met, opened, hmet, hopened, hs⟩ := h
  exact ⟨met, opened, Nat.le_trans hmet hn, Nat.le_trans hopened hm, hs⟩

theorem spends_met (s : Session) (text : String) : Spends 0 1 s (s.met text) :=
  ⟨[text], 0, Nat.le_refl _, Nat.le_refl _, rfl⟩

end Session

namespace Query

open Session

variable {σ α β : Type} {w : Workspace σ}

/-- Where the query fails, `E` holds of the failure and of the session. -/
def Failing (q : Query σ α) (w : Workspace σ) (E : QueryFailure → Session → Prop) : Prop :=
  Ends q w (fun _ _ => True) fun e w' => E e w'.session

/-- However the query ends, the session is as it was.  A failure is one of `F`. -/
def Still (q : Query σ α) (w : Workspace σ) (F : QueryFailure → Prop) : Prop :=
  Ends q w (fun _ w' => w'.session = w.session) fun e w' => w'.session = w.session ∧ F e

/-- The failure is final: the request does not go on after it. -/
abbrev Final (e : QueryFailure) : Prop := e.recoverable = false

variable {F : QueryFailure → Prop} {E E' : QueryFailure → Session → Prop}

theorem Failing.pure {a : α} : Failing (Pure.pure a) w E := trivial

theorem Failing.throw {e : QueryFailure} (h : E e w.session) :
    Failing (throw e : Query σ α) w E := h

theorem Failing.mono {q : Query σ α} (h : Failing q w E) (hE : ∀ e s, E e s → E' e s) :
    Failing q w E' :=
  Ends.mono h (fun _ _ h' => h') fun e w' h' => hE e w'.session h'

theorem Failing.map {q : Query σ α} {f : α → β} (h : Failing q w E) : Failing (f <$> q) w E :=
  Ends.map h

/-- After a piece that leaves the session as it is, only the rest matters. -/
theorem Still.bind {q : Query σ α} {k : α → Query σ β} (h : Still q w F)
    (hF : ∀ e, F e → E e w.session)
    (hk : ∀ a w', w'.session = w.session → Failing (k a) w' E) : Failing (q >>= k) w E := by
  refine Ends.bind h hk ?_
  rintro e w' ⟨hs, he⟩
  exact hs ▸ hF e he

/-! ### The pieces -/

theorem ask_still (f : Session → Except QueryFailure α)
    (hF : ∀ e, f w.session = .error e → F e) : Still (ask f) w F :=
  ends_ask (fun _ _ => rfl) fun e he => ⟨rfl, hF e he⟩

/-- Looking something up cannot fail. -/
theorem ask_ok_still (f : Session → α) : Still (ask fun s => .ok (f s)) w F :=
  ask_still _ nofun

theorem read_still (r : Read σ α) (hF : ∀ e, F (.heap e)) : Still (read r) w F :=
  ends_read (fun _ _ _ => rfl) fun e _ _ => ⟨rfl, hF e⟩

/-- Adding a handle is all or nothing. -/
theorem learn_failing {f : Session → Except QueryFailure (α × Session)}
    (hE : ∀ e, f w.session = .error e → E e w.session) : Failing (learn f) w E :=
  ends_learn (fun _ _ _ => trivial) hE

/-- A name that is turned away has not been met. -/
theorem intern_failing {text : String} {k : NameId → Query σ α}
    (hE : ∀ limit, E (.exhausted limit) w.session)
    (hk : ∀ name w', w'.session = w.session.met text → Failing (k name) w' E) :
    Failing (intern text >>= k) w E := by
  have hmeets : Ends (intern text) w (fun _ w' => w'.session = w.session.met text)
      fun e w' => E e w'.session := by
    refine ends_intern (fun _ => rfl) ?_
    rintro e (- | -) <;> exact hE _
  exact Ends.bind hmeets hk fun _ _ he => he

/-- The gate is left as it was entered, whatever has happened inside. -/
theorem inScope_failing {body : Query σ α}
    (hgate : ∀ e, E (.heap e) w.session) (hbody : ∀ gate, Failing body (entered w gate) E) :
    Failing (inScope body) w E :=
  ends_inScope (fun e _ => hgate e) fun gate _ => hbody gate

theorem spends_entered (w : Workspace σ) (gate : Gate) :
    Spends 1 0 w.session (entered w gate).session :=
  ⟨[], 1, Nat.le_refl _, Nat.le_refl _, rfl⟩

theorem remembered_failing {id : Identity} {k : Option HandleRef → Query σ α}
    (hsome : ∀ r w', Failing (k (some r)) w' E) (hnone : Failing (k none) w E) :
    Failing (remembered id >>= k) w E := by
  have hlook : Ends (remembered id) w (fun r? w' => Failing (k r?) w' E) fun _ _ => False :=
    ends_remembered (fun r _ => hsome r _) fun _ => hnone
  exact Ends.bind hlook (fun _ _ hk => hk) fun _ _ h' => h'.elim

/-! ### Resolving -/

variable [MetadataSource σ]

theorem snapshot_still (id : Identity) (name : String) (hF : ∀ e, F (.heap e)) :
    Still (snapshot id name) w F := by
  refine (ends_snapshot id name).mono (fun _ _ h => h.1) ?_
  rintro _ w' ⟨hsame, e, rfl⟩
  exact ⟨hsame, hF e⟩

omit [MetadataSource σ] in
theorem addClass_failing {id : Identity} {h : Handle}
    (hE : ∀ limit, E (.exhausted limit) w.session) : Failing (learn fun s => s.addClass id h) w E := by
  refine learn_failing fun e he => ?_
  obtain ⟨-, rfl⟩ := addClass_eq_error he
  exact hE _

/-- A handle for a class may cost a name. -/
theorem build_failing (id : Identity) (state : LoadStatus) :
    Failing (build id state) w fun e s => Spends 0 1 w.session s ∧ Final e := by
  refine (read_still _ fun _ => rfl).bind (fun _ he => ⟨.refl .., he⟩) fun text w₁ h₁ => ?_
  refine intern_failing (fun _ => ⟨h₁ ▸ .refl .., rfl⟩) fun name w₂ h₂ => ?_
  have hmet : ∀ e, Final e → Spends 0 1 w.session w₂.session ∧ Final e := fun e he =>
    ⟨h₂ ▸ h₁ ▸ spends_met w.session text, he⟩
  cases state with
  | loaded =>
      have hcontent : Still (HandleState.loaded <$> snapshot id text) w₂ Final :=
        Ends.map (snapshot_still id text fun _ => rfl)
      exact hcontent.bind hmet fun content w₃ h₃ => addClass_failing fun _ => h₃ ▸ hmet _ rfl
  | unloaded => exact addClass_failing fun _ => hmet _ rfl

theorem resolveInside_failing (id : Identity) :
    Failing (resolveInside id) w fun e s => Spends 0 1 w.session s ∧ Final e := by
  refine remembered_failing (fun _ _ => .pure) ?_
  refine (read_still _ fun _ => rfl).bind (fun _ he => ⟨.refl .., he⟩) fun state w₁ h₁ => ?_
  refine (ask_ok_still (F := Final) _).bind (fun _ he => ⟨h₁ ▸ .refl .., he⟩) fun found w₂ h₂ => ?_
  split
  · exact .pure
  · exact h₁ ▸ h₂ ▸ build_failing id state

theorem resolve_failing (id : Identity) :
    Failing (resolve id) w fun _ s => Spends 1 1 w.session s := by
  refine remembered_failing (fun _ _ => .pure) ?_
  refine inScope_failing (fun _ => .refl ..) fun gate => ?_
  exact (resolveInside_failing id).mono fun e s h => (spends_entered w gate).trans h.1

/-! ### The other requests -/

omit [MetadataSource σ] in
theorem placeholder_failing (text : String) (hint : BasicType) :
    Failing (placeholder text hint) w fun _ s => Spends 0 1 w.session s := by
  unfold placeholder
  split
  · refine intern_failing (fun _ => .refl ..) fun name w₁ h₁ => ?_
    have hmet : Spends 0 1 w.session w₁.session := h₁ ▸ spends_met w.session text
    refine (ask_ok_still (F := Final) _).bind (fun _ _ => hmet) fun shared? w₂ h₂ => ?_
    split
    · exact .pure
    · exact learn_failing fun _ _ => h₂ ▸ hmet
  · exact .throw (.refl ..)

/-- A name that is not found has not been met on the way. -/
theorem find_failing (origin : HandleRef) (name : String) :
    Failing (find origin name) w fun e s =>
      Spends 1 1 w.session s ∧ (¬Final e → Spends 1 0 w.session s) := by
  refine (ask_still (F := fun _ => True) _ fun _ _ => trivial).bind
    (fun _ _ => ⟨.refl .., fun _ => .refl ..⟩) fun loader w₁ h₁ => ?_
  refine inScope_failing (fun _ => ⟨h₁ ▸ .refl .., fun _ => h₁ ▸ .refl ..⟩) fun gate => ?_
  have hopen : Spends 1 0 w.session (entered w₁ gate).session := h₁ ▸ spends_entered w₁ gate
  refine (read_still (F := fun _ => True) _ fun _ => trivial).bind
    (fun _ _ => ⟨hopen.mono (Nat.le_refl _) (Nat.zero_le _), fun _ => hopen⟩) fun found? w₂ h₂ => ?_
  cases found? with
  | none => exact .throw (h₂ ▸ ⟨hopen.mono (Nat.le_refl _) (Nat.zero_le _), fun _ => hopen⟩)
  | some id =>
      refine (resolveInside_failing id).mono fun e s h => ⟨?_, fun hnot => absurd h.2 hnot⟩
      exact hopen.trans (h₂ ▸ h.1)

theorem findOrPlaceholder_failing (origin : HandleRef) (name : String) :
    Failing (findOrPlaceholder origin name) w fun _ s => Spends 1 1 w.session s := by
  refine ends_findOrPlaceholder (find_failing origin name) ?_ fun _ _ _ h => h.1
  intro missing after hsearched
  have hopen : Spends 1 0 w.session after.session :=
    hsearched.2 (by simp [QueryFailure.recoverable])
  exact (placeholder_failing name _).mono fun e s h => hopen.trans h

omit [MetadataSource σ] in
theorem primitive_failing (type : BasicType) :
    Failing (primitive type : Query σ _) w fun _ s => Spends 0 1 w.session s := by
  unfold primitive
  split
  · exact .throw (.refl ..)
  · refine (ask_ok_still (F := Final) _).bind (fun _ _ => .refl ..) fun found w₁ h₁ => ?_
    split
    · exact .pure
    · refine intern_failing (fun _ => h₁ ▸ .refl ..) fun name w₂ h₂ => ?_
      exact learn_failing fun _ _ => h₂ ▸ h₁ ▸ spends_met w.session type.name

theorem ancestorAt_failing (r : HandleRef) (depth : Nat) :
    Failing (ancestorAt r depth) w fun _ s => Spends 1 1 w.session s := by
  refine (ask_still (F := fun _ => True) _ fun _ _ => trivial).bind (fun _ _ => .refl ..)
    fun c w₁ h₁ => ?_
  split
  · exact .map (h₁ ▸ resolve_failing _)
  · exact .pure

theorem commonAncestor_failing (a b : HandleRef) :
    Failing (commonAncestor a b) w fun _ s => Spends 1 1 w.session s := by
  have hask : ∀ {β} (f : Session → Except QueryFailure β) (w : Workspace σ),
      Still (ask f) w fun _ => True := fun f w => ask_still f fun _ _ => trivial
  refine (hask _ w).bind (fun _ _ => .refl ..) fun first w₁ h₁ => ?_
  refine (hask _ w₁).bind (fun _ _ => h₁ ▸ .refl ..) fun second w₂ h₂ => ?_
  split
  · exact .pure
  · split
    · exact .pure
    · refine (hask _ w₂).bind (fun _ _ => h₁ ▸ h₂ ▸ .refl ..) fun common w₃ h₃ => ?_
      exact h₁ ▸ h₂ ▸ h₃ ▸ resolve_failing common

end Query

open Query in
/-- **Every request** that fails costs a scope and a name at most. -/
theorem Request.failing {σ : Type} [MetadataSource σ] {w : Workspace σ} (r : Request) :
    Failing r.run w fun _ s => Session.Spends 1 1 w.session s := by
  have hask : ∀ f : Session → Except QueryFailure Bool,
      Failing (ask f) w fun _ s => Session.Spends 1 1 w.session s := by
    intro f
    exact Ends.mono (ask_still (F := fun _ => True) f fun _ _ => trivial) (fun _ _ _ => trivial)
      fun e w' h => h.1 ▸ .refl ..
  have hfew : ∀ {s}, Session.Spends 0 1 w.session s → Session.Spends 1 1 w.session s :=
    fun h => h.mono (Nat.zero_le _) (Nat.le_refl _)
  cases r with
  | resolve id => exact .map (resolve_failing id)
  | placeholder name hint => exact .map ((placeholder_failing name hint).mono fun _ _ => hfew)
  | find origin name => exact .map ((find_failing origin name).mono fun _ _ h => h.1)
  | findOrPlaceholder origin name => exact .map (findOrPlaceholder_failing origin name)
  | primitive type => exact .map ((primitive_failing type).mono fun _ _ => hfew)
  | isSubtype a b => exact .map (hask _)
  | isSubclass a b => exact .map (hask _)
  | ancestorAt r depth => exact .map (ancestorAt_failing r depth)
  | commonAncestor a b => exact .map (commonAncestor_failing a b)

/-! ### What is unchanged -/

namespace NameTable

/-- A number belongs to a text that has been met. -/
theorem index_lt_size {names : NameTable} {text : String} {name : NameId}
    (h : names.find? text = some name) : name.index < names.size :=
  (Array.getElem?_eq_some_iff.mp (text?_of_find? h)).1

/-- Of the texts without a number only the one that is interned gets one. -/
theorem find?_intern_of_none {names : NameTable} {other : String} (h : names.find? other = none)
    (text : String) : (names.intern text).2.find? other
      = if text = other then some ⟨names.size⟩ else none := by
  cases htext : names.find? text with
  | some name =>
      rw [intern_of_find? htext, h, if_neg]
      rintro rfl
      rw [h] at htext
      cases htext
  | none => rw [intern_of_none htext, find?_add, h]

end NameTable

namespace Session

/-- Names that lead to a handle have been met. -/
def NamesMet (s : Session) : Prop :=
  ∀ name r, s.byName.get? name = some r → ∃ text, s.names.find? text = some name

variable {s s' : Session}

theorem Move.namesMet (hm : s.Move s') (h : s.NamesMet) : s'.NamesMet := by
  cases hm with
  | hit => exact h
  | scope => exact h
  | name _ =>
      intro name r hr
      obtain ⟨old, hold⟩ := h name r hr
      exact ⟨old, NameTable.find?_intern_of_find? hold _⟩
  | @ofClass _ _ new _ _ _ _ hname _ hs =>
      obtain ⟨rfl, rfl⟩ := addClass_eq_ok hs
      intro name r hr
      by_cases hnew : new = name
      · exact hnew ▸ ⟨_, hname⟩
      · refine h name r ?_
        simp only at hr
        split at hr
        · rwa [Index.get?_insert, if_neg hnew] at hr
        · rwa [Index.get?_insertIfNew, if_neg hnew] at hr
  | @placeholder _ new _ _ _ _ hname _ hs =>
      obtain ⟨rfl, rfl⟩ := addPlaceholder_eq_ok hs
      intro name r hr
      by_cases hnew : new = name
      · exact hnew ▸ ⟨_, hname⟩
      · refine h name r ?_
        rwa [Index.get?_insertIfNew, if_neg hnew] at hr
  | primitive _ _ _ hs =>
      obtain ⟨rfl, rfl⟩ := addPrimitive_eq_ok hs
      exact h

theorem Moves.namesMet {number : Nat} {options : Options} (h : (start number options).Moves s) :
    s.NamesMet := by
  induction h with
  | refl => nofun
  | tail _ hmove ih => exact hmove.namesMet ih

/-- The session has learnt no more than a name, and what it has known it knows still. -/
structure Intact (s s' : Session) : Prop where
  handles : s'.handles = s.handles
  byIdentity : s'.byIdentity = s.byIdentity
  byName : s'.byName = s.byName
  placeholders : s'.placeholders = s.placeholders
  primitives : s'.primitives = s.primitives
  hits : s'.stats.hits = s.stats.hits
  built : s'.stats.built = s.stats.built
  superseded : s'.stats.superseded = s.stats.superseded
  /-- At most one scope has been opened. -/
  scopesOpened : s'.stats.scopesOpened = s.stats.scopesOpened ∨
    s'.stats.scopesOpened = s.stats.scopesOpened + 1
  /-- At most one name has been met, and then it is a new one. -/
  texts : s'.names = s.names ∨
    ∃ text, s.names.find? text = none ∧ s'.names.texts = s.names.texts.push text
  /-- Names keep their numbers. -/
  names : ∀ {text name}, s.names.find? text = some name → s'.names.find? text = some name
  cached : ∀ id, s'.cached? id = s.cached? id
  cachedByName : ∀ text, s'.cachedByName? text = s.cachedByName? text
  handle : ∀ r, s'.handle r = s.handle r
  isSubtype : ∀ a b, s'.isSubtype a b = s.isSubtype a b
  isSubclass : ∀ a b, s'.isSubclass a b = s.isSubclass a b

theorem NamesMet.cachedByName?_intern (h : s.NamesMet) (text other : String) :
    ((s.names.intern text).2.find? other).bind s.byName.get? = s.cachedByName? other := by
  unfold cachedByName?
  cases hother : s.names.find? other with
  | some name => rw [NameTable.find?_intern_of_find? hother text]
  | none =>
      rw [NameTable.find?_intern_of_none hother]
      split
      · simp only [Option.bind_some, Option.bind_none]
        cases hr : s.byName.get? ⟨s.names.size⟩ with
        | none => rfl
        | some r =>
            obtain ⟨old, hold⟩ := h _ r hr
            exact absurd (NameTable.index_lt_size hold) (Nat.lt_irrefl _)
      · rfl

theorem Spends.intact (hs : s.Spends 1 1 s') (h : s.NamesMet) : s.Intact s' := by
  obtain ⟨met, opened, hmet, hopened, rfl⟩ := hs
  have hscopes : s.stats.scopesOpened + opened = s.stats.scopesOpened ∨
      s.stats.scopesOpened + opened = s.stats.scopesOpened + 1 := by omega
  match met, hmet with
  | [], _ =>
      exact ⟨rfl, rfl, rfl, rfl, rfl, rfl, rfl, rfl, hscopes, .inl rfl, id, fun _ => rfl,
        fun _ => rfl, fun _ => rfl, fun _ _ => rfl, fun _ _ => rfl⟩
  | [text], _ =>
      refine ⟨rfl, rfl, rfl, rfl, rfl, rfl, rfl, rfl, hscopes, ?_,
        fun hold => NameTable.find?_intern_of_find? hold text, fun _ => rfl,
        h.cachedByName?_intern text, fun _ => rfl, fun _ _ => rfl, fun _ _ => rfl⟩
      show (s.names.intern text).2 = s.names ∨
        ∃ new, s.names.find? new = none ∧ (s.names.intern text).2.texts = s.names.texts.push new
      cases hfound : s.names.find? text with
      | some name => exact .inl (congrArg Prod.snd (NameTable.intern_of_find? hfound))
      | none =>
          rw [NameTable.intern_of_none hfound]
          exact .inr ⟨text, hfound, rfl⟩

variable {σ : Type} [MetadataSource σ]

/-- **A request that fails leaves the session intact**, whatever it has been asked before and whatever
the stores have answered. -/
theorem serve_error_intact (number : Nat) (options : Options) (earlier : List (Heap σ × Request))
    {heap : Heap σ} {request : Request} {e : QueryFailure} {w : Workspace σ}
    (h : Workspace.serve { session := (start number options).through earlier, heap := heap } request
      = (.error e, w)) :
    ((start number options).through earlier).Intact w.session := by
  have hmet := Moves.namesMet (through_moves (start number options) earlier)
  refine Spends.intact ?_ hmet
  have hfailing := Request.failing (w := ⟨(start number options).through earlier, heap⟩) request
  unfold Workspace.serve at h
  cases hr : request.run ⟨(start number options).through earlier, heap⟩ with
  | ok answer w' =>
      rw [hr] at h
      cases h
  | error e' w' =>
      rw [hr] at h
      obtain ⟨-, rfl⟩ := Prod.mk.inj h
      exact Ends.of_error hfailing hr

/-- A table with nothing but a root. -/
def rootOnly : Heap ClassTable := { store := ClassTable.create "Object" Display.Capacity.standard }

/-- A session that may hold one handle, and has it. -/
def fullSession : Session :=
  (start 0 (Options.limitedTo 1)).through [(rootOnly, .resolve ClassTable.root)]

/-- A full session asks for a class that is nowhere.  Neither is the class found nor is there room for
a placeholder, and what is left is a scope and a name. -/
theorem serve_error_intact_full :
    ∃ w, Workspace.serve { session := fullSession, heap := rootOnly }
          (.findOrPlaceholder ⟨0, 0⟩ "Gone") = (.error (.exhausted 1), w) ∧
      fullSession.Intact w.session ∧ w.session.names.texts = #["Object", "Gone"] ∧
        w.session.stats.scopesOpened = 2 := by
  have hserve : Workspace.serve { session := fullSession, heap := rootOnly }
      (.findOrPlaceholder ⟨0, 0⟩ "Gone") = (.error (.exhausted 1), _) := rfl
  refine ⟨_, hserve, ?_, by decide +kernel, by decide +kernel⟩
  exact serve_error_intact 0 (Options.limitedTo 1) [(rootOnly, .resolve ClassTable.root)] hserve

end Session

end RuntimeTypes
