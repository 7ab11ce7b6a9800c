/-
How a request passes the gate.

A request that reads opens a scope first, and whatever happens inside, the scope is closed
again.  Requests are put together from others, which look into the session before they go to
the gate, and again behind it.  `Opens` counts the scopes of a query: none of its pieces
opens one inside another, so a request comes to one at most.  Were a second one opened behind
the first, it would be counted too, for a gate that lets a query in lets it in again.

The second half is about requests that stay away from the gate.  `Aside` says that a query
does not look at the heap at all, so it goes on being answered while the gate is closed.  Each
query that may read is either aside, or else what it is answered was not known before.
-/
import RuntimeTypes.Proofs.Session.Failures
import RuntimeTypes.Proofs.Session.Abreast

namespace RuntimeTypes

/-! ### Scopes -/

namespace Gate

/-- The gate after so many scopes have been opened and closed again: the open ones are as many as
before. -/
def passing (g : Gate) (n : Nat) : Gate := { g with entered := g.entered + n }

theorem leave_of_enter {g inside : Gate} {bound : Option Duration}
    (h : g.enter bound = .ok inside) : inside.leave = g.passing 1 := by
  unfold enter tryEnter at h
  by_cases hdown : g.shutDown = true
  · simp [hdown] at h
  · by_cases hpending : g.pending = true
    · cases bound <;> simp [hdown, hpending] at h
    · rw [if_neg hdown, if_neg hpending] at h
      obtain rfl := Except.ok.inj h
      rfl

end Gate

/-- From one workspace to the other so many scopes have been opened and closed again, and all of them
have been counted. -/
structure Workspace.Passes {σ : Type} (n : Nat) (w w' : Workspace σ) : Prop where
  gate : w'.heap.gate = w.heap.gate.passing n
  counted : w'.session.stats.scopesOpened = w.session.stats.scopesOpened + n

theorem Workspace.Passes.trans {σ : Type} {m n : Nat} {w w' w'' : Workspace σ}
    (h : w.Passes m w') (h' : w'.Passes n w'') : w.Passes (m + n) w'' where
  gate := by rw [h'.gate, h.gate, Gate.passing, Gate.passing, Gate.passing, Nat.add_assoc]
  counted := by rw [h'.counted, h.counted, Nat.add_assoc]

/-- The reference that the next handle of the session will have. -/
def Session.nextRef (s : Session) : HandleRef := ⟨s.number, s.handles.size⟩

/-- The session has the handle, and its type is loaded. -/
def Session.HoldsLoaded (s : Session) (r : HandleRef) : Prop :=
  ∃ h, s.handle r = .ok h ∧ h.isLoaded = true

namespace Query

variable {σ α β : Type} {w : Workspace σ} {n : Nat}

/-- However the query ends, it has opened so many scopes at most, and closed them. -/
def Opens (n : Nat) (q : Query σ α) (w : Workspace σ) : Prop :=
  Ends q w (fun _ w' => ∃ m, m ≤ n ∧ w.Passes m w') fun _ w' => ∃ m, m ≤ n ∧ w.Passes m w'

namespace Opens

theorem pure {a : α} : Opens n (Pure.pure a) w := ⟨0, Nat.zero_le n, rfl, rfl⟩

theorem throw {e : QueryFailure} : Opens n (throw e : Query σ α) w := ⟨0, Nat.zero_le n, rfl, rfl⟩

theorem map {q : Query σ α} {f : α → β} (h : Opens n q w) : Opens n (f <$> q) w := Ends.map h

/-- What comes after a workspace that has been reached in so many scopes. -/
theorem after {m : Nat} {q : Query σ α} {w' : Workspace σ} (hw' : ∃ k, k ≤ m ∧ w.Passes k w')
    (hq : Opens n q w') : Ends q w' (fun _ w'' => ∃ k, k ≤ m + n ∧ w.Passes k w'')
      fun _ w'' => ∃ k, k ≤ m + n ∧ w.Passes k w'' := by
  obtain ⟨k, hk, hpasses⟩ := hw'
  refine Ends.mono hq ?_ ?_
  · intro b w'' hw''
    obtain ⟨l, hl, hthen⟩ := hw''
    exact ⟨k + l, by omega, hpasses.trans hthen⟩
  · intro e w'' hw''
    obtain ⟨l, hl, hthen⟩ := hw''
    exact ⟨k + l, by omega, hpasses.trans hthen⟩

/-- A first piece that opens none leaves them all to the rest. -/
theorem bind {q : Query σ α} {k : α → Query σ β} (h : Opens 0 q w)
    (hk : ∀ a w', Opens n (k a) w') : Opens n (q >>= k) w := by
  refine Ends.bind h ?_ ?_
  · intro a w' hw'
    have hrest := after hw' (hk a w')
    rw [Nat.zero_add] at hrest
    exact hrest
  · intro e w' hw'
    obtain ⟨m, hm, hpasses⟩ := hw'
    exact ⟨m, Nat.le_trans hm (Nat.zero_le n), hpasses⟩

theorem ask (f : Session → Except QueryFailure α) : Opens n (ask f) w := by
  exact ends_ask (fun _ _ => ⟨0, Nat.zero_le n, rfl, rfl⟩) fun _ _ => ⟨0, Nat.zero_le n, rfl, rfl⟩

theorem learn {f : Session → Except QueryFailure (α × Session)}
    (hf : ∀ a s, f w.session = .ok (a, s) → s.stats.scopesOpened = w.session.stats.scopesOpened) :
    Opens n (learn f) w := by
  exact ends_learn (fun a s hs => ⟨0, Nat.zero_le n, rfl, hf a s hs⟩)
    fun _ _ => ⟨0, Nat.zero_le n, rfl, rfl⟩

theorem intern (text : String) : Opens n (intern text) w := by
  exact ends_intern (fun _ => ⟨0, Nat.zero_le n, rfl, rfl⟩) fun _ _ => ⟨0, Nat.zero_le n, rfl, rfl⟩

theorem countHit : Opens n countHit w := ⟨0, Nat.zero_le n, rfl, rfl⟩

theorem read (r : Read σ α) : Opens n (read r) w := by
  exact ends_read (fun _ _ _ => ⟨0, Nat.zero_le n, rfl, rfl⟩)
    fun _ _ _ => ⟨0, Nat.zero_le n, rfl, rfl⟩

theorem inScope {body : Query σ α} (hbody : ∀ w', Opens 0 body w') : Opens 1 (inScope body) w := by
  have hclosed : ∀ {inside after}, w.heap.gate.enter w.session.options.waitBound = .ok inside →
      (∃ m, m ≤ 0 ∧ (entered w inside).Passes m after) → ∃ m, m ≤ 1 ∧ w.Passes m (left after) := by
    intro inside after hgate hafter
    obtain ⟨m, hm, hpasses⟩ := hafter
    obtain rfl := Nat.le_zero.mp hm
    refine ⟨1, Nat.le_refl 1, ?_, hpasses.counted⟩
    show after.heap.gate.leave = w.heap.gate.passing 1
    rw [hpasses.gate, ← Gate.leave_of_enter hgate]
    rfl
  refine ends_inScope (fun _ _ => ⟨0, Nat.zero_le 1, rfl, rfl⟩) fun inside hgate => ?_
  exact Ends.mono (hbody _) (fun _ _ => hclosed hgate) fun _ _ => hclosed hgate

/-! ### The requests -/

variable [MetadataSource σ]

omit [MetadataSource σ] in
theorem remembered (id : Identity) : Opens n (remembered id) w := by
  refine (Opens.ask _).bind fun found w' => ?_
  split
  · exact countHit.bind fun _ _ => pure
  · exact pure

theorem snapshot (id : Identity) (name : String) : Opens n (snapshot id name) w := by
  refine (read _).bind fun record w₁ => (Opens.ask _).bind fun ancestry w₂ => ?_
  refine (read _).bind fun shape w₃ => (read _).bind fun layout w₄ => ?_
  refine (read _).bind fun flags w₅ => (read _).bind fun loader w₆ => ?_
  exact (read _).bind fun header w₇ => pure

theorem build (id : Identity) (state : LoadStatus) : Opens n (build id state) w := by
  have hadd : ∀ {h : Handle} {w' : Workspace σ},
      Opens n (Query.learn fun s => s.addClass id h) w' := by
    refine learn fun r s hs => ?_
    obtain ⟨-, rfl⟩ := Session.addClass_eq_ok hs
    rfl
  refine (read _).bind fun text w₁ => (Opens.intern text).bind fun name w₂ => ?_
  cases state with
  | loaded => exact (snapshot id text).map.bind fun content w₃ => hadd
  | unloaded => exact hadd

theorem resolveInside (id : Identity) : Opens n (resolveInside id) w := by
  refine (remembered id).bind fun r? w₁ => ?_
  cases r? with
  | some r => exact pure
  | none =>
      refine (read _).bind fun state w₂ => (Opens.ask _).bind fun found w₃ => ?_
      split
      · exact pure
      · exact build id state

theorem resolve (id : Identity) : Opens 1 (resolve id) w := by
  refine (remembered id).bind fun r? w' => ?_
  cases r? with
  | some r => exact pure
  | none => exact inScope fun _ => resolveInside id

omit [MetadataSource σ] in
theorem placeholder (text : String) (hint : BasicType) : Opens n (placeholder text hint) w := by
  unfold Query.placeholder
  split
  · refine (Opens.intern text).bind fun name w₁ => (Opens.ask _).bind fun shared? w₂ => ?_
    split
    · exact pure
    · refine learn fun r s hs => ?_
      obtain ⟨-, rfl⟩ := Session.addPlaceholder_eq_ok hs
      rfl
  · exact throw

theorem find (origin : HandleRef) (name : String) : Opens 1 (find origin name) w := by
  refine (Opens.ask _).bind fun loader w₁ => inScope fun w₂ => ?_
  refine (read _).bind fun found? w₃ => ?_
  cases found? with
  | none => exact throw
  | some id => exact resolveInside id

/-- The scope of the search is closed before the placeholder is added. -/
theorem findOrPlaceholder (origin : HandleRef) (name : String) :
    Opens 1 (findOrPlaceholder origin name) w := by
  refine ends_findOrPlaceholder (find origin name) ?_ fun _ _ _ h => h
  intro missing after hsearched
  exact Opens.after hsearched (placeholder (n := 0) name _)

omit [MetadataSource σ] in
theorem primitive (type : BasicType) : Opens n (primitive type) w := by
  unfold Query.primitive
  split
  · exact throw
  · refine (Opens.ask _).bind fun found w₁ => ?_
    split
    · exact pure
    · refine (Opens.intern type.name).bind fun name w₂ => learn fun r s hs => ?_
      obtain ⟨-, rfl⟩ := Session.addPrimitive_eq_ok hs
      rfl

theorem ancestorAt (r : HandleRef) (depth : Nat) : Opens 1 (ancestorAt r depth) w := by
  refine (Opens.ask _).bind fun c w' => ?_
  split
  · exact (resolve _).map
  · exact pure

theorem commonAncestor (a b : HandleRef) : Opens 1 (commonAncestor a b) w := by
  refine (Opens.ask _).bind fun first w₁ => (Opens.ask _).bind fun second w₂ => ?_
  split
  · exact pure
  · split
    · exact pure
    · exact (Opens.ask _).bind fun common w₃ => resolve common

/-- **Every request** opens a scope at most, and closes it, failing requests included. -/
theorem request (r : Request) : Opens 1 r.run w := by
  cases r with
  | resolve id => exact (resolve id).map
  | placeholder name hint => exact (placeholder name hint).map
  | find origin name => exact (find origin name).map
  | findOrPlaceholder origin name => exact (findOrPlaceholder origin name).map
  | primitive type => exact (primitive type).map
  | isSubtype a b => exact (Opens.ask _).map
  | isSubclass a b => exact (Opens.ask _).map
  | ancestorAt r depth => exact (ancestorAt r depth).map
  | commonAncestor a b => exact (commonAncestor a b).map

end Opens

/-! ### Without the heap -/

/-- A query that ends so leaves this workspace behind. -/
def ended (outcome : Except QueryFailure α) (w : Workspace σ) :
    EStateM.Result QueryFailure (Workspace σ) α :=
  match outcome with
  | .ok a => .ok a w
  | .error e => .error e w

/-- The query does not look at the heap: whatever that is like, it is left as it is, the outcome is
the same, and so is what the session makes of it.  No scope is counted. -/
def Aside (q : Query σ α) (s : Session) : Prop :=
  ∃ outcome s', s'.stats.scopesOpened = s.stats.scopesOpened ∧
    ∀ heap, q ⟨s, heap⟩ = ended outcome ⟨s', heap⟩

namespace Aside

variable {s : Session}

theorem pure {a : α} : Aside (Pure.pure a : Query σ α) s := ⟨.ok a, s, rfl, fun _ => rfl⟩

theorem throw {e : QueryFailure} : Aside (throw e : Query σ α) s :=
  ⟨.error e, s, rfl, fun _ => rfl⟩

theorem map {q : Query σ α} {f : α → β} (h : Aside q s) : Aside (f <$> q) s := by
  obtain ⟨outcome, s', hcounted, hq⟩ := h
  refine ⟨outcome.map f, s', hcounted, fun heap => ?_⟩
  simp only [Functor.map, EStateM.map, hq heap]
  cases outcome <;> rfl

theorem ask_bind {f : Session → Except QueryFailure α} {k : α → Query σ β}
    (hk : ∀ a, f s = .ok a → Aside (k a) s) : Aside (ask f >>= k) s := by
  cases hf : f s with
  | ok a =>
      obtain ⟨outcome, s', hcounted, hq⟩ := hk a hf
      refine ⟨outcome, s', hcounted, fun heap => ?_⟩
      exact (bind_of_ok (ask_apply hf)).trans (hq heap)
  | error e =>
      refine ⟨.error e, s, rfl, fun heap => ?_⟩
      simp only [bind_apply, ask, hf]
      rfl

theorem ask (f : Session → Except QueryFailure α) : Aside (ask f : Query σ α) s := by
  cases hf : f s with
  | ok a => exact ⟨.ok a, s, rfl, fun heap => ask_apply hf⟩
  | error e =>
      refine ⟨.error e, s, rfl, fun heap => ?_⟩
      simp only [Query.ask, hf]
      rfl

theorem learn {f : Session → Except QueryFailure (α × Session)}
    (hf : ∀ a s', f s = .ok (a, s') → s'.stats.scopesOpened = s.stats.scopesOpened) :
    Aside (learn f : Query σ α) s := by
  cases hs : f s with
  | ok made =>
      refine ⟨.ok made.1, made.2, hf made.1 made.2 hs, fun heap => ?_⟩
      simp only [Query.learn, hs]
      rfl
  | error e =>
      refine ⟨.error e, s, rfl, fun heap => ?_⟩
      simp only [Query.learn, hs]
      rfl

theorem intern_bind {text : String} {k : NameId → Query σ α}
    (hk : ∀ name s', Aside (k name) s') : Aside (intern text >>= k) s := by
  cases hs : s.intern text with
  | ok made =>
      obtain ⟨name, met⟩ := made
      obtain ⟨-, rfl⟩ := Session.intern_eq_ok hs
      obtain ⟨outcome, s', hcounted, hq⟩ := hk name (s.met text)
      refine ⟨outcome, s', hcounted, fun heap => ?_⟩
      have hrun : intern text (⟨s, heap⟩ : Workspace σ) = .ok name ⟨s.met text, heap⟩ := by
        simp only [intern, Query.learn, hs]
      exact (bind_of_ok hrun).trans (hq heap)
  | error e =>
      refine ⟨.error e, s, rfl, fun heap => ?_⟩
      simp only [bind_apply, intern, Query.learn, hs]
      rfl

theorem placeholder (text : String) (hint : BasicType) :
    Aside (placeholder text hint : Query σ HandleRef) s := by
  unfold Query.placeholder
  split
  · refine intern_bind fun name s' => ask_bind fun shared? _ => ?_
    split
    · exact pure
    · refine learn fun r s'' hs => ?_
      obtain ⟨-, rfl⟩ := Session.addPlaceholder_eq_ok hs
      rfl
  · exact throw

theorem primitive (type : BasicType) : Aside (primitive type : Query σ HandleRef) s := by
  unfold Query.primitive
  split
  · exact throw
  · refine ask_bind fun found _ => ?_
    split
    · exact pure
    · refine intern_bind fun name s' => learn fun r s'' hs => ?_
      obtain ⟨-, rfl⟩ := Session.addPrimitive_eq_ok hs
      rfl

end Aside

/-! ### With the heap -/

/-- The failure is not for the arguments. -/
abbrev Granted (e : QueryFailure) : Prop :=
  ∀ operation breach, e ≠ .precondition operation breach

/-- Where the query yields a value `P` holds of it, and where it fails its arguments are not to
blame. -/
def Blameless (q : Query σ α) (w : Workspace σ) (P : α → Prop) : Prop :=
  Ends q w (fun a _ => P a) fun e _ => Granted e

section Blameless

variable {P Q : α → Prop}

theorem Blameless.mono {q : Query σ α} (h : Blameless q w P) (hPQ : ∀ a, P a → Q a) :
    Blameless q w Q :=
  Ends.mono h (fun a _ ha => hPQ a ha) fun _ _ he => he

/-- A piece that leaves the session as it is, and fails at the heap if at all. -/
theorem Still.blameless_bind {q : Query σ β} {k : β → Query σ α} (h : Still q w Granted)
    (hk : ∀ b w', w'.session = w.session → Blameless (k b) w' P) : Blameless (q >>= k) w P :=
  Ends.bind h hk fun _ _ he => he.2

theorem ask_blameless_bind {f : Session → Except QueryFailure β} {b : β} {k : β → Query σ α}
    (hf : f w.session = .ok b) (hk : Blameless (k b) w P) : Blameless (ask f >>= k) w P := by
  unfold Blameless Ends at hk ⊢
  rw [bind_of_ok (ask_apply hf)]
  exact hk

theorem intern_blameless_bind {text : String} {k : NameId → Query σ α}
    (hk : ∀ name, Blameless (k name) { w with session := w.session.met text } P) :
    Blameless (intern text >>= k) w P := by
  have hmeets : Ends (intern text) w (fun _ w' => w' = { w with session := w.session.met text })
      fun e _ => Granted e := by
    refine ends_intern (fun _ => rfl) ?_
    rintro e (- | -) <;> nofun
  refine hmeets.bind ?_ fun _ _ he => he
  rintro name w' rfl
  exact hk name

theorem remembered_blameless_bind {id : Identity} {k : Option HandleRef → Query σ α}
    (hsome : ∀ r w', w.session.finalHandle? id = some r → Blameless (k (some r)) w' P)
    (hnone : w.session.finalHandle? id = none → Blameless (k none) w P) :
    Blameless (remembered id >>= k) w P := by
  have hlook : Ends (remembered id) w (fun r? w' => Blameless (k r?) w' P) fun _ _ => False :=
    ends_remembered (fun r hr => hsome r _ hr) hnone
  exact Ends.bind hlook (fun _ _ hk => hk) fun _ _ h' => h'.elim

theorem inScope_blameless {body : Query σ α} (hbody : ∀ gate, Blameless body (entered w gate) P) :
    Blameless (inScope body) w P :=
  ends_inScope (fun _ _ => nofun) fun gate _ => hbody gate

theorem learn_blameless {f : Session → Except QueryFailure (α × Session)}
    (hok : ∀ a s, f w.session = .ok (a, s) → P a)
    (herror : ∀ e, f w.session = .error e →
      w.session.IsFull ∧ e = .exhausted w.session.options.handleBound) :
    Blameless (learn f) w P := by
  refine ends_learn hok fun e he => ?_
  obtain ⟨-, rfl⟩ := herror e he
  exact nofun

end Blameless

/-- A new handle goes to the end of the arena. -/
theorem addClass_blameless {id : Identity} {h : Handle} :
    Blameless (learn fun s => s.addClass id h) w
      fun r => r = w.session.nextRef :=
  learn_blameless (fun _ _ hs => (Session.addClass_eq_ok hs).1)
    fun _ he => Session.addClass_eq_error he

theorem placeholder_blameless {text : String} {hint : BasicType} (hhint : hint.isReference = true) :
    Blameless (placeholder text hint) w fun _ => True := by
  unfold placeholder
  rw [if_pos hhint]
  refine intern_blameless_bind fun name => (ask_ok_still _).blameless_bind fun shared? w₂ _ => ?_
  split
  · exact trivial
  · exact learn_blameless (fun _ _ _ => trivial)
      fun _ he => Session.addPlaceholder_eq_error he

variable [MetadataSource σ] {id : Identity}

theorem build_blameless (state : LoadStatus) :
    Blameless (build id state) w fun r => r = w.session.nextRef := by
  refine (read_still _ fun _ => nofun).blameless_bind fun text w₁ h₁ => ?_
  refine intern_blameless_bind fun name => ?_
  -- The arena is still the one that the building has started from.
  rw [← h₁]
  cases state with
  | loaded =>
      refine Still.blameless_bind (Ends.map (snapshot_still id text fun _ => nofun)) ?_
      intro content w₂ h₂
      have hend : w₂.session.nextRef = w₁.session.nextRef :=
        (congrArg Session.nextRef h₂).trans rfl
      rw [← hend]
      exact addClass_blameless
  | unloaded => exact addClass_blameless

/-- Behind the gate a class is found to have the handle it has had, or it gets a further one. -/
theorem resolveInside_blameless :
    Blameless (resolveInside id) w fun r =>
      w.session.cached? id = some r ∨ r = w.session.nextRef := by
  refine remembered_blameless_bind (fun r w' hfinal => ?_) fun _ => ?_
  · exact Or.inl (Option.filter_eq_some_iff.mp hfinal).1
  · refine (read_still _ fun _ => nofun).blameless_bind fun state w₁ h₁ => ?_
    rw [← h₁]
    refine ask_blameless_bind rfl ?_
    split
    · rename_i r hr
      exact Or.inl hr
    · exact (build_blameless _).mono fun _ h => Or.inr h

/-- What is found behind the gate was not held as loaded before. -/
theorem resolve_blameless (hnone : w.session.finalHandle? id = none) :
    Blameless (resolve id) w fun r => ¬w.session.HoldsLoaded r := by
  refine remembered_blameless_bind (fun r _ hr => by simp [hnone] at hr) fun _ => ?_
  refine inScope_blameless fun gate => ?_
  refine resolveInside_blameless.mono fun r hr => ?_
  intro hheld
  obtain ⟨h, hhandle, hloaded⟩ := hheld
  rcases hr with hcached | rfl
  · -- A loaded handle in the index would have been found at once.
    refine Option.filter_eq_none_iff.mp hnone r hcached ?_
    simp [(Session.handle_eq_ok.mp hhandle).2, hloaded]
  · exact absurd (Session.index_lt_size hhandle) (Nat.lt_irrefl _)

/-- The search of `find`, once the loader is known. -/
theorem find_blameless (loader : Loader) (name : String) :
    Blameless (inScope do
      match ← read (MetadataSource.find? loader name) with
      | some id => resolveInside id
      | none => throw (.notFound name)) w fun _ => True := by
  refine inScope_blameless fun gate => ?_
  refine (read_still _ fun _ => nofun).blameless_bind fun found? w₁ _ => ?_
  cases found? with
  | none => exact Ends.throw nofun
  | some id => exact resolveInside_blameless.mono fun _ _ => trivial

/-- If the search does without the heap, so does the placeholder. -/
theorem Aside.orPlaceholder {s : Session} {origin : HandleRef} {name : String}
    (h : Aside (find origin name : Query σ HandleRef) s) :
    Aside (findOrPlaceholder origin name : Query σ HandleRef) s := by
  obtain ⟨outcome, s', hcounted, hfind⟩ := h
  by_cases hmissing : ∃ missing, outcome = .error (.notFound missing)
  · obtain ⟨missing, rfl⟩ := hmissing
    obtain ⟨outcome', s'', hcounted', hplaceholder⟩ :
        Aside (Query.placeholder name (BasicType.ofInternalName name) : Query σ HandleRef) s' :=
      Aside.placeholder name _
    refine ⟨outcome', s'', hcounted'.trans hcounted, fun heap => ?_⟩
    rw [findOrPlaceholder_of_missing (hfind heap)]
    exact hplaceholder heap
  · refine ⟨outcome, s', hcounted, fun heap => ?_⟩
    cases outcome with
    | ok r => exact findOrPlaceholder_of_found (hfind heap)
    | error e =>
        refine findOrPlaceholder_of_error (hfind heap) fun missing he => ?_
        exact hmissing ⟨missing, congrArg Except.error he⟩

theorem Blameless.orPlaceholder {origin : HandleRef} {name : String}
    (h : Blameless (find origin name) w fun _ => True) :
    Blameless (findOrPlaceholder origin name) w fun _ => True := by
  refine ends_findOrPlaceholder h (fun _ _ _ => placeholder_blameless ?_) fun _ _ _ he => he
  unfold BasicType.ofInternalName
  split <;> rfl

end Query

/-! ### What needs nothing new -/

/-- What the request is answered shows that there was nothing to be learnt from the heap. -/
inductive Session.Knows (s : Session) : Request → Except QueryFailure Answer → Prop
  /-- The arguments are turned down. -/
  | rejected {request : Request} {operation : String} {breach : Breach} :
      Knows s request (.error (.precondition operation breach))
  | isSubtype {a b : HandleRef} {outcome : Except QueryFailure Answer} :
      Knows s (.isSubtype a b) outcome
  | isSubclass {a b : HandleRef} {outcome : Except QueryFailure Answer} :
      Knows s (.isSubclass a b) outcome
  | placeholder {name : String} {hint : BasicType} {outcome : Except QueryFailure Answer} :
      Knows s (.placeholder name hint) outcome
  | primitive {type : BasicType} {outcome : Except QueryFailure Answer} :
      Knows s (.primitive type) outcome
  /-- The answer is a loaded handle that the session has had before. -/
  | resolve {id : Identity} {r : HandleRef} : s.HoldsLoaded r →
      Knows s (.resolve id) (.ok (.type r))
  | ancestorAt {a r : HandleRef} {depth : Nat} : s.HoldsLoaded r →
      Knows s (.ancestorAt a depth) (.ok (.type? (some r)))
  /-- There is no ancestor. -/
  | noAncestor {a : HandleRef} {depth : Nat} : Knows s (.ancestorAt a depth) (.ok (.type? none))
  | commonAncestor {a b r : HandleRef} : s.HoldsLoaded r →
      Knows s (.commonAncestor a b) (.ok (.type r))

namespace Query

variable {σ : Type} [MetadataSource σ] {w : Workspace σ} {id : Identity}

theorem resolve_aside {s : Session} {r : HandleRef} (hr : s.finalHandle? id = some r) :
    Aside (resolve id : Query σ HandleRef) s :=
  ⟨.ok r, { s with stats := { s.stats with hits := s.stats.hits + 1 } }, rfl,
    fun _ => resolve_of_final hr⟩

omit [MetadataSource σ] in
/-- Where the session turns the query down the heap is not looked at. -/
theorem ask_bind_aside_or {α β : Type} {f : Session → Except QueryFailure α} {k : α → Query σ β}
    {P : β → Prop}
    (hk : ∀ a, f w.session = .ok a → Aside (k a) w.session ∨ Blameless (k a) w P) :
    Aside (ask f >>= k) w.session ∨ Blameless (ask f >>= k) w P := by
  cases hf : f w.session with
  | error e => exact .inl (Aside.ask_bind fun a ha => by simp [hf] at ha)
  | ok a =>
      rcases hk a hf with haside | hblameless
      · refine .inl (Aside.ask_bind fun a' ha' => ?_)
        obtain rfl := Except.ok.inj (hf.symm.trans ha')
        exact haside
      · exact .inr (ask_blameless_bind hf hblameless)

omit [MetadataSource σ] in
theorem map_aside_or {α β : Type} {q : Query σ α} {P : α → Prop} (f : α → β)
    (h : Aside q w.session ∨ Blameless q w P) :
    Aside (f <$> q) w.session ∨ Blameless (f <$> q) w fun b => ∃ a, P a ∧ f a = b := by
  rcases h with haside | hblameless
  · exact .inl haside.map
  · exact .inr (Ends.map (hblameless.mono fun a ha => ⟨a, ha, rfl⟩))

theorem resolve_aside_or (id : Identity) :
    Aside (resolve id : Query σ HandleRef) w.session ∨
      Blameless (resolve id) w fun r => ¬w.session.HoldsLoaded r := by
  cases hfinal : w.session.finalHandle? id with
  | some r => exact .inl (resolve_aside hfinal)
  | none => exact .inr (resolve_blameless hfinal)

theorem find_aside_or (origin : HandleRef) (name : String) :
    Aside (find origin name : Query σ HandleRef) w.session ∨
      Blameless (find origin name) w fun _ => True :=
  ask_bind_aside_or fun loader _ => .inr (find_blameless loader name)

theorem findOrPlaceholder_aside_or (origin : HandleRef) (name : String) :
    Aside (findOrPlaceholder origin name : Query σ HandleRef) w.session ∨
      Blameless (findOrPlaceholder origin name) w fun _ => True := by
  rcases find_aside_or (w := w) origin name with haside | hblameless
  · exact .inl haside.orPlaceholder
  · exact .inr hblameless.orPlaceholder

/-- An ancestor is found in the session, or else it was not held as loaded. -/
theorem ancestorAt_aside_or (a : HandleRef) (depth : Nat) :
    Aside (ancestorAt a depth : Query σ (Option HandleRef)) w.session ∨
      Blameless (ancestorAt a depth) w fun r? => ∃ r, ¬w.session.HoldsLoaded r ∧ some r = r? := by
  refine ask_bind_aside_or fun c _ => ?_
  split
  · exact map_aside_or some (resolve_aside_or (w := w) _)
  · exact .inl Aside.pure

theorem commonAncestor_aside_or (a b : HandleRef) :
    Aside (commonAncestor a b : Query σ HandleRef) w.session ∨
      Blameless (commonAncestor a b) w fun r => ¬w.session.HoldsLoaded r := by
  refine ask_bind_aside_or fun first _ => ask_bind_aside_or fun second _ => ?_
  split
  · exact .inl Aside.pure
  · split
    · exact .inl Aside.pure
    · exact ask_bind_aside_or fun common _ => resolve_aside_or common

end Query

/-- A request that may look at the heap, for which it has to pass the gate. -/
def Request.Gated : Request → Prop
  | resolve _ | find _ _ | findOrPlaceholder _ _ | ancestorAt _ _ | commonAncestor _ _ => True
  | placeholder _ _ | primitive _ | isSubtype _ _ | isSubclass _ _ => False

/-- Before the gate such a request fails for its arguments only. -/
theorem Session.Knows.rejected_of_error {s : Session} {r : Request} {e : QueryFailure}
    (h : s.Knows r (.error e)) (hgated : r.Gated) :
    ∃ operation breach, e = .precondition operation breach := by
  cases h with
  | rejected => exact ⟨_, _, rfl⟩
  | isSubtype | isSubclass | placeholder | primitive => exact hgated.elim

section

open Query

variable {σ : Type} [MetadataSource σ] {w : Workspace σ} {r : Request}

/-- What is answered behind the gate would have to be nothing new. -/
theorem Request.aside_of_gated {P : Answer → Prop} (hgated : r.Gated)
    (hknows : w.session.Knows r (w.serve r).1)
    (hor : Aside (r.run : Query σ Answer) w.session ∨ Blameless r.run w P)
    (hnew : ∀ a, P a → ¬w.session.Knows r (.ok a)) :
    Aside (r.run : Query σ Answer) w.session := by
  rcases hor with haside | hblameless
  · exact haside
  · cases hrun : r.run w with
    | ok a w' =>
        rw [Workspace.serve_of_ok hrun] at hknows
        exact absurd hknows (hnew a (Ends.of_ok hblameless hrun))
    | error e w' =>
        rw [Workspace.serve_of_error hrun] at hknows
        obtain ⟨operation, breach, rfl⟩ := hknows.rejected_of_error hgated
        exact absurd rfl (Ends.of_error hblameless hrun operation breach)

theorem Request.aside (hknows : w.session.Knows r (w.serve r).1) :
    Aside (r.run : Query σ Answer) w.session := by
  cases r with
  | resolve id =>
      refine aside_of_gated trivial hknows (map_aside_or Answer.type (resolve_aside_or id)) ?_
      intro a ha hk
      obtain ⟨r, hr, rfl⟩ := ha
      cases hk with
      | resolve hheld => exact hr hheld
  | placeholder name hint => exact (Aside.placeholder name hint).map
  | find origin name =>
      refine aside_of_gated trivial hknows (map_aside_or Answer.type (find_aside_or origin name)) ?_
      intro a ha hk
      cases hk
  | findOrPlaceholder origin name =>
      refine aside_of_gated trivial hknows
        (map_aside_or Answer.type (findOrPlaceholder_aside_or origin name)) ?_
      intro a ha hk
      cases hk
  | primitive type => exact (Aside.primitive type).map
  | isSubtype a b => exact (Aside.ask _).map
  | isSubclass a b => exact (Aside.ask _).map
  | ancestorAt a depth =>
      refine aside_of_gated trivial hknows
        (map_aside_or Answer.type? (ancestorAt_aside_or a depth)) ?_
      intro answer hanswer hk
      obtain ⟨r?, ⟨r, hr, rfl⟩, rfl⟩ := hanswer
      cases hk with
      | ancestorAt hheld => exact hr hheld
  | commonAncestor a b =>
      refine aside_of_gated trivial hknows
        (map_aside_or Answer.type (commonAncestor_aside_or a b)) ?_
      intro answer hanswer hk
      obtain ⟨r, hr, rfl⟩ := hanswer
      cases hk with
      | commonAncestor hheld => exact hr hheld

end

/-- **Scopes.**  Whatever a request comes to, as many scopes are open after it as before.  It has
opened one at most, which the session and the gate have counted alike.  If it needed nothing new it
has opened none, and it is answered the same whatever the heap is like, so also while the gate is
paused and after it has been shut down. -/
theorem Workspace.serve_scopes {σ : Type} [MetadataSource σ] (w : Workspace σ) (request : Request) :
    let next := (w.serve request).2
    (∃ n, n ≤ 1 ∧ next.heap.gate = w.heap.gate.passing n ∧
      next.session.stats.scopesOpened = w.session.stats.scopesOpened + n) ∧
    (w.session.Knows request (w.serve request).1 →
      next.heap = w.heap ∧ next.session.stats.scopesOpened = w.session.stats.scopesOpened ∧
        ∀ heap : Heap σ, Workspace.serve { session := w.session, heap := heap } request
          = ((w.serve request).1, { session := next.session, heap := heap })) := by
  intro next
  refine ⟨?_, fun hknows => ?_⟩
  · have hpasses : ∃ n, n ≤ 1 ∧ w.Passes n next :=
      serve_of_ends (P := fun w' => ∃ n, n ≤ 1 ∧ w.Passes n w') (Query.Opens.request request)
    obtain ⟨n, hn, hgate, hcounted⟩ := hpasses
    exact ⟨n, hn, hgate, hcounted⟩
  · obtain ⟨outcome, s', hcounted, hrun⟩ := Request.aside hknows
    have hserve : ∀ heap : Heap σ, Workspace.serve { session := w.session, heap := heap } request
        = (outcome, { session := s', heap := heap }) := by
      intro heap
      unfold Workspace.serve
      rw [hrun heap]
      cases outcome <;> rfl
    have hself : w.serve request = (outcome, { session := s', heap := w.heap }) := hserve w.heap
    have hnext : next = { session := s', heap := w.heap } := congrArg Prod.snd hself
    rw [hnext, hself]
    exact ⟨rfl, hcounted, hserve⟩

/-- The table with nothing but a root, behind a gate that has been shut down. -/
def Session.rootShut : Heap ClassTable := { rootOnly with gate := ({} : Gate).shutdown }

/-- A class that the session knows is resolved at a gate that has been shut down. -/
theorem Workspace.serve_scopes_shutDown :
    ∃ s, Workspace.serve { session := Session.fullSession, heap := Session.rootShut }
        (.resolve ClassTable.root) = (.ok (.type ⟨0, 0⟩), { session := s, heap := Session.rootShut }) ∧
      s.stats.scopesOpened = 1 := by
  have hopen : (Workspace.serve { session := Session.fullSession, heap := Session.rootOnly }
      (.resolve ClassTable.root)).1 = .ok (.type ⟨0, 0⟩) := rfl
  have hheld : Session.fullSession.HoldsLoaded ⟨0, 0⟩ := ⟨_, rfl, rfl⟩
  obtain ⟨-, hcounted, hclosed⟩ := (Workspace.serve_scopes
    { session := Session.fullSession, heap := Session.rootOnly } (.resolve ClassTable.root)).2
      (hopen ▸ .resolve hheld)
  exact ⟨_, hclosed Session.rootShut, hcounted⟩

end RuntimeTypes
