/-
Requests for arrays in a program that removes classes.

A program is `Careful` with its arrays where the table stays genuine from event to event
and no array above another one is removed.  What a request for an array is answered with
then stands for its element: it is loaded, an array, one deeper, and below the arrays of
whatever its element is below.  Without that care a request may be answered with a class
that is no array, or with an array of something else.
-/
import RuntimeTypes.Proofs.Arrays.Following
import RuntimeTypes.Proofs.Subtyping

namespace RuntimeTypes

namespace Program

open ClassTable

/-! ### Careful programs -/

/-- The operation of an event removes no array above another one. -/
def Event.Spares (p : Program ClassTable) : Event → Prop
  | .perform op => op.Spares p.heap.store
  | _ => True

instance (p : Program ClassTable) : DecidablePred (Event.Spares p)
  | .perform op => inferInstanceAs (Decidable (op.Spares p.heap.store))
  | .openSession _ | .request _ _ | .atGate _ => isTrue trivial

/-- No event removes an array above another one, and each leaves a genuine table. -/
def Careful (p : Program ClassTable) : List Event → Prop
  | [] => True
  | e :: rest => Event.Spares p e ∧ (p.step e).heap.store.Genuine ∧ (p.step e).Careful rest

instance decidableCareful (p : Program ClassTable) : ∀ events, Decidable (p.Careful events)
  | [] => isTrue trivial
  | e :: rest =>
      have := decidableCareful (p.step e) rest
      inferInstanceAs (Decidable (Event.Spares p e ∧ (p.step e).heap.store.Genuine ∧
        (p.step e).Careful rest))

/-- An event that names no class like an array, and removes neither a class that has an array nor an
array above another one. -/
def Event.Tidy (p : Program ClassTable) (e : Event) : Prop :=
  Event.Spares p e ∧ match e with
    | .perform op => op.Tidy p.heap.store
    | _ => True

/-- All events are tidy. -/
def Tidy (p : Program ClassTable) : List Event → Prop
  | [] => True
  | e :: rest => Event.Tidy p e ∧ (p.step e).Tidy rest

/-- What holds of a careful program. -/
structure Minded (p : Program ClassTable) (A : Archive) (log : LoadLog) : Prop where
  recorded : p.Recorded A log
  following : Following A p.heap.store

variable {p : Program ClassTable} {A : Archive} {log : LoadLog}

theorem Minded.step (h : p.Minded A log) {e : Event} (hspares : Event.Spares p e)
    (hg : (p.step e).heap.store.Genuine) :
    ∃ A', Archive.Within A A' ∧ (p.step e).Minded A' (log ++ Event.loads p e) := by
  by_cases he : ∃ op, e = .perform op
  · obtain ⟨op, rfl⟩ := he
    have hran := (p.perform_ran h.recorded.sound op).1
    obtain ⟨A', hA, hc, hf⟩ := hran.following hspares h.recorded.sound h.recorded.chronicle
      h.following hg
    exact ⟨A', hA.keeps, h.recorded.performed hA.keeps hc, hf⟩
  · obtain ⟨hstore, hrecorded⟩ := h.recorded.idle fun op hop => he ⟨op, hop⟩
    rw [Event.loads_eq_nil fun op hop => he ⟨op, hop⟩, List.append_nil]
    exact ⟨A, .refl A, hrecorded, hstore ▸ h.following⟩

/-- **Arrays go on following their elements** in a careful program. -/
theorem Minded.after {events : List Event} (hcareful : p.Careful events) (h : p.Minded A log) :
    ∃ A', Archive.Within A A' ∧ (p.after events).Minded A' (log ++ p.loads events) := by
  refine logged_after (G := Careful) ?_ hcareful h
  rintro p A log e rest h ⟨hspares, hg, hrest⟩
  exact ⟨hrest, h.step hspares hg⟩

/-- A program whose names are neat is careful as long as its operations are tidy and spare the arrays
above others. -/
theorem Recorded.careful_of_tidy {events : List Event} (h : p.Recorded A log)
    (hn : p.heap.store.Neat) (htidy : p.Tidy events) : p.Careful events := by
  induction events generalizing p A log with
  | nil => trivial
  | cons e rest ih =>
      obtain ⟨⟨hspares, he⟩, hrest⟩ := htidy
      obtain ⟨A', -, h'⟩ := h.step e
      have hn' : (p.step e).heap.store.Neat := by
        cases e with
        | perform op => exact (p.perform_ran h.sound op).1.neat he h.sound hn
        | openSession options => exact (h.idle (e := .openSession options) nofun).1 ▸ hn
        | request i r => exact (h.idle (e := .request i r) nofun).1 ▸ hn
        | atGate gate => exact (h.idle (e := .atGate gate) nofun).1 ▸ hn
      exact ⟨hspares, hn'.genuine h'.sound, ih h' hn' hrest⟩

/-- **Tidy programs are careful**: those that name nothing but arrays like arrays, and remove no class
before its array and no array before those below it. -/
theorem careful_of_tidy {rootName : String} (capacity : Display.Capacity)
    (hroot : isArrayName rootName = false) {events : List Event}
    (htidy : (start (create rootName capacity)).Tidy events) :
    (start (create rootName capacity)).Careful events :=
  (recorded_start rootName capacity).careful_of_tidy (neat_create capacity hroot) htidy

theorem minded_start (rootName : String) (capacity : Display.Capacity) :
    (start (create rootName capacity)).Minded (create rootName capacity).bodyAt? [] where
  recorded := recorded_start rootName capacity
  following := following_create rootName capacity

/-! ### Answers to requests -/

/-- An array stands for a type as its element, in a program as it is now. -/
structure StandsFor (p : Program ClassTable) (array element : Identity) : Prop where
  /-- The array is loaded as an array of references, one deeper than its element. -/
  loaded : ∃ eb ab, p.heap.store.bodyAt? element = some eb ∧ p.heap.store.bodyAt? array = some ab ∧
    ab.shape = .array .object ∧ ab.layout.isArray = true ∧
    ab.ancestry.chain.length = eb.ancestry.chain.length + 1
  /-- It is a subtype of the array that a request is now answered with for any type that its element
  is a subtype of.  Any session may tell that has resolved all four, at any time. -/
  covariant : ∀ (s other : Identity) (interfaces : List Identity) (later : List Event),
    (p.perform (.arrayOf (.ofClass s) interfaces)).1 = .ok (.made other) →
    ∀ (i : Nat) (session : Session) (re rs ra ro : HandleRef) (ce cs ca co : Snapshot),
      (p.after (.perform (.arrayOf (.ofClass s) interfaces) :: later)).sessions[i]? = some session →
      session.Holds re ce → session.Holds rs cs → session.Holds ra ca → session.Holds ro co →
      ce.identity = element → cs.identity = s → ca.identity = array → co.identity = other →
      session.isSubtype re rs = .ok true → session.isSubtype ra ro = .ok true

/-- A session tells what the table says at any earlier time. -/
theorem Minded.isSubtype_iff (h : p.Minded A log) (later : List Event) {i : Nat} {s : Session}
    (hs : (p.after later).sessions[i]? = some s) {a b : HandleRef} {ca cb : Snapshot}
    (ha : s.Holds a ca) (hb : s.Holds b cb) {ab bb : ClassBody}
    (hab : p.heap.store.bodyAt? ca.identity = some ab)
    (hbb : p.heap.store.bodyAt? cb.identity = some bb) :
    s.isSubtype a b = .ok true ↔
      ca.identity = cb.identity ∨ cb.identity ∈ ab.ancestry.supers := by
  obtain ⟨A', hA, h'⟩ := h.recorded.after later
  have hlive := h.recorded.chronicle.live.trans hA
  obtain ⟨ab', hab', hta⟩ := (h'.faithful i s hs).trueTo ha
  obtain ⟨bb', hbb', htb⟩ := (h'.faithful i s hs).trueTo hb
  obtain rfl := Option.some.inj ((hlive _ _ hab).symm.trans hab')
  obtain rfl := Option.some.inj ((hlive _ _ hbb).symm.trans hbb')
  have hregular : ∀ {id b}, p.heap.store.bodyAt? id = some b →
      A'.Regular p.heap.store.capacity b.ancestry := fun hb =>
    (h.following.regular _ _ (h.recorded.chronicle.live _ _ hb)).mono hA
  rw [ha.isSubtype hb, ← Snapshot.isSubtype_iff hta htb hbb' (hregular hab) (hregular hbb)]
  simp

/-- What is found as the array of a loaded type stands for it. -/
theorem Minded.standsFor (h : p.Minded A log) {element array : Identity} {eb : ClassBody}
    (he : p.heap.store.bodyAt? element = some eb)
    (ha : p.heap.store.arrayAt? element = some array) : p.StandsFor array element := by
  obtain ⟨-, ab, hab, hn⟩ := h.following.genuine element eb array he ha
  have hfollows := h.following.follows element eb array ab he ha hab
  refine ⟨⟨eb, ab, he, hab, hfollows.shape, ?_, hfollows.depth⟩, ?_⟩
  · rw [hfollows.layout]
    decide
  · rintro s other interfaces later hreply i session re rs ra ro ce cs ca co hs hre hrs hra hro rfl
      rfl rfl rfl hsub
    obtain ⟨hmoves, hother, sb, hsb⟩ := perform_arrayOf_eq_ok h.recorded.sound hreply
    have hgrows := grows_arrayMoves hmoves
    rcases (h.isSubtype_iff _ hs hre hrs he hsb).mp hsub with heq | hmem
    · -- One type has one array.
      rw [heq] at ha
      have hsame := Option.some.inj ((hgrows.arrayAt? ha).symm.trans hother)
      exact (h.isSubtype_iff _ hs hra hro hab (hsame ▸ hab)).mpr (Or.inl hsame)
    · obtain ⟨y, hy, hsy⟩ := hfollows.toArray _ hmem sb hsb
      obtain rfl := Option.some.inj ((hgrows.arrayAt? hsy).symm.trans hother)
      obtain ⟨-, yb, hyb, -⟩ := h.following.genuine _ sb _ hsb hsy
      exact (h.isSubtype_iff _ hs hra hro hab hyb).mpr (Or.inr hy)

/-- **A careful program is answered with arrays that stand for their elements**, whatever it has loaded
and removed. -/
theorem arrayOf_standsFor (rootName : String) (capacity : Display.Capacity) {events : List Event}
    {element array : Identity} {interfaces : List Identity}
    (hcareful : (start (create rootName capacity)).Careful
      (events ++ [.perform (.arrayOf (.ofClass element) interfaces)]))
    (hreply : (((start (create rootName capacity)).after events).perform
      (.arrayOf (.ofClass element) interfaces)).1 = .ok (.made array)) :
    ((start (create rootName capacity)).after
      (events ++ [.perform (.arrayOf (.ofClass element) interfaces)])).StandsFor array element := by
  obtain ⟨A, -, h⟩ := (minded_start rootName capacity).after hcareful
  obtain ⟨A', hrecorded⟩ := recorded_after rootName capacity events
  obtain ⟨hmoves, ha, eb, he⟩ := perform_arrayOf_eq_ok hrecorded.sound hreply
  have hafter : (start (create rootName capacity)).after
      (events ++ [.perform (.arrayOf (.ofClass element) interfaces)])
        = (((start (create rootName capacity)).after events).perform
          (.arrayOf (.ofClass element) interfaces)).2 := List.foldl_append ..
  rw [hafter] at h ⊢
  exact h.standsFor ((grows_arrayMoves hmoves).bodies element eb he) ha

/-- A class whose array is removed again, and a class below it. -/
def arraysAgain : List Event :=
  [.perform (.define (ClassFile.ordinary "A")),
    .perform (.arrayOf (.ofClass (Identity.ofIndex 1)) []),
    .perform (.unload (Identity.ofIndex 3)),
    .perform (.define { ClassFile.ordinary "B" with superclass := some (Identity.ofIndex 1) })]

/-- A session that has resolved the two classes and their arrays. -/
def resolvedArrays : List Event :=
  [.openSession {},
    .request 0 (.resolve (Identity.ofIndex 4)),
    .request 0 (.resolve (Identity.ofIndex 1)),
    .request 0 (.resolve (Identity.ofIndex 6)),
    .request 0 (.resolve (Identity.ofIndex 5))]

/-- The request for the array of `B` makes that of `A` anew.  The next request for the array of `A` is
answered with that, and the one array is a subtype of the other. -/
theorem standsFor_arraysAgain :
    (start (create "Object" Display.Capacity.standard)).Careful
        (arraysAgain ++ [.perform (.arrayOf (.ofClass (Identity.ofIndex 4)) [])]) ∧
      (((start (create "Object" Display.Capacity.standard)).after arraysAgain).perform
        (.arrayOf (.ofClass (Identity.ofIndex 4)) [])).1 = .ok (.made (Identity.ofIndex 6)) ∧
      (((start (create "Object" Display.Capacity.standard)).after
        (arraysAgain ++ [.perform (.arrayOf (.ofClass (Identity.ofIndex 4)) [])])).perform
        (.arrayOf (.ofClass (Identity.ofIndex 1)) [])).1 = .ok (.made (Identity.ofIndex 5)) ∧
      ∃ s ce cs ca co,
        (((start (create "Object" Display.Capacity.standard)).after
            (arraysAgain ++ [.perform (.arrayOf (.ofClass (Identity.ofIndex 4)) [])])).after
          (.perform (.arrayOf (.ofClass (Identity.ofIndex 1)) []) :: resolvedArrays)).sessions[0]?
            = some s ∧
          s.Holds ⟨0, 0⟩ ce ∧ s.Holds ⟨0, 1⟩ cs ∧ s.Holds ⟨0, 2⟩ ca ∧ s.Holds ⟨0, 3⟩ co ∧
          ce.identity = Identity.ofIndex 4 ∧ cs.identity = Identity.ofIndex 1 ∧
          ca.identity = Identity.ofIndex 6 ∧ co.identity = Identity.ofIndex 5 ∧
          s.isSubtype ⟨0, 0⟩ ⟨0, 1⟩ = .ok true ∧ s.isSubtype ⟨0, 2⟩ ⟨0, 3⟩ = .ok true := by
  have hcareful : (start (create "Object" Display.Capacity.standard)).Careful
      (arraysAgain ++ [.perform (.arrayOf (.ofClass (Identity.ofIndex 4)) [])]) := by decide
  have h := arrayOf_standsFor "Object" Display.Capacity.standard hcareful rfl
  refine ⟨hcareful, rfl, rfl, _, _, _, _, _, rfl, ⟨_, rfl, rfl⟩, ⟨_, rfl, rfl⟩, ⟨_, rfl, rfl⟩,
    ⟨_, rfl, rfl⟩, rfl, rfl, rfl, rfl, rfl, ?_⟩
  exact h.covariant (Identity.ofIndex 1) (Identity.ofIndex 5) [] resolvedArrays rfl 0 _ ⟨0, 0⟩ ⟨0, 1⟩
    _ _ _ _ _ _ rfl ⟨_, rfl, rfl⟩ ⟨_, rfl, rfl⟩ ⟨_, rfl, rfl⟩ ⟨_, rfl, rfl⟩ rfl rfl rfl rfl rfl

/-- A class that has been declared under the name of an array is the answer to the request for it. -/
example :
    (((start (create "Object" Display.Capacity.standard)).after
        [.perform (.declare Loader.bootstrap "[LA;"),
          .perform (.define (ClassFile.ordinary "A"))]).perform
      (.arrayOf (.ofClass (Identity.ofIndex 2)) [])).1 = .ok (.made (Identity.ofIndex 1)) := rfl

/-- When the array of the root has been removed from above the array of a class, the next one is not
above that. -/
example :
    let p := (start (create "Object" Display.Capacity.standard)).after
      [.perform (.define (ClassFile.ordinary "A")),
        .perform (.arrayOf (.ofClass (Identity.ofIndex 1)) []),
        .perform (.unload (Identity.ofIndex 2)),
        .perform (.arrayOf (.ofClass root) [])]
    p.heap.store.arrayAt? root = some (Identity.ofIndex 4) ∧
      p.heap.store.arrayAt? (Identity.ofIndex 1) = some (Identity.ofIndex 3) ∧
      (p.heap.store.bodyAt? (Identity.ofIndex 3)).map (·.ancestry.supers)
        = some [root, Identity.ofIndex 2] := by
  decide

end Program

end RuntimeTypes
