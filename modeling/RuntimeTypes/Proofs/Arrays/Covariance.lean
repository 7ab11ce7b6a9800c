/-
Arrays are covariant, exactly.

An array mirrors its element, so the arrays above it are the arrays of what is above the
element (`Orderly.mem_supers_iff`), and a subtype check reads off a record what is above.
Whether one array is a subtype of another is therefore what it is of their elements, in
whatever order the arrays were asked for.

The root class has to have a name of its own.  A root that is called like an array is
what a request for that array finds, and no check against it goes with the elements.
-/
import RuntimeTypes.Proofs.Arrays.History
import RuntimeTypes.Proofs.Subtyping

namespace RuntimeTypes

namespace ClassTable

variable {t : ClassTable} {made : ArrayLog}

theorem Sound.arrayAt?_inj (hs : t.Sound) {x y array : Identity} (hx : t.arrayAt? x = some array)
    (hy : t.arrayAt? y = some array) : x = y := by
  obtain ⟨key, hkey, hget⟩ := Option.bind_eq_some_iff.mp hx
  obtain ⟨key', hkey', hget'⟩ := Option.bind_eq_some_iff.mp hy
  obtain ⟨entry, he, rfl⟩ := (hs.named key array).mp hget
  obtain ⟨entry', he', rfl⟩ := (hs.named key' array).mp hget'
  obtain rfl := Option.some.inj (he.symm.trans he')
  exact hs.arrayKey?_inj hkey hkey'

/-- **The arrays above an array are the arrays of what is above its element.** -/
theorem Orderly.mem_supers_iff (h : t.Orderly made) (hs : t.Sound) {x y X Y : Identity}
    (hX : t.arrayAt? x = some X) (hY : t.arrayAt? y = some Y) {xb Xb : ClassBody}
    (hx : t.bodyAt? x = some xb) (hXb : t.bodyAt? X = some Xb) :
    Y ∈ Xb.ancestry.supers ↔ y ∈ xb.ancestry.supers := by
  obtain ⟨-, xb', Xb', hx', hXb', -, hmirrors⟩ := h.mirrors x X hX
  obtain rfl := Option.some.inj (hx.symm.trans hx')
  obtain rfl := Option.some.inj (hXb.symm.trans hXb')
  constructor
  · intro hmem
    rcases hmirrors.fromElement Y hmem with ⟨y', hy', hY'⟩ | ⟨b, hb, hn⟩
    · rw [hs.arrayAt?_inj hY hY']
      exact hy'
    · -- What is found as an array is one.
      obtain ⟨-, -, Yb, -, hYb, harray, -⟩ := h.mirrors y Y hY
      obtain rfl := Option.some.inj (hb.symm.trans hYb)
      rw [hn] at harray
      cases harray
  · intro hmem
    obtain ⟨s, hsup, hsY⟩ := hmirrors.toArray y hmem
    obtain rfl := Option.some.inj (hY.symm.trans hsY)
    exact hsup

end ClassTable

/-! ### Checks of arrays -/

namespace Program

open ClassTable

variable {p : Program ClassTable} {log : LoadLog} {made : ArrayLog}
  {found : List (Identity × Identity)}

/-- All types together, arrays included. -/
theorem Kept.isSubtype_iff (h : p.Kept log made found) {a b : Snapshot} {ab bb : ClassBody}
    (ha : p.heap.store.bodyAt? a.identity = some ab) (hta : a.TrueTo ab)
    (hb : p.heap.store.bodyAt? b.identity = some bb) (htb : b.TrueTo bb) :
    a.isSubtype b = true ↔ a.identity = b.identity ∨ b.identity ∈ ab.ancestry.supers :=
  Snapshot.isSubtype_iff hta htb hb (h.orderly.regular h.recorded.chronicle ha)
    (h.orderly.regular h.recorded.chronicle hb)

theorem Kept.found_eq_iff (h : p.Kept log made found) {x y X Y : Identity} (hX : (x, X) ∈ found)
    (hY : (y, Y) ∈ found) : X = Y ↔ x = y := by
  have hX' := h.found x X hX
  have hY' := h.found y Y hY
  constructor
  · rintro rfl
    exact h.recorded.sound.arrayAt?_inj hX' hY'
  · rintro rfl
    exact Option.some.inj (hX'.symm.trans hY')

/-- **Arrays are covariant, and nothing more**: whether one is a subtype of another is what it is of
their elements, whenever and in whatever order they were asked for, and different classes have
different arrays. -/
theorem isSubtype_arrays (rootName : String) (capacity : Display.Capacity)
    (hroot : isArrayName rootName = false) {events : List Event} (hplain : ∀ e ∈ events, e.Plain)
    {x y X Y : Identity}
    (hX : (x, X) ∈ (start (create rootName capacity)).arraysFound events)
    (hY : (y, Y) ∈ (start (create rootName capacity)).arraysFound events) :
    (X = Y ↔ x = y) ∧
      ∀ (i : Nat) (s : Session) (rx ry rX rY : HandleRef) (cx cy cX cY : Snapshot),
        ((start (create rootName capacity)).after events).sessions[i]? = some s →
        s.Holds rx cx → s.Holds ry cy → s.Holds rX cX → s.Holds rY cY →
        cx.identity = x → cy.identity = y → cX.identity = X → cY.identity = Y →
        ∃ answer, s.isSubtype rX rY = .ok answer ∧ s.isSubtype rx ry = .ok answer := by
  have h := kept_after capacity hroot hplain
  refine ⟨h.found_eq_iff hX hY, ?_⟩
  rintro i s rx ry rX rY cx cy cX cY hs hrx hry hrX hrY rfl rfl rfl rfl
  have hfaithful := h.recorded.faithful i s hs
  obtain ⟨xb, hx, hxt⟩ := hfaithful.trueTo hrx
  obtain ⟨yb, hy, hyt⟩ := hfaithful.trueTo hry
  obtain ⟨Xb, hXb, hXt⟩ := hfaithful.trueTo hrX
  obtain ⟨Yb, hYb, hYt⟩ := hfaithful.trueTo hrY
  have harrays := h.isSubtype_iff hXb hXt hYb hYt
  rw [h.found_eq_iff hX hY, h.orderly.mem_supers_iff h.recorded.sound (h.found _ _ hX)
    (h.found _ _ hY) hx hXb, ← h.isSubtype_iff hx hxt hy hyt, Bool.coe_iff_coe] at harrays
  exact ⟨_, hrX.isSubtype hrY, by rw [hrx.isSubtype hry, harrays]⟩

/-- A class with a class below it, whose array is asked for first, and a session that has resolved
both classes and both arrays. -/
def arraysBackwards : List Event :=
  [.perform (.define (ClassFile.ordinary "A")),
    .perform (.define { ClassFile.ordinary "B" with superclass := some (Identity.ofIndex 1) }),
    .perform (.arrayOf (.ofClass (Identity.ofIndex 2)) []),
    .perform (.arrayOf (.ofClass (Identity.ofIndex 1)) []),
    .openSession {},
    .request 0 (.resolve (Identity.ofIndex 2)),
    .request 0 (.resolve (Identity.ofIndex 1)),
    .request 0 (.resolve (Identity.ofIndex 5)),
    .request 0 (.resolve (Identity.ofIndex 4))]

/-- The array of the class below has brought the other along, and is a subtype of it. -/
theorem isSubtype_arraysBackwards :
    isArrayName "Object" = false ∧ (∀ e ∈ arraysBackwards, e.Plain) ∧
      (start (create "Object" Display.Capacity.standard)).arraysFound arraysBackwards
        = [(Identity.ofIndex 2, Identity.ofIndex 5), (Identity.ofIndex 1, Identity.ofIndex 4)] ∧
      ∃ s cx cy cX cY,
        ((start (create "Object" Display.Capacity.standard)).after arraysBackwards).sessions[0]?
            = some s ∧
          s.Holds ⟨0, 0⟩ cx ∧ s.Holds ⟨0, 1⟩ cy ∧ s.Holds ⟨0, 2⟩ cX ∧ s.Holds ⟨0, 3⟩ cY ∧
          cx.identity = Identity.ofIndex 2 ∧ cy.identity = Identity.ofIndex 1 ∧
          cX.identity = Identity.ofIndex 5 ∧ cY.identity = Identity.ofIndex 4 ∧
          ∃ answer,
            s.isSubtype ⟨0, 2⟩ ⟨0, 3⟩ = .ok answer ∧ s.isSubtype ⟨0, 0⟩ ⟨0, 1⟩ = .ok answer := by
  have hplain : ∀ e ∈ arraysBackwards, e.Plain := by decide
  have hX : (Identity.ofIndex 2, Identity.ofIndex 5)
      ∈ (start (create "Object" Display.Capacity.standard)).arraysFound arraysBackwards :=
    List.mem_cons_self
  have hY : (Identity.ofIndex 1, Identity.ofIndex 4)
      ∈ (start (create "Object" Display.Capacity.standard)).arraysFound arraysBackwards :=
    List.mem_cons_of_mem _ List.mem_cons_self
  refine ⟨rfl, hplain, rfl, _, _, _, _, _, rfl, ⟨_, rfl, rfl⟩, ⟨_, rfl, rfl⟩, ⟨_, rfl, rfl⟩,
    ⟨_, rfl, rfl⟩, rfl, rfl, rfl, rfl, ?_⟩
  have h := (isSubtype_arrays "Object" Display.Capacity.standard rfl hplain hX hY).2
  exact h 0 _ _ _ _ _ _ _ _ _ rfl ⟨_, rfl, rfl⟩ ⟨_, rfl, rfl⟩ ⟨_, rfl, rfl⟩ ⟨_, rfl, rfl⟩ rfl rfl rfl
    rfl

/-- A class `A` and its array, the array of the root, and a session that has resolved the class, the
root and that array. -/
def arraysAtRoot : List Event :=
  [.perform (.define (ClassFile.ordinary "A")),
    .perform (.arrayOf (.ofClass (Identity.ofIndex 1)) []),
    .perform (.arrayOf (.ofClass root) []),
    .openSession {},
    .request 0 (.resolve (Identity.ofIndex 1)),
    .request 0 (.resolve root),
    .request 0 (.resolve (Identity.ofIndex 2))]

/-- Where the root is called what the array of `A` would be called, it is found in the place of that
array, and is no subtype of its own array although `A` is a subtype of the root. -/
theorem isSubtype_arraysAtRoot :
    (∀ e ∈ arraysAtRoot, e.Plain) ∧
      (start (create "[LA;" Display.Capacity.standard)).arraysFound arraysAtRoot
        = [(Identity.ofIndex 1, root), (root, Identity.ofIndex 2)] ∧
      ∃ s cx cr cY,
        ((start (create "[LA;" Display.Capacity.standard)).after arraysAtRoot).sessions[0]?
            = some s ∧
          s.Holds ⟨0, 0⟩ cx ∧ s.Holds ⟨0, 1⟩ cr ∧ s.Holds ⟨0, 2⟩ cY ∧
          cx.identity = Identity.ofIndex 1 ∧ cr.identity = root ∧ cY.identity = Identity.ofIndex 2 ∧
          s.isSubtype ⟨0, 0⟩ ⟨0, 1⟩ = .ok true ∧ s.isSubtype ⟨0, 1⟩ ⟨0, 2⟩ = .ok false := by
  refine ⟨by decide, rfl, _, _, _, _, rfl, ⟨_, rfl, rfl⟩, ⟨_, rfl, rfl⟩, ⟨_, rfl, rfl⟩, rfl, rfl,
    rfl, rfl, rfl⟩

end Program

end RuntimeTypes
