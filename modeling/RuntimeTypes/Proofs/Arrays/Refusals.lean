/-
Operations that are refused.

Every operation but a request for an array looks at everything before it changes anything.
A request makes supertype arrays on its way, and may be stopped by what is lacking above the
element.  What it has made by then stays, and that is all that it leaves: arrays that the
array of the element needs, under names that were free.  The array that was asked for is
not among them, as no class is above itself.
-/
import RuntimeTypes.Proofs.Arrays.Nesting
import RuntimeTypes.Proofs.Immutability

namespace RuntimeTypes

namespace ClassTable

open Relation

variable {t t' : ClassTable} {interfaces : List Identity}

/-! ### What is left behind -/

/-- A request for the array of `x` was refused on its way: arrays that it needs may have been made,
but not itself, and something is lacking above `x`. -/
structure Abandoned (t : ClassTable) (x : Identity) (interfaces : List Identity) (e : TableRefusal)
    (t' : ClassTable) : Prop where
  added : t.Added (t.ArrayNames (TransGen t.Needs x)) interfaces t'
  unmade : t'.arrayAt? x = t.arrayAt? x
  lacks : t.LacksAbove x e

/-- No class needs its own array. -/
theorem Added.arrayAt?_eq {x : Identity} (hs : t.Sound)
    (h : t.Added (t.ArrayNames (TransGen t.Needs x)) interfaces t') (hx : x.index < t.entries.size) :
    t'.arrayAt? x = t.arrayAt? x := by
  cases ha : t'.arrayAt? x with
  | none =>
      cases hold : t.arrayAt? x with
      | none => rfl
      | some array =>
          rw [h.arrayAt? hold] at ha
          cases ha
  | some array =>
      obtain ⟨key, hkey, hname⟩ := Option.bind_eq_some_iff.mp ha
      rw [h.arrayKey? hx] at hkey
      rcases h.new key array hname with hname | ⟨y, hy, hykey⟩
      · exact (Option.bind_eq_some_iff.mpr ⟨key, hkey, hname⟩).symm
      · obtain rfl := hs.arrayKey?_inj hykey hkey
        exact absurd (TransGen.mono (fun _ _ => hs.above_of_needs) _ _ hy) (hs.acyclic _)

/-- **A request that is refused has changed nothing, or was abandoned.** -/
theorem arrayOf_refused (h : t.Sound) (element : ElementType) (interfaces : List Identity) :
    Ends (arrayOf element interfaces) t (fun _ _ => True) fun e t' =>
      t' = t ∨ ∃ x, element = .ofClass x ∧ t.Abandoned x interfaces e t' := by
  by_cases hp : t.Prepared interfaces
  · cases element with
    | primitive type =>
        refine (arrayOf_explained hp (.primitive type)).mono (fun _ _ _ => trivial) ?_
        rintro e t' (⟨-, rfl⟩ | ⟨_, ⟨⟩, -⟩)
        exact Or.inl rfl
    | ofClass x =>
        have hneeded : Ends (arrayOf (.ofClass x) interfaces) t (fun _ _ => True)
            fun _ t' => t.Added (t.ArrayNames (TransGen t.Needs x)) interfaces t' := by
          obtain ⟨request, hr, heq⟩ := arrayWithin_eq interfaces t.entries.size
          refine Ends.get_bind ?_
          rw [heq]
          exact (hr.makeClass h x).mono (fun _ _ _ => trivial) fun _ _ h' => h'
        refine ((arrayOf_explained hp (.ofClass x)).and hneeded).mono (fun _ _ _ => trivial) ?_
        rintro e t' ⟨⟨-, rfl⟩ | ⟨_, ⟨⟩, hlacks⟩, hadd⟩
        · exact Or.inl rfl
        · exact Or.inr ⟨x, rfl, hadd, hadd.arrayAt?_eq h hlacks.index_lt, hlacks⟩
  · -- Whatever array is made first needs the interfaces.
    exact (arrayOf_ends h element interfaces).mono (fun _ _ _ => trivial) fun _ _ hm =>
      Or.inl ((Prepared.of_arrayMoves h hm).resolve_right hp)

/-- Only requests for arrays change anything before they are refused. -/
theorem Ran.eq_of_error {op : Op} {e : TableRefusal} (hr : Ran t op (.error e) t') :
    t' = t ∨ ∃ element interfaces, op = .arrayOf element interfaces := by
  cases hr with
  | refused => exact Or.inl rfl
  | arrayRefused => exact Or.inr ⟨_, _, rfl⟩

theorem run_refused (h : t.Sound) {op : Op} {e : TableRefusal}
    (he : (op.run t).1 = .error e) : (op.run t).2 = t ∨
      ∃ x interfaces, op = .arrayOf (.ofClass x) interfaces ∧
        t.Abandoned x interfaces e (op.run t).2 := by
  have hran := run_ran h op
  rw [he] at hran
  rcases hran.eq_of_error with heq | ⟨element, interfaces, rfl⟩
  · exact Or.inl heq
  · have hends := arrayOf_refused h element interfaces
    simp only [Op.run] at he ⊢
    cases hrun : arrayOf element interfaces t with
    | ok id t' =>
        rw [hrun] at he
        cases he
    | error e' t' =>
        rw [hrun] at he
        obtain rfl := Except.error.inj he
        rcases hends.of_error hrun with heq | ⟨x, rfl, habandoned⟩
        · exact Or.inl heq
        · exact Or.inr ⟨x, interfaces, rfl, habandoned⟩

end ClassTable

/-! ### Programs -/

namespace Program

open ClassTable

/-- **An operation that is refused leaves the table as it was**, unless it was a request for the array
of a class that was abandoned.  Then something is lacking above the class; arrays that were needed may
have been made, and whatever was there before is as it was. -/
theorem perform_refused (rootName : String) (capacity : Display.Capacity) (events : List Event)
    {op : Op} {e : TableRefusal} :
    let p := (start (create rootName capacity)).after events
    let p' := (p.perform op).2
    (p.perform op).1 = .error e →
      p'.sessions = p.sessions ∧
        (p'.heap.store = p.heap.store ∨ ∃ x interfaces, op = .arrayOf (.ofClass x) interfaces ∧
          p.heap.store.Abandoned x interfaces e p'.heap.store) := by
  intro p p' he
  obtain ⟨A, h⟩ := recorded_after rootName capacity events
  refine ⟨(p.perform_ran h.sound op).2, ?_⟩
  rcases p.perform_cases op with ⟨_, -, heq⟩ | ⟨hreply, hstore⟩
  · exact Or.inl heq
  · rw [hreply] at he
    show (p.perform op).2.heap.store = _ ∨ _
    rw [hstore]
    exact run_refused h.sound he

/-- A class that implements an interface, which is then removed. -/
def interfaceRemoved : List Event :=
  [.perform (.define (.interface "I")),
    .perform (.define ((ClassFile.ordinary "A").implementing [Identity.ofIndex 1])),
    .perform (.unload (Identity.ofIndex 1))]

/-- The request for the array of the class is refused for the interface, and the array of the root has
been made. -/
theorem perform_refused_interfaceRemoved :
    let p := (start (create "Object" .standard)).after interfaceRemoved
    let p' := (p.perform (.arrayOf (.ofClass (Identity.ofIndex 2)) [])).2
    (p.perform (.arrayOf (.ofClass (Identity.ofIndex 2)) [])).1
        = .error (.unknownClass (Identity.ofIndex 1)) ∧
      p.heap.store.liveCount = 2 ∧ p'.heap.store.liveCount = 3 ∧
      p.heap.store.Abandoned (Identity.ofIndex 2) [] (.unknownClass (Identity.ofIndex 1))
        p'.heap.store := by
  intro p p'
  have he : (p.perform (.arrayOf (.ofClass (Identity.ofIndex 2)) [])).1
      = .error (.unknownClass (Identity.ofIndex 1)) := rfl
  have hbefore : p.heap.store.liveCount = 2 := rfl
  have hafter : p'.heap.store.liveCount = 3 := rfl
  refine ⟨he, hbefore, hafter, ?_⟩
  rcases (perform_refused "Object" .standard interfaceRemoved he).2 with heq | ⟨x, _, hop, h⟩
  · rw [show p'.heap.store = p.heap.store from heq, hbefore] at hafter
    cases hafter
  · cases hop
    exact h

end Program

end RuntimeTypes
