/-
The index by name is a function of the arena.

Handles get their names from stores that may call a class by another name at every read,
and handles of several classes and loaders share a name.  The index is written in three
places, by two rules: a loaded class takes the entry over, and what is not loaded only
takes a free one.  `bestNamed?` reads the same off the arena alone: the latest loaded class
of the name, or else the earliest handle of it that is not loaded.

The arena only grows at its end, so each move of the session either leaves the two lists
that `bestOf?` looks at as they are or puts one handle behind one of them.  The first rule
goes with the end of the one list, the second with the start of the other.
-/
import RuntimeTypes.Proofs.Session.Cache

namespace RuntimeTypes

/-- Whether the handle stands for a loaded class, interface or array. -/
def Handle.isClass (h : Handle) : Bool := h.isLoaded && !h.isPrimitive

namespace Session

open Relation

/-! ### What the arena holds -/

/-- The handles that a test lets through, the earliest first. -/
def handlesWhere (s : Session) (test : Handle → Bool) : List HandleRef :=
  ((List.range s.size).map (HandleRef.mk s.number)).filter fun r =>
    ((s.handles[r.index]?).map test).getD false

/-- The best handle of some: the latest of a loaded class, or else the earliest that is not
loaded. -/
def bestOf? (s : Session) (test : Handle → Bool) : Option HandleRef :=
  (s.handlesWhere fun h => test h && h.isClass).getLast?.or
    (s.handlesWhere fun h => test h && !h.isLoaded).head?

/-- The best handle of a name, looked up in the arena. -/
def bestNamed? (s : Session) (text : String) : Option HandleRef :=
  s.bestOf? fun h => s.names.text? h.name = some text

variable {s s' : Session} {test test' : Handle → Bool} {r : HandleRef} {h new : Handle}

theorem mem_handlesWhere :
    r ∈ s.handlesWhere test ↔ ∃ h, s.handle r = .ok h ∧ test h = true := by
  unfold handlesWhere
  rw [List.mem_filter, List.mem_map]
  constructor
  · intro hmem
    obtain ⟨⟨i, -, rfl⟩, htest⟩ := hmem
    cases hi : s.handles[i]? with
    | none => simp [hi] at htest
    | some h => exact ⟨h, handle_eq_ok.mpr ⟨rfl, hi⟩, by simpa [hi] using htest⟩
  · intro hmem
    obtain ⟨h, hr, htest⟩ := hmem
    obtain ⟨hown, hi⟩ := handle_eq_ok.mp hr
    refine ⟨⟨r.index, List.mem_range.mpr (index_lt_size hr), ?_⟩, by simpa [hi] using htest⟩
    rw [← hown]

theorem handlesWhere_congr (hagree : ∀ {r h}, s.handle r = .ok h → test h = test' h) :
    s.handlesWhere test = s.handlesWhere test' := by
  refine List.filter_congr ?_
  intro r hr
  obtain ⟨i, -, rfl⟩ := List.mem_map.mp hr
  cases hi : s.handles[i]? with
  | none => rfl
  | some h =>
      have hr : s.handle ⟨s.number, i⟩ = .ok h := handle_eq_ok.mpr ⟨rfl, hi⟩
      exact hagree hr

/-- A handle at the end of the arena comes last, if it is let through. -/
theorem handlesWhere_push (hnumber : s'.number = s.number)
    (hhandles : s'.handles = s.handles.push new) :
    s'.handlesWhere test =
      s.handlesWhere test ++ if test new then [⟨s.number, s.handles.size⟩] else [] := by
  unfold handlesWhere
  rw [size, size, hhandles, hnumber, Array.size_push, List.range_succ, List.map_append,
    List.filter_append]
  congr 1
  · refine List.filter_congr ?_
    intro r hr
    obtain ⟨i, hi, rfl⟩ := List.mem_map.mp hr
    rw [Array.getElem?_push, if_neg (Nat.ne_of_lt (List.mem_range.mp hi))]
  · rw [List.map_singleton, List.filter_cons, Array.getElem?_push, if_pos rfl]
    rfl

theorem bestOf?_congr (hagree : ∀ {r h}, s.handle r = .ok h → test h = test' h) :
    s.bestOf? test = s.bestOf? test' := by
  unfold bestOf?
  rw [handlesWhere_congr fun hr => congrArg (· && _) (hagree hr),
    handlesWhere_congr fun hr => congrArg (· && _) (hagree hr)]

theorem bestOf?_some (hr : s.bestOf? test = some r) :
    ∃ h, s.handle r = .ok h ∧ test h = true ∧ h.isPrimitive = false := by
  unfold bestOf? at hr
  rcases Option.or_eq_some_iff.mp hr with hlast | ⟨-, hfirst⟩
  · obtain ⟨h, hr, htest⟩ := mem_handlesWhere.mp (List.mem_of_getLast? hlast)
    simp only [Handle.isClass, Bool.and_eq_true, Bool.not_eq_true'] at htest
    exact ⟨h, hr, htest.1, htest.2.2⟩
  · obtain ⟨h, hr, htest⟩ := mem_handlesWhere.mp (List.mem_of_head? hfirst)
    simp only [Bool.and_eq_true, Bool.not_eq_true'] at htest
    refine ⟨h, hr, htest.1, ?_⟩
    -- A handle that is not loaded is not primitive either.
    have hunloaded := htest.2
    unfold Handle.isLoaded at hunloaded
    unfold Handle.isPrimitive
    split at hunloaded
    · rename_i hstate
      rw [hstate]
    · cases hunloaded

/-- If there is a loaded class to find, the best handle is that of a loaded class. -/
theorem bestOf?_of_isClass (hr : s.handle r = .ok h) (htest : test h = true)
    (hclass : h.isClass = true) :
    ∃ r' h', s.bestOf? test = some r' ∧ s.handle r' = .ok h' ∧ h'.isLoaded = true := by
  have hmem : r ∈ s.handlesWhere fun h => test h && h.isClass :=
    mem_handlesWhere.mpr ⟨h, hr, by rw [htest, hclass]; rfl⟩
  obtain ⟨r', hlast⟩ : ∃ r', (s.handlesWhere fun h => test h && h.isClass).getLast? = some r' :=
    ⟨_, List.getLast?_eq_some_getLast (List.ne_nil_of_mem hmem)⟩
  obtain ⟨h', hr', htest'⟩ := mem_handlesWhere.mp (List.mem_of_getLast? hlast)
  simp only [Handle.isClass, Bool.and_eq_true] at htest'
  refine ⟨r', h', ?_, hr', htest'.2.1⟩
  unfold bestOf?
  rw [hlast]
  rfl

/-! ### A further handle -/

section Push

variable (hnumber : s'.number = s.number) (hhandles : s'.handles = s.handles.push new)

include hnumber hhandles

/-- A loaded class is the best from then on. -/
theorem bestOf?_push_class (htest : test new = true) (hclass : new.isClass = true) :
    s'.bestOf? test = some ⟨s.number, s.handles.size⟩ := by
  unfold bestOf?
  rw [handlesWhere_push hnumber hhandles, htest, hclass, Bool.and_self, if_pos rfl,
    List.getLast?_append]
  rfl

/-- What is not loaded is the best only where there has been none. -/
theorem bestOf?_push_unloaded (htest : test new = true) (hunloaded : new.isLoaded = false) :
    s'.bestOf? test = some ((s.bestOf? test).getD ⟨s.number, s.handles.size⟩) := by
  have hclass : new.isClass = false := by simp [Handle.isClass, hunloaded]
  unfold bestOf?
  rw [handlesWhere_push hnumber hhandles, handlesWhere_push hnumber hhandles, htest, hclass,
    hunloaded]
  simp only [Bool.and_false, Bool.false_eq_true, if_false, List.append_nil, Bool.not_false,
    Bool.and_self, if_true, List.head?_append, List.head?_cons]
  cases (s.handlesWhere fun h => test h && h.isClass).getLast? with
  | some r => rfl
  | none => cases (s.handlesWhere fun h => test h && !h.isLoaded).head? <;> rfl

/-- A handle that is not among those looked at does not matter, and neither does a primitive type. -/
theorem bestOf?_push_other (hother : test new = false ∨ new.isPrimitive = true) :
    s'.bestOf? test = s.bestOf? test := by
  have hloaded : new.isPrimitive = true → new.isLoaded = true := by
    unfold Handle.isPrimitive Handle.isLoaded
    cases new.state <;> simp
  unfold bestOf?
  rw [handlesWhere_push hnumber hhandles, handlesWhere_push hnumber hhandles]
  rcases hother with htest | hprimitive
  · simp [htest]
  · simp [Handle.isClass, hprimitive, hloaded hprimitive]

end Push

/-! ### The index -/

/-- The index by name leads to the best handle of each name. -/
def Indexed (s : Session) : Prop :=
  ∀ name, s.byName.get? name = s.bestOf? fun h => h.name = name

theorem Indexed.start (number : Nat) (options : Options) :
    (Session.start number options).Indexed := fun _ => rfl

/-- A new handle that is no primitive type is entered under its name. -/
theorem Indexed.push (hs : s.Indexed) (hnumber : s'.number = s.number)
    (hhandles : s'.handles = s.handles.push new) (hprimitive : new.isPrimitive = false)
    (hindex : s'.byName =
      if new.isLoaded then s.byName.insert new.name ⟨s.number, s.handles.size⟩
      else s.byName.insertIfNew new.name ⟨s.number, s.handles.size⟩) : s'.Indexed := by
  intro name
  rw [hindex]
  by_cases hname : new.name = name
  · have htest : decide (new.name = name) = true := decide_eq_true hname
    cases hl : new.isLoaded with
    | true =>
        have hclass : new.isClass = true := by simp [Handle.isClass, hl, hprimitive]
        rw [if_pos rfl, Index.get?_insert, if_pos hname,
          bestOf?_push_class hnumber hhandles htest hclass]
    | false =>
        rw [if_neg Bool.false_ne_true, Index.get?_insertIfNew, if_pos hname,
          bestOf?_push_unloaded hnumber hhandles htest hl, ← hs name, hname]
  · rw [bestOf?_push_other hnumber hhandles (.inl (decide_eq_false hname)), ← hs name]
    cases new.isLoaded with
    | true => rw [if_pos rfl, Index.get?_insert, if_neg hname]
    | false => rw [if_neg Bool.false_ne_true, Index.get?_insertIfNew, if_neg hname]

theorem Move.indexed (hm : s.Move s') (hs : s.Indexed) : s'.Indexed := by
  cases hm with
  | hit => exact hs
  | scope => exact hs
  | name => exact hs
  | ofClass _ _ hcontent hadd =>
      obtain ⟨rfl, rfl⟩ := addClass_eq_ok hadd
      refine hs.push rfl rfl ?_ rfl
      cases hcontent <;> rfl
  | placeholder _ _ _ hadd =>
      obtain ⟨rfl, rfl⟩ := addPlaceholder_eq_ok hadd
      exact hs.push rfl rfl rfl rfl
  | primitive _ _ _ hadd =>
      obtain ⟨rfl, rfl⟩ := addPrimitive_eq_ok hadd
      intro name
      refine (hs name).trans (Eq.symm ?_)
      exact bestOf?_push_other rfl rfl (.inr rfl)

theorem Moves.indexed {number : Nat} {options : Options} (h : (start number options).Moves s) :
    s.Indexed := by
  induction h with
  | refl => exact .start number options
  | tail _ hmove ih => exact hmove.indexed ih

/-- The number of a handle's name and its text are as good as one another. -/
theorem Indexed.cachedByName? (hs : s.Indexed) (hlisted : s.Listed) (text : String) :
    s.cachedByName? text = s.bestNamed? text := by
  -- A handle in the arena has a name that has been met, and a name that has been met has one text.
  have hfind : ∀ {r h}, s.handle r = .ok h →
      (s.names.text? h.name = some text ↔ s.names.find? text = some h.name) := by
    intro r h hr
    refine ⟨fun htext => ?_, NameTable.text?_of_find?⟩
    obtain ⟨met, hmet⟩ := hlisted.named hr
    obtain rfl := Option.some.inj ((NameTable.text?_of_find? hmet).symm.trans htext)
    exact hmet
  unfold Session.cachedByName? bestNamed?
  cases hname : s.names.find? text with
  | some name =>
      show s.byName.get? name = _
      rw [hs name]
      refine bestOf?_congr fun hr => ?_
      rw [decide_eq_decide, hfind hr, hname, Option.some.injEq, eq_comm]
  | none =>
      show none = _
      symm
      rw [Option.eq_none_iff_forall_ne_some]
      intro r hr
      obtain ⟨h, hhandle, htest, -⟩ := bestOf?_some hr
      rw [hfind hhandle |>.mp (of_decide_eq_true htest)] at hname
      cases hname

theorem Moves.text? (h : s.Moves s') {name : NameId} {text : String}
    (htext : s.names.text? name = some text) : s'.names.text? name = some text := by
  induction h with
  | refl => exact htext
  | tail _ hmove ih =>
      cases hmove with
      | hit => exact ih
      | scope => exact ih
      | name => exact NameTable.text?_intern_of_text? ih _
      | ofClass _ _ _ hadd =>
          obtain ⟨rfl, rfl⟩ := addClass_eq_ok hadd
          exact ih
      | placeholder _ _ _ hadd =>
          obtain ⟨rfl, rfl⟩ := addPlaceholder_eq_ok hadd
          exact ih
      | primitive _ _ _ hadd =>
          obtain ⟨rfl, rfl⟩ := addPrimitive_eq_ok hadd
          exact ih

/-- **The index by name is a function of the arena.**  Whatever the session has been asked and
whatever the stores have answered, a name leads to the latest loaded class of that name, or else to
the earliest handle of it that is not loaded, and to nothing if there is neither.  So it never leads
to a primitive type, and once it has led to a loaded class it goes on doing so. -/
theorem through_nameIndex {σ : Type} [MetadataSource σ] (number : Nat) (options : Options)
    (earlier : List (Heap σ × Request)) :
    let s := (start number options).through earlier
    (∀ text, s.cachedByName? text = s.bestNamed? text) ∧
      ∀ text r, s.cachedByName? text = some r → ∃ h, s.handle r = .ok h ∧ h.isPrimitive = false ∧
        (h.isLoaded = true → ∀ later : List (Heap σ × Request), ∃ r' h',
          (s.through later).cachedByName? text = some r' ∧
            (s.through later).handle r' = .ok h' ∧ h'.isLoaded = true) := by
  intro s
  have hmoves : (start number options).Moves s := through_moves _ earlier
  have hbest := fun text => (Moves.indexed hmoves).cachedByName? (Moves.keeps hmoves).2 text
  refine ⟨hbest, ?_⟩
  intro text r hr
  rw [hbest] at hr
  obtain ⟨h, hhandle, htest, hprimitive⟩ := bestOf?_some hr
  refine ⟨h, hhandle, hprimitive, ?_⟩
  intro hloaded later
  have hlater : s.Moves (s.through later) := through_moves s later
  have hthen : (start number options).Moves (s.through later) := hmoves.trans hlater
  rw [(Moves.indexed hthen).cachedByName? (Moves.keeps hthen).2]
  refine bestOf?_of_isClass ((Moves.grows hlater).kept hhandle) ?_ ?_
  · exact decide_eq_true (Moves.text? hlater (of_decide_eq_true htest))
  · simp [Handle.isClass, hloaded, hprimitive]

end Session

end RuntimeTypes
