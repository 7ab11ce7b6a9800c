/-
Tables that are equal up to a renaming of their entries.

`Renamed f` says that one table is the other with every identity `f`-renamed: the same
names, the same entries under them, and records that name the renamed supertypes.  Where two
tables have come from one by requests for arrays and have the same names, sending an entry
to its twin is such a renaming.  It leaves everything alone that was there before.
-/
import Mathlib.Logic.Equiv.Defs
import Mathlib.Order.Interval.Finset.Nat
import RuntimeTypes.Proofs.Arrays.Twins

namespace RuntimeTypes

/-! ### Renaming -/

/-- The record with every identity renamed. -/
def AncestryRecord.rename (f : Identity → Identity) (a : AncestryRecord) : AncestryRecord :=
  { a with chain := a.chain.map f, secondary := a.secondary.map f }

/-- The body with every identity renamed. -/
def ClassBody.rename (f : Identity → Identity) (b : ClassBody) : ClassBody :=
  { b with ancestry := b.ancestry.rename f }

/-- The entry with every identity renamed. -/
def ClassObject.rename (f : Identity → Identity) (e : ClassObject) : ClassObject :=
  { e with body? := e.body?.map (·.rename f) }

section

variable {R : Identity → Identity → Prop} {f : Identity → Identity}

theorem eq_map_of_forall₂ (hf : ∀ a a', R a a' → a' = f a) {ids ids' : List Identity}
    (h : List.Forall₂ R ids ids') : ids' = ids.map f := by
  induction h with
  | nil => rfl
  | cons hx _ ih => rw [List.map_cons, ← ih, hf _ _ hx]

theorem ClassBody.Corresponds.eq_rename (hf : ∀ a a', R a a' → a' = f a) {b b' : ClassBody}
    (h : b.Corresponds R b') : b' = b.rename f := by
  have hrecord : b'.ancestry = b.ancestry.rename f := by
    rw [AncestryRecord.rename, ← eq_map_of_forall₂ hf h.chain,
      ← eq_map_of_forall₂ hf h.secondary, ← h.ownsSlot, ← h.checkOffset, ← h.capacity]
  rw [ClassBody.rename, ← hrecord, ← h.shape, ← h.flags, ← h.layout]

theorem ClassObject.Corresponds.eq_rename (hf : ∀ a a', R a a' → a' = f a) {e e' : ClassObject}
    (h : e.Corresponds R e') : e' = e.rename f := by
  have hbody : e'.body? = e.body?.map (·.rename f) := by
    have hrel := h.body
    generalize e.body? = body? at hrel ⊢
    generalize e'.body? = body?' at hrel ⊢
    cases hrel with
    | none => rfl
    | some hb => rw [Option.map_some, hb.eq_rename hf]
  rw [ClassObject.rename, ← hbody, ← h.name, ← h.loader]

end

namespace ClassTable

/-- The tables are equal up to a renaming of the entries. -/
structure Renamed (f : Equiv.Perm Identity) (u u' : ClassTable) : Prop where
  capacity : u'.capacity = u.capacity
  loaders : u'.loaders = u.loaders
  size : u'.entries.size = u.entries.size
  /-- A name leads to the renamed entry. -/
  names : ∀ key, u'.names.get? key = (u.names.get? key).map f
  /-- The entries are the same, with the supertypes in their records renamed. -/
  entries : ∀ id, u'.objectAt (f id) = (u.objectAt id).map (·.rename f)

/-- The entry that has the name of `a` in another table; `a` itself if there is none. -/
def counterpart (u u' : ClassTable) (a : Identity) : Identity :=
  ((u.objectAt a).bind fun e => u'.names.get? (e.loader, e.name)).getD a

variable {t u u' : ClassTable} {interfaces : List Identity}

theorem Sound.counterpart_eq (h : u.Sound) {a a' : Identity} (ht : Twins u u' a a') :
    counterpart u u' a = a' := by
  obtain ⟨key, hk, hk'⟩ := ht
  obtain ⟨e, he, rfl⟩ := (h.named key a).mp hk
  simp [counterpart, he, hk']

theorem counterpart_of_none {a : Identity} (h : u.objectAt a = none) : counterpart u u' a = a := by
  simp [counterpart, h]

/-! ### Tables with the same names -/

/-- Every name of the one table is a name of the other. -/
def NamesWithin (u u' : ClassTable) : Prop :=
  ∀ key a, u.names.get? key = some a → ∃ a', u'.names.get? key = some a'

namespace Siblings

theorem exists_twin (h : Siblings t interfaces u u') (hn : NamesWithin u u') {a : Identity}
    {e : ClassObject} (he : u.objectAt a = some e) : ∃ a', Twins u u' a a' := by
  have hk := (h.sound_left.named (e.loader, e.name) a).mpr ⟨e, he, rfl⟩
  obtain ⟨a', hk'⟩ := hn _ a hk
  exact ⟨a', _, hk, hk'⟩

theorem objectAt_new (h : Siblings t interfaces u u') {a : Identity}
    (hnew : t.entries.size ≤ a.index) (ha : a.index < u.entries.size) :
    ∃ e, u.objectAt a = some e := by
  obtain ⟨element, plan, chain, secondary, hd⟩ :=
    derived_of_arrayMoves h.ready.sound h.left.moves hnew ha
  exact ⟨_, hd.entry⟩

theorem none_of_none (h : Siblings t interfaces u u') (hsize : u'.entries.size ≤ u.entries.size)
    {a : Identity} (ha : u.objectAt a = none) : u'.objectAt a = none := by
  by_cases hold : a.index < t.entries.size
  · rw [h.right.old a hold, ← h.left.old a hold, ha]
  · cases hother : u'.objectAt a with
    | none => rfl
    | some e' =>
        have hlt := Nat.lt_of_lt_of_le (index_lt_of_objectAt hother) hsize
        obtain ⟨e, he⟩ := h.objectAt_new (Nat.le_of_not_lt hold) hlt
        rw [he] at ha
        cases ha

/-- Twins of different arrays are different, so there are at least as many entries where all names
are known. -/
theorem size_le (h : Siblings t interfaces u u') (hn : NamesWithin u u') :
    u.entries.size ≤ u'.entries.size := by
  have htwin : ∀ i ∈ Finset.Ico t.entries.size u.entries.size,
      Twins u u' (.ofIndex i) (counterpart u u' (.ofIndex i)) := by
    intro i hi
    obtain ⟨hnew, hlt⟩ := Finset.mem_Ico.mp hi
    obtain ⟨e, he⟩ := h.objectAt_new (a := .ofIndex i) hnew hlt
    obtain ⟨a', ht⟩ := h.exists_twin hn he
    rwa [h.sound_left.counterpart_eq ht]
  have hcard : (Finset.Ico t.entries.size u.entries.size).card
      ≤ (Finset.Ico t.entries.size u'.entries.size).card := by
    refine Finset.card_le_card_of_injOn (fun i => (counterpart u u' (.ofIndex i)).index) ?_ ?_
    · intro i hi
      have ht := htwin i hi
      obtain ⟨key, -, hk'⟩ := id ht
      obtain ⟨e', he', -⟩ := (h.sound_right.named key _).mp hk'
      exact Finset.mem_Ico.mpr
        ⟨(h.new_iff ht).mpr (Finset.mem_Ico.mp hi).1, index_lt_of_objectAt he'⟩
    · intro i hi j hj hij
      have hj' := htwin j hj
      rw [← Identity.index_inj.mp hij] at hj'
      simpa using congrArg Identity.index (h.biUnique.1 (htwin i hi) hj')
  rw [Nat.card_Ico, Nat.card_Ico] at hcard
  have := h.left.size
  have := h.right.size
  omega

/-- The counterpart of the counterpart is the entry itself. -/
theorem counterpart_counterpart (h : Siblings t interfaces u u') (hn : NamesWithin u u')
    (hsize : u'.entries.size = u.entries.size) (a : Identity) :
    counterpart u' u (counterpart u u' a) = a := by
  cases ha : u.objectAt a with
  | none =>
      rw [counterpart_of_none ha]
      exact counterpart_of_none (h.none_of_none (Nat.le_of_eq hsize) ha)
  | some e =>
      obtain ⟨a', ht⟩ := h.exists_twin hn ha
      rw [h.sound_left.counterpart_eq ht, h.sound_right.counterpart_eq ht.symm]

/-- **Tables with the same names are equal up to a renaming**, if they have come from one table by
requests for arrays with the same interfaces.  Nothing is renamed that was there before. -/
theorem renamed (h : Siblings t interfaces u u') (hn : NamesWithin u u') (hn' : NamesWithin u' u) :
    ∃ f : Equiv.Perm Identity, (∀ id : Identity, id.index < t.entries.size → f id = id) ∧
      Renamed f u u' := by
  have hsize : u'.entries.size = u.entries.size :=
    Nat.le_antisymm (h.symm.size_le hn') (h.size_le hn)
  refine ⟨⟨counterpart u u', counterpart u' u, h.counterpart_counterpart hn hsize,
    h.symm.counterpart_counterpart hn' hsize.symm⟩, ?_, ?_⟩
  · intro id hold
    show counterpart u u' id = id
    cases hid : t.objectAt id with
    | none => exact counterpart_of_none (by rw [h.left.old id hold, hid])
    | some e => exact h.sound_left.counterpart_eq (h.twins_old hid)
  · refine ⟨by rw [h.left.capacity, h.right.capacity], by rw [h.left.loaders, h.right.loaders],
      hsize, ?_, ?_⟩
    · intro key
      show u'.names.get? key = (u.names.get? key).map (counterpart u u')
      cases hk : u.names.get? key with
      | none =>
          cases hk' : u'.names.get? key with
          | none => rfl
          | some a' =>
              obtain ⟨a, ha⟩ := hn' key a' hk'
              rw [ha] at hk
              cases hk
      | some a =>
          obtain ⟨a', hk'⟩ := hn key a hk
          rw [hk', Option.map_some, h.sound_left.counterpart_eq ⟨key, hk, hk'⟩]
    · intro id
      show u'.objectAt (counterpart u u' id) = (u.objectAt id).map (·.rename (counterpart u u'))
      cases hid : u.objectAt id with
      | none =>
          rw [counterpart_of_none hid]
          exact h.none_of_none (Nat.le_of_eq hsize) hid
      | some e =>
          obtain ⟨a', ht⟩ := h.exists_twin hn hid
          obtain ⟨e₁, e', he₁, he', hc⟩ := h.alike ht
          obtain rfl := Option.some.inj (hid.symm.trans he₁)
          have hrename : e' = e.rename (counterpart u u') := by
            refine ClassObject.Corresponds.eq_rename (R := Twins u u') ?_ hc
            intro s s' htwin
            exact (h.sound_left.counterpart_eq htwin).symm
          rw [h.sound_left.counterpart_eq ht, he', Option.map_some, hrename]

end Siblings

end ClassTable

end RuntimeTypes
