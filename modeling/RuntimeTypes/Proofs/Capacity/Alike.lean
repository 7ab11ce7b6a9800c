/-
Tables that differ in the number of display slots alone.

The number decides which class owns a slot and which superclasses are listed with the
secondary supertypes, and nothing else.  So two tables of the same history stay `Alike`:
they have the same entries under the same names, and a record in the one differs from
the record in the other only by types of the chain that are listed besides.

Those types are the danger.  The supertype arrays of an array are asked for in the order
of the element's list, and the lists are not equal.  They are once the chain is left out
of them (`SameBeside`), which is what a request for an array does before it goes through
the list, and interfaces, whose lists are handed on as they are, have nothing to leave
out.
-/
import RuntimeTypes.Proofs.Table.Sound

namespace RuntimeTypes

/-! ### Lists beside a chain -/

/-- Two lists hold the same types in the same order, apart from the types of a chain. -/
def SameBeside (chain ids ids' : List Identity) : Prop :=
  ids.filter (fun s => !chain.contains s) = ids'.filter (fun s => !chain.contains s)

namespace SameBeside

variable {chain ids ids' more more' : List Identity}

theorem refl (chain ids : List Identity) : SameBeside chain ids ids := rfl

theorem mono (h : SameBeside chain ids ids') (last : Identity) :
    SameBeside (chain ++ [last]) ids ids' := by
  have hsplit : ∀ ids : List Identity, ids.filter (fun s => !(chain ++ [last]).contains s)
      = (ids.filter fun s => !chain.contains s).filter fun s => !decide (s = last) := by
    intro ids
    rw [List.filter_filter]
    refine List.filter_congr fun s _ => ?_
    simp [Bool.and_comm]
  unfold SameBeside at h ⊢
  rw [hsplit, hsplit, h]

theorem of_chain (h : ∀ s ∈ ids, s ∈ chain) (h' : ∀ s ∈ ids', s ∈ chain) :
    SameBeside chain ids ids' := by
  have hnil : ∀ ids : List Identity, (∀ s ∈ ids, s ∈ chain) →
      ids.filter (fun s => !chain.contains s) = [] := by
    intro ids hall
    refine List.filter_eq_nil_iff.mpr fun s hs => ?_
    simpa using hall s hs
  unfold SameBeside
  rw [hnil ids h, hnil ids' h']

theorem mem_iff (h : SameBeside chain ids ids') (s : Identity) :
    s ∈ chain ∨ s ∈ ids ↔ s ∈ chain ∨ s ∈ ids' := by
  by_cases hs : s ∈ chain
  · simp [hs]
  · have hmem : ∀ ids : List Identity,
        s ∈ ids ↔ s ∈ ids.filter fun s => !chain.contains s := by simp [hs]
    rw [hmem ids, hmem ids', h]

/-- What is left of a list to which new types have been added. -/
theorem filter_appendNew (p : Identity → Bool) (ids more : List Identity) :
    (ClassTable.appendNew ids more).filter p
      = ClassTable.appendNew (ids.filter p) (more.filter p) := by
  unfold ClassTable.appendNew
  induction more generalizing ids with
  | nil => rfl
  | cons x rest ih =>
      rw [List.foldl_cons, ih]
      cases hx : p x with
      | false =>
          rw [List.filter_cons_of_neg (by simp [hx])]
          split
          · rfl
          · simp [hx]
      | true =>
          rw [List.filter_cons_of_pos hx, List.foldl_cons]
          have hmem : (ids.filter p).contains x = ids.contains x := by
            simp [List.contains_eq_mem, hx]
          rw [hmem]
          split
          · rfl
          · simp [hx]

theorem appendNew (h : SameBeside chain ids ids') (hmore : SameBeside chain more more') :
    SameBeside chain (ClassTable.appendNew ids more) (ClassTable.appendNew ids' more') := by
  unfold SameBeside at h hmore ⊢
  rw [filter_appendNew, filter_appendNew, h, hmore]

end SameBeside

/-! ### Bodies, entries and tables -/

/-- Two bodies differ in what depends on the number of display slots, and in nothing else. -/
structure ClassBody.Alike (b b' : ClassBody) : Prop where
  shape : b.shape = b'.shape
  flags : b.flags = b'.flags
  layout : b.layout = b'.layout
  chain : b.ancestry.chain = b'.ancestry.chain
  beside : SameBeside b.ancestry.chain b.ancestry.secondary b'.ancestry.secondary
  interface : b.shape = .interface → b.ancestry.secondary = b'.ancestry.secondary

theorem ClassBody.Alike.mem_supers_iff {b b' : ClassBody} (h : b.Alike b') (s : Identity) :
    s ∈ b.ancestry.supers ↔ s ∈ b'.ancestry.supers := by
  rw [AncestryRecord.mem_supers, AncestryRecord.mem_supers, h.beside.mem_iff, h.chain]

/-- Two entries are of one class, loaded in both tables or in neither. -/
structure ClassObject.Alike (e e' : ClassObject) : Prop where
  name : e.name = e'.name
  loader : e.loader = e'.loader
  body : Option.Rel ClassBody.Alike e.body? e'.body?

namespace ClassTable

/-- Two tables have the same classes. -/
structure Alike (t t' : ClassTable) : Prop where
  names : t.names = t'.names
  loaders : t.loaders = t'.loaders
  size : t.entries.size = t'.entries.size
  entries : ∀ id, Option.Rel ClassObject.Alike (t.objectAt id) (t'.objectAt id)

variable {t t' : ClassTable}

namespace Alike

theorem freshId (h : t.Alike t') : t.freshId = t'.freshId := by
  unfold ClassTable.freshId
  rw [h.size]

theorem bodyAt? (h : t.Alike t') {id : Identity} {b : ClassBody} (hb : t.bodyAt? id = some b) :
    ∃ b', t'.bodyAt? id = some b' ∧ b.Alike b' := by
  obtain ⟨e, he, hbody⟩ := bodyAt?_eq_some.mp hb
  have hentry := h.entries id
  rw [he] at hentry
  cases he' : t'.objectAt id with
  | none => rw [he'] at hentry; cases hentry
  | some e' =>
      rw [he'] at hentry
      cases hentry with
      | some hentry =>
          have hbodies := hentry.body
          rw [hbody] at hbodies
          cases hb' : e'.body? with
          | none => rw [hb'] at hbodies; cases hbodies
          | some b' =>
              rw [hb'] at hbodies
              cases hbodies with
              | some hbodies => exact ⟨b', bodyAt?_eq_some.mpr ⟨e', he', hb'⟩, hbodies⟩

theorem add (h : t.Alike t') {e e' : ClassObject} (he : e.Alike e') :
    (t.add e).Alike (t'.add e') where
  names := by
    simp only [ClassTable.add, h.names, he.name, he.loader, h.freshId]
  loaders := h.loaders
  size := by rw [size_add, size_add, h.size]
  entries := fun id => by
    rw [objectAt_add, objectAt_add, h.freshId]
    split
    · exact .some he
    · exact h.entries id

/-- The same entry is rewritten in both. -/
theorem put (h : t.Alike t') {id : Identity} (hid : id.index < t.entries.size)
    {content content' : Option ClassObject} (hc : Option.Rel ClassObject.Alike content content') :
    (t.put id content).Alike (t'.put id content') where
  names := h.names
  loaders := h.loaders
  size := by rw [size_put, size_put, h.size]
  entries := fun other => by
    rw [objectAt_put hid, objectAt_put (h.size ▸ hid)]
    split
    · exact hc
    · exact h.entries other

theorem without (h : t.Alike t') {id : Identity} (hid : id.index < t.entries.size)
    {e e' : ClassObject} (he : e.Alike e') : (t.without id e).Alike (t'.without id e') where
  names := by simp only [ClassTable.without, ClassTable.put, h.names, he.name, he.loader]
  loaders := h.loaders
  size := (h.put hid .none).size
  entries := (h.put hid .none).entries

end Alike

theorem alike_create (rootName : String) (capacity capacity' : Display.Capacity) :
    (create rootName capacity).Alike (create rootName capacity') where
  names := rfl
  loaders := rfl
  size := rfl
  entries := fun id => by
    rw [objectAt_create, objectAt_create]
    split
    · exact .some ⟨rfl, rfl, .some ⟨rfl, rfl, rfl, rfl, .refl _ _, nofun⟩⟩
    · exact .none

end ClassTable

end RuntimeTypes
