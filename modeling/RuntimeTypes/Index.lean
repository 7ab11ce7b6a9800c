/-
Finite maps with one pair per key.

The class table and the sessions find things by name and by identity.  An `Index`
is a list of pairs in which an insertion replaces the older pair of its key.  The
three `get?_` lemmas say all there is to know about it.
-/

namespace RuntimeTypes

/-- A finite map from keys to values. -/
structure Index (κ α : Type) where
  /-- The pairs, the latest first. -/
  pairs : List (κ × α) := []
  deriving DecidableEq, Repr

namespace Index

variable {κ α : Type} [DecidableEq κ]

/-- The map without pairs. -/
def empty : Index κ α := {}

/-- The value of a key. -/
def get? (m : Index κ α) (k : κ) : Option α :=
  (m.pairs.find? fun p => p.1 = k).map (·.2)

/-- The map without a key. -/
def erase (m : Index κ α) (k : κ) : Index κ α :=
  ⟨m.pairs.filter fun p => p.1 ≠ k⟩

/-- The map with a new value for a key. -/
def insert (m : Index κ α) (k : κ) (a : α) : Index κ α :=
  ⟨(k, a) :: (m.erase k).pairs⟩

/-- The map with a value for a key that has none yet. -/
def insertIfNew (m : Index κ α) (k : κ) (a : α) : Index κ α :=
  match m.get? k with
  | some _ => m
  | none => m.insert k a

@[simp] theorem get?_empty (k : κ) : (empty : Index κ α).get? k = none := rfl

theorem get?_erase (m : Index κ α) (k l : κ) :
    (m.erase k).get? l = if k = l then none else m.get? l := by
  obtain ⟨pairs⟩ := m
  simp only [get?, erase]
  induction pairs with
  | nil => simp
  | cons p rest ih =>
    by_cases hk : p.1 = k <;> by_cases hl : p.1 = l <;> by_cases h : k = l <;> simp_all

theorem get?_insert (m : Index κ α) (k l : κ) (a : α) :
    (m.insert k a).get? l = if k = l then some a else m.get? l := by
  by_cases h : k = l
  · simp [insert, get?, h]
  · have := get?_erase m k l
    simp_all [insert, get?]

theorem get?_insertIfNew (m : Index κ α) (k l : κ) (a : α) :
    (m.insertIfNew k a).get? l = if k = l then some ((m.get? k).getD a) else m.get? l := by
  unfold insertIfNew
  split <;> rename_i h
  · split <;> simp_all
  · simp [get?_insert, h]

end Index

end RuntimeTypes
