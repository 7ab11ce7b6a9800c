/-
Tokens for class objects and class loaders.

A compilation never holds a class object itself, only an `Identity` for it: a
non-zero number that serves as a cache key and as the argument of a metadata
read.  A class table hands identities out in creation order, so `Identity.ofIndex`
and `Identity.index` go between an identity and the position it stands for, and
the two undo each other.
-/

namespace RuntimeTypes

/-- The token of one class object. -/
structure Identity where
  /-- The token's number. -/
  raw : Nat
  /-- Zero names no class object. -/
  raw_ne_zero : raw ≠ 0
  deriving DecidableEq, Repr

namespace Identity

/-- The identity with this number, if the number names one. -/
def ofRaw? (raw : Nat) : Option Identity :=
  if h : raw = 0 then none else some ⟨raw, h⟩

/-- The identity of the `index`-th class object of a table. -/
def ofIndex (index : Nat) : Identity :=
  ⟨index + 1, Nat.succ_ne_zero index⟩

/-- The position that an identity stands for in creation order. -/
def index (id : Identity) : Nat :=
  id.raw - 1

@[simp] theorem index_ofIndex (i : Nat) : (ofIndex i).index = i := rfl

@[simp] theorem ofIndex_index (id : Identity) : ofIndex id.index = id := by
  obtain ⟨raw, h⟩ := id
  simp only [ofIndex, index, mk.injEq]
  omega

theorem index_inj {a b : Identity} : a.index = b.index ↔ a = b :=
  ⟨fun h => by rw [← ofIndex_index a, ← ofIndex_index b, h], fun h => h ▸ rfl⟩

/-- An identity is written in lower-case hexadecimal after `@0x`. -/
def text (id : Identity) : String :=
  "@0x" ++ String.ofList (Nat.toDigits 16 id.raw)

end Identity

/-- The token of one class loader. -/
structure Loader where
  /-- Loaders are numbered in creation order. -/
  number : Nat
  deriving DecidableEq, Repr

/-- The loader that defines the root class. -/
def Loader.bootstrap : Loader := ⟨0⟩

end RuntimeTypes
