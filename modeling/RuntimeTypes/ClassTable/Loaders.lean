/-
Class loaders and their parents.

Loaders form a tree: the bootstrap loader at the top, every other loader below a
parent that existed before it.  The parents are listed with the latest loader
first, so the way from a loader to the top only ever looks further down the list,
and ends there.
-/
import RuntimeTypes.Identity

namespace RuntimeTypes

/-- The loaders of a class table. -/
structure LoaderTree where
  /-- The parent of each loader but the bootstrap loader, the latest loader first. -/
  parents : List Loader := []
  deriving DecidableEq, Repr

namespace LoaderTree

/-- Number of loaders. -/
def size (tree : LoaderTree) : Nat := tree.parents.length + 1

/-- Whether a loader exists. -/
def contains (tree : LoaderTree) (loader : Loader) : Bool :=
  decide (loader.number < tree.size)

/-- The next loader to be created.  Its number keeps the low 32 bits of its place in the tree. -/
def fresh (tree : LoaderTree) : Loader := ⟨tree.size % UInt32.size⟩

/-- The tree with a fresh loader below `parent`. -/
def add (tree : LoaderTree) (parent : Loader) : LoaderTree :=
  ⟨parent :: tree.parents⟩

/-- The way from a loader up to the bootstrap loader, in a list of parents. -/
def chainIn : List Loader → Loader → Option (List Loader)
  | [], loader => if loader = Loader.bootstrap then some [loader] else none
  | parent :: older, loader =>
    if loader.number = older.length + 1 then
      (chainIn older parent).map (loader :: ·)
    else
      chainIn older loader

/-- A loader and its ancestors up to the bootstrap loader, if the loader exists. -/
def chain? (tree : LoaderTree) (loader : Loader) : Option (List Loader) :=
  chainIn tree.parents loader

theorem head?_chainIn {parents : List Loader} {loader : Loader} {chain : List Loader}
    (h : chainIn parents loader = some chain) : chain.head? = some loader := by
  induction parents with
  | nil =>
    simp only [chainIn] at h
    split at h
    · obtain rfl := Option.some.inj h
      rfl
    · cases h
  | cons parent older ih =>
    simp only [chainIn] at h
    split at h
    · obtain ⟨rest, _, rfl⟩ := Option.map_eq_some_iff.1 h
      rfl
    · exact ih h

theorem getLast?_chainIn {parents : List Loader} {loader : Loader} {chain : List Loader}
    (h : chainIn parents loader = some chain) : chain.getLast? = some Loader.bootstrap := by
  induction parents generalizing loader chain with
  | nil =>
    simp only [chainIn] at h
    split at h
    · rename_i hb
      obtain rfl := Option.some.inj h
      simp [hb]
    · cases h
  | cons parent older ih =>
    simp only [chainIn] at h
    split at h
    · obtain ⟨rest, hrest, rfl⟩ := Option.map_eq_some_iff.1 h
      have hlast := ih hrest
      cases rest with
      | nil => cases hlast
      | cons l rest => simpa using hlast
    · exact ih h

end LoaderTree

end RuntimeTypes
