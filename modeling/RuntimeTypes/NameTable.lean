/-
Interned names: each distinct text once, numbered in order of arrival.

Two names are the same number exactly when they are the same text, so the handles
of a session compare names without looking at them.  Texts are found by number in
the order of their arrival and numbers by text in an index, and a table cannot be
put together in which the two disagree.

A number is of 32 bits and never zero, so there are `mostNames` of them.  `intern`
says which number a text gets and `intern?` whether there is one left to get.
-/
import RuntimeTypes.Index

namespace RuntimeTypes

/-- The number of an interned text. -/
structure NameId where
  /-- Position in order of arrival. -/
  index : Nat
  deriving DecidableEq, Repr

/-- The texts interned so far. -/
structure NameTable where
  /-- Distinct texts in order of arrival. -/
  texts : Array String
  /-- The number of each text. -/
  numbers : Index String NameId
  /-- A text leads to its number, and the number leads back. -/
  paired : ∀ text name, numbers.get? text = some name ↔ texts[name.index]? = some text
  deriving DecidableEq, Repr

namespace NameTable

/-- The table without texts. -/
def empty : NameTable where
  texts := #[]
  numbers := .empty
  paired := by
    intro text name
    simp

instance : EmptyCollection NameTable := ⟨empty⟩

/-- Number of distinct texts. -/
def size (names : NameTable) : Nat := names.texts.size

/-- The number of a text that has been interned. -/
def find? (names : NameTable) (text : String) : Option NameId := names.numbers.get? text

/-- The text of a number. -/
def text? (names : NameTable) (name : NameId) : Option String :=
  names.texts[name.index]?

/-- The table with a further text, under the next number. -/
def add (names : NameTable) (text : String) (new : names.find? text = none) : NameTable where
  texts := names.texts.push text
  numbers := names.numbers.insert text ⟨names.size⟩
  paired := by
    intro other name
    rw [Index.get?_insert, Array.getElem?_push]
    by_cases hlast : name.index = names.texts.size
    · -- The next number is that of no text before.
      have hname : (⟨names.size⟩ : NameId) = name := by rw [size, ← hlast]
      have hold : names.numbers.get? other ≠ some name := by simp [names.paired, hlast]
      by_cases hother : text = other <;> simp [hother, hlast, hname, hold]
    · -- The further text has no number before.
      have hname : (⟨names.size⟩ : NameId) ≠ name := by
        rintro rfl
        exact hlast rfl
      have hnew : names.numbers.get? text = none := new
      rw [if_neg hlast, ← names.paired]
      by_cases hother : text = other
      · simp [← hother, hname, hnew]
      · simp [hother]

@[simp] theorem find?_empty (text : String) : empty.find? text = none := rfl

/-- The number of a text, which is the next one if the text is new. -/
def intern (names : NameTable) (text : String) : NameId × NameTable :=
  match h : names.find? text with
  | some name => (name, names)
  | none => (⟨names.size⟩, names.add text h)

/-- A text that has been interned leads to its number and back. -/
theorem find?_eq_some_iff {names : NameTable} {text : String} {name : NameId} :
    names.find? text = some name ↔ names.text? name = some text :=
  names.paired text name

/-- A number leads back to its text. -/
theorem text?_of_find? {names : NameTable} {text : String} {name : NameId}
    (h : names.find? text = some name) : names.text? name = some text :=
  find?_eq_some_iff.mp h

theorem intern_of_find? {names : NameTable} {text : String} {name : NameId}
    (h : names.find? text = some name) : names.intern text = (name, names) := by
  unfold intern
  split <;> simp_all

theorem intern_of_none {names : NameTable} {text : String} (h : names.find? text = none) :
    names.intern text = (⟨names.size⟩, names.add text h) := by
  unfold intern
  split <;> simp_all

theorem find?_add {names : NameTable} {text : String} (new : names.find? text = none)
    (other : String) : (names.add text new).find? other
      = if text = other then some ⟨names.size⟩ else names.find? other :=
  Index.get?_insert ..

theorem find?_intern (names : NameTable) (text : String) :
    (names.intern text).2.find? text = some (names.intern text).1 := by
  cases h : names.find? text with
  | some name => rw [intern_of_find? h, h]
  | none => rw [intern_of_none h, find?_add, if_pos rfl]

/-- Interning a text leaves the numbers of the others as they are. -/
theorem find?_intern_of_find? {names : NameTable} {name : NameId} {old : String}
    (h : names.find? old = some name) (text : String) :
    (names.intern text).2.find? old = some name := by
  cases ht : names.find? text with
  | some other => rw [intern_of_find? ht, h]
  | none =>
      rw [intern_of_none ht, find?_add, if_neg, h]
      rintro rfl
      rw [h] at ht
      cases ht

/-- Interning a text leaves the others where they are. -/
theorem text?_intern_of_text? {names : NameTable} {name : NameId} {old : String}
    (h : names.text? name = some old) (text : String) :
    (names.intern text).2.text? name = some old :=
  find?_eq_some_iff.mp (find?_intern_of_find? (find?_eq_some_iff.mpr h) text)

/-! ### Running out of numbers -/

/-- How many numbers there are: one for each value of 32 bits but zero. -/
def mostNames : Nat := UInt32.size - 1

/-- The number of a text, unless the text is new and all numbers are given out. -/
def intern? (names : NameTable) (text : String) : Option (NameId × NameTable) :=
  if (names.find? text).isNone ∧ mostNames ≤ names.size then none else some (names.intern text)

/-- Only a new text is turned away, and only where no number is left. -/
theorem intern?_eq_none_iff {names : NameTable} {text : String} :
    names.intern? text = none ↔ names.find? text = none ∧ mostNames ≤ names.size := by
  simp [intern?]

theorem eq_intern_of_intern? {names : NameTable} {text : String} {made : NameId × NameTable}
    (h : names.intern? text = some made) : made = names.intern text := by
  unfold intern? at h
  split at h
  · cases h
  · exact (Option.some.inj h).symm

end NameTable

end RuntimeTypes
