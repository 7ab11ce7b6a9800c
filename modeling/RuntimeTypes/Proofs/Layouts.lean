/-
Instance sizes, and why the word that holds one never wraps.

An instance takes whole machine words, at least one, and never more bytes than a positive
signed word can say.  `alignedSize` works that out in numbers of any size, where it is the
least multiple of a machine word that is large enough, cut off at the cap.  `alignedWord`
works the same out in words of 32 bits: the product may not fit there, and then the cap
takes its place.  The two agree for every size, and as the cap is below the sign bit, the
packed word is positive: it is not taken for an array's, nor for the neutral one.
-/
import Mathlib.Order.Bounds.Basic
import RuntimeTypes.Layout

namespace RuntimeTypes

namespace Layout

/-! ### Kinds of layouts -/

theorem toInt_raw_ofInstance (size : UInt32) :
    (ofInstance size).raw.toInt = alignedSize size.toNat := by
  refine Int32.toInt_ofNat_of_lt ?_
  unfold alignedSize maxInstanceSize
  omega

theorem alignedSize_pos (size : Nat) : 0 < alignedSize size := by
  unfold alignedSize maxInstanceSize wordSize
  omega

theorem isInstance_ofInstance (size : UInt32) : (ofInstance size).isInstance = true := by
  refine decide_eq_true (Int32.lt_iff_toInt_lt.mpr ?_)
  rw [toInt_raw_ofInstance]
  exact Int.ofNat_lt.mpr (alignedSize_pos size.toNat)

theorem not_isArray_and_isInstance (l : Layout) : ¬(l.isArray = true ∧ l.isInstance = true) := by
  rintro ⟨hneg, hpos⟩
  exact Int.lt_asymm (Int32.lt_iff_toInt_lt.mp (of_decide_eq_true hneg))
    (Int32.lt_iff_toInt_lt.mp (of_decide_eq_true hpos))

theorem isNeutral_iff (l : Layout) :
    l.isNeutral = true ↔ ¬l.isArray = true ∧ ¬l.isInstance = true := by
  unfold isNeutral isArray isInstance
  simp only [decide_eq_true_eq, Int32.lt_iff_toInt_lt, ← Int32.toInt_inj]
  omega

/-! ### Whole machine words -/

/-- The multiples of a machine word that have room for an instance of `size` bytes. -/
def Roomy (size : Nat) : Set Nat := {n | wordSize ∣ n ∧ max size wordSize ≤ n}

theorem exists_isLeast_alignedSize (size : Nat) :
    ∃ least, IsLeast (Roomy size) least ∧ alignedSize size = min least maxInstanceSize := by
  refine ⟨max ((size + (wordSize - 1)) / wordSize) 1 * wordSize, ⟨⟨Nat.dvd_mul_left _ _, ?_⟩, ?_⟩, rfl⟩
  · unfold wordSize
    omega
  · rintro n ⟨⟨words, rfl⟩, hroom⟩
    unfold wordSize at hroom ⊢
    omega

theorem isGreatest_maxInstanceSize :
    IsGreatest {n : Nat | wordSize ∣ n ∧ (n : Int) ≤ Int32.maxValue.toInt} maxInstanceSize := by
  refine ⟨by decide, ?_⟩
  rintro n ⟨⟨words, rfl⟩, hfits⟩
  have hmax : Int32.maxValue.toInt = 2147483647 := by decide
  unfold wordSize at hfits ⊢
  unfold maxInstanceSize
  omega

theorem alignedSize_mono {size larger : Nat} (h : size ≤ larger) :
    alignedSize size ≤ alignedSize larger := by
  unfold alignedSize wordSize
  omega

theorem le_alignedSize {size : Nat} (h : size ≤ maxInstanceSize) : size ≤ alignedSize size := by
  unfold alignedSize wordSize
  omega

theorem alignedSize_alignedSize (size : Nat) :
    alignedSize (alignedSize size) = alignedSize size := by
  unfold alignedSize wordSize maxInstanceSize
  omega

/-! ### In words of 32 bits -/

/-- The product of two words, if it fits into one. -/
def checkedMul? (a b : UInt32) : Option UInt32 :=
  if a.toNat * b.toNat < UInt32.size then some (a * b) else none

/-- How many pieces of size `b` it takes to cover `a`. -/
def ceilDiv (a b : UInt32) : UInt32 := if 0 < a % b then a / b + 1 else a / b

/-- The positive signed words, without the bits of a part of a machine word. -/
def maxInstanceWord : UInt32 := Int32.maxValue.toUInt32 &&& ~~~(UInt32.ofNat wordSize - 1)

/-- The number of bytes an instance of `size` bytes takes, in 32-bit arithmetic. -/
def alignedWord (size : UInt32) : UInt32 :=
  let bytes? := checkedMul? (max (ceilDiv size (UInt32.ofNat wordSize)) 1) (UInt32.ofNat wordSize)
  min (bytes?.getD maxInstanceWord) maxInstanceWord

theorem toNat_maxInstanceWord : maxInstanceWord.toNat = maxInstanceSize := by decide

theorem toNat_ofNat_wordSize : (UInt32.ofNat wordSize).toNat = wordSize := by decide

theorem toNat_max (a b : UInt32) : (max a b).toNat = max a.toNat b.toNat := by
  change (if a ≤ b then b else a).toNat = _
  split <;> rename_i h <;> rw [UInt32.le_iff_toNat_le] at h <;> omega

theorem toNat_min (a b : UInt32) : (min a b).toNat = min a.toNat b.toNat := by
  change (if a ≤ b then a else b).toNat = _
  split <;> rename_i h <;> rw [UInt32.le_iff_toNat_le] at h <;> omega

theorem checkedMul?_of_lt {a b : UInt32} (h : a.toNat * b.toNat < UInt32.size) :
    ∃ c, checkedMul? a b = some c ∧ c.toNat = a.toNat * b.toNat :=
  ⟨a * b, if_pos h, (UInt32.toNat_mul a b).trans (Nat.mod_eq_of_lt h)⟩

/-- Covering in pieces of a machine word is rounding up: the successor never wraps, as the quotient
is far below the top. -/
theorem toNat_ceilDiv_wordSize (size : UInt32) :
    (ceilDiv size (UInt32.ofNat wordSize)).toNat = (size.toNat + (wordSize - 1)) / wordSize := by
  have hsize := size.toNat_lt
  unfold ceilDiv
  split <;> rename_i h <;>
    simp only [UInt32.lt_iff_toNat_lt, UInt32.toNat_mod, UInt32.toNat_add, UInt32.toNat_div,
      toNat_ofNat_wordSize, UInt32.toNat_zero, UInt32.toNat_one] at h ⊢ <;>
    unfold wordSize at h ⊢ <;> omega

/-- **The arithmetic of 32 bits gives the same number of bytes.**  Where the product does not fit,
neither the number nor the cap depends on by how much. -/
theorem toNat_alignedWord (size : UInt32) : (alignedWord size).toNat = alignedSize size.toNat := by
  have hwords : (max (ceilDiv size (UInt32.ofNat wordSize)) 1).toNat
      = max ((size.toNat + (wordSize - 1)) / wordSize) 1 := by
    rw [toNat_max, toNat_ceilDiv_wordSize, UInt32.toNat_one]
  unfold alignedWord alignedSize
  rw [toNat_min, toNat_maxInstanceWord, ← hwords]
  generalize max (ceilDiv size (UInt32.ofNat wordSize)) 1 = words
  by_cases hfits : words.toNat * wordSize < UInt32.size
  · obtain ⟨bytes, hbytes, heq⟩ := checkedMul?_of_lt (a := words) (b := UInt32.ofNat wordSize)
      (by rwa [toNat_ofNat_wordSize])
    rw [hbytes, Option.getD_some, heq, toNat_ofNat_wordSize]
  · have hbytes : checkedMul? words (UInt32.ofNat wordSize) = none :=
      if_neg (by rwa [toNat_ofNat_wordSize])
    have hcap : maxInstanceSize ≤ words.toNat * wordSize :=
      Nat.le_trans (by decide) (Nat.not_lt.mp hfits)
    rw [hbytes, Option.getD_none, toNat_maxInstanceWord, Nat.min_self, Nat.min_eq_right hcap]

theorem raw_ofInstance (size : UInt32) : (ofInstance size).raw = (alignedWord size).toInt32 := by
  unfold ofInstance
  rw [← toNat_alignedWord, ← UInt32.toInt32_ofNat', UInt32.ofNat_toNat]

theorem instanceSize?_ofInstance (size : UInt32) :
    (ofInstance size).instanceSize? = some (alignedSize size.toNat) := by
  unfold instanceSize?
  rw [if_pos (isInstance_ofInstance size), raw_ofInstance, UInt32.toUInt32_toInt32,
    toNat_alignedWord]

/-! ### No size wraps -/

/-- What the layout says of an instance of `size` bytes that takes `taken` bytes. -/
structure Holds (size taken : UInt32) : Prop where
  /-- It is a layout of instances, and no other. -/
  kind : (ofInstance size).isInstance = true ∧ (ofInstance size).isArray = false ∧
    (ofInstance size).isNeutral = false
  /-- It is read back as the number of bytes taken. -/
  read : (ofInstance size).instanceSize? = some taken.toNat
  /-- The bytes taken are the least that is roomy, cut off at the cap. -/
  least : ∃ n, IsLeast (Roomy size.toNat) n ∧ taken.toNat = min n maxInstanceSize
  /-- The arithmetic of 32 bits and the cast to a signed word lose nothing. -/
  word : alignedWord size = taken ∧ (ofInstance size).raw.toInt = (taken.toNat : Int)
  /-- A larger instance takes as many bytes at least. -/
  mono : ∀ larger n, size ≤ larger → (ofInstance larger).instanceSize? = some n → taken.toNat ≤ n
  /-- The instance fits, up to the cap. -/
  fits : size.toNat ≤ maxInstanceSize → size ≤ taken
  /-- To ask for as many bytes as it takes changes nothing. -/
  again : ofInstance taken = ofInstance size

theorem holds_alignedWord (size : UInt32) : Holds size (alignedWord size) := by
  have hinstance := isInstance_ofInstance size
  have hnot := not_isArray_and_isInstance (ofInstance size)
  constructor
  case kind =>
    refine ⟨hinstance, ?_, ?_⟩
    · simpa [hinstance] using hnot
    · simpa [hinstance] using (isNeutral_iff (ofInstance size)).not
  case read => rw [instanceSize?_ofInstance, toNat_alignedWord]
  case least => rw [toNat_alignedWord]; exact exists_isLeast_alignedSize size.toNat
  case word => exact ⟨rfl, by rw [toInt_raw_ofInstance, toNat_alignedWord]⟩
  case mono =>
    intro larger n hle hread
    obtain rfl := Option.some.inj ((instanceSize?_ofInstance larger).symm.trans hread)
    rw [toNat_alignedWord]
    exact alignedSize_mono (UInt32.le_iff_toNat_le.mp hle)
  case fits =>
    intro hle
    rw [UInt32.le_iff_toNat_le, toNat_alignedWord]
    exact le_alignedSize hle
  case again =>
    unfold ofInstance
    rw [toNat_alignedWord, alignedSize_alignedSize]

/-- **No instance size wraps.**  Whatever the size, its layout is that of instances, which take the
least number of whole machine words with room for it, up to the largest number that a signed word
holds. -/
theorem ofInstance_never_wraps :
    IsGreatest {n : Nat | wordSize ∣ n ∧ (n : Int) ≤ Int32.maxValue.toInt} maxInstanceSize ∧
      ∀ size : UInt32, ∃! taken : UInt32, Holds size taken :=
  ⟨isGreatest_maxInstanceSize, fun size =>
    ⟨alignedWord size, holds_alignedWord size, fun _ h => h.word.1.symm⟩⟩

example : (ofInstance 4294967295).instanceSize? = some maxInstanceSize := by decide

end Layout

end RuntimeTypes
