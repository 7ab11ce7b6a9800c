/-
External names worked out with slices of bytes.

A text is stored in UTF-8, and to cut a piece out of it, two byte offsets are named.  That
goes wrong where an offset is behind the end or inside a character, or the piece would end
before it starts; `slice?` has no answer then.  `spell?` works an external name out
in this way.  It always has an answer, the one that `externalName` works out over
characters.

What makes it so is that all that is looked for is ASCII.  Brackets are counted in bytes, and
no other character has a byte of theirs in front; so the element starts where a character
starts.  An `L` takes one byte, a `;` takes one, and they are different; so the name between
them starts and ends where characters do, and there is room for both.
-/
import Mathlib.Data.List.TakeWhile
import RuntimeTypes.ExternalName

namespace RuntimeTypes

namespace ExternalName

/-! ### Slices -/

/-- The piece of a text from one byte offset to another. -/
def slice? (text : String) (start stop : Nat) : Option String :=
  if h : start ≤ stop ∧ String.Pos.Raw.IsValid text ⟨start⟩ ∧ String.Pos.Raw.IsValid text ⟨stop⟩ then
    some (String.extract ⟨⟨start⟩, h.2.1⟩ ⟨⟨stop⟩, h.2.2⟩)
  else
    none

theorem slice?_append (before piece after : String) :
    slice? (before ++ piece ++ after) before.utf8ByteSize
      (before.utf8ByteSize + piece.utf8ByteSize) = some piece := by
  have hstart : String.Pos.Raw.IsValid (before ++ piece ++ after) ⟨before.utf8ByteSize⟩ :=
    String.Pos.Raw.isValid_iff_exists_append.mpr
      ⟨before, piece ++ after, String.append_assoc .., rfl⟩
  have hstop : String.Pos.Raw.IsValid (before ++ piece ++ after)
      ⟨before.utf8ByteSize + piece.utf8ByteSize⟩ :=
    String.Pos.Raw.isValid_iff_exists_append.mpr
      ⟨before ++ piece, after, rfl, by rw [← String.utf8ByteSize_append]; rfl⟩
  unfold slice?
  rw [dif_pos ⟨Nat.le_add_right _ _, hstart, hstop⟩, Option.some_inj, ← String.toByteArray_inj,
    String.toByteArray_extract]
  show (before ++ piece ++ after).toByteArray.extract (before.utf8ByteSize + 0)
    (before.utf8ByteSize + piece.utf8ByteSize) = piece.toByteArray
  rw [String.toByteArray_append, String.toByteArray_append, ByteArray.append_assoc,
    ByteArray.extract_append_size_add' String.size_toByteArray.symm,
    ByteArray.extract_append_eq_left String.size_toByteArray.symm]

/-- A character may take several bytes, and none of them can be cut off. -/
example : slice? "aé" 1 3 = some "é" ∧ slice? "aé" 2 3 = none := by decide

theorem slice?_append_right (before piece : String) :
    slice? (before ++ piece) before.utf8ByteSize (before ++ piece).utf8ByteSize = some piece := by
  have h := slice?_append before piece ""
  rwa [String.append_empty, ← String.utf8ByteSize_append] at h

/-! ### Spelling with slices -/

/-- Slashes become dots. -/
def dottedText (text : String) : String := String.ofList (dotted text.toList)

/-- How many bytes of the text in front are brackets. -/
def bracketBytes (text : String) : Nat :=
  (text.toByteArray.data.toList.takeWhile (· = 0x5B)).length

/-- The external name of an array element, if this is an element descriptor. -/
def spellElement? (element : String) : Option (Option String) :=
  match element.toList.head?.bind BasicType.ofDescriptor? with
  | none => some none
  | some type =>
    if type = .object ∧ element.toList.getLast? = some ';' then
      (slice? element 1 (element.utf8ByteSize - 1)).map fun name => some (dottedText name)
    else if element.utf8ByteSize = 1 ∧ type.isReference = false then
      some (some type.name)
    else
      some none

/-- The external spelling of an internal name. -/
def spell? (internal : String) : Option String :=
  let dims := bracketBytes internal
  if dims = 0 then
    some (dottedText internal)
  else do
    let element ← slice? internal dims internal.utf8ByteSize
    let name? ← spellElement? element
    match name? with
    | some name => some (name ++ String.ofList (brackets dims))
    | none => some (dottedText internal)

/-- Only a bracket has the byte of a bracket in front. -/
theorem utf8EncodeChar_eq_cons (c : Char) :
    ∃ b bs, String.utf8EncodeChar c = b :: bs ∧ (b = 0x5B ↔ c = '[') := by
  have hchar : c = '[' ↔ c.val.toNat = 0x5B := by
    rw [Char.ext_iff, ← UInt32.toNat_inj]
    rfl
  have hbyte : ∀ n < 256, UInt8.ofNat n = 0x5B ↔ n = 0x5B := by
    intro n hn
    rw [← UInt8.toNat_inj, UInt8.toNat_ofNat_of_lt' hn]
    rfl
  have hcons : ∀ (n : Nat) (bs : List UInt8), n < 256 → n ≠ 0x5B → c.val.toNat ≠ 0x5B →
      ∃ b bs', UInt8.ofNat n :: bs = b :: bs' ∧ (b = 0x5B ↔ c = '[') := fun n bs hn hne hv =>
    ⟨_, _, rfl, by rw [hbyte n hn, hchar]; exact iff_of_false hne hv⟩
  unfold String.utf8EncodeChar
  simp only
  split
  · exact ⟨_, _, rfl, by rw [hbyte _ (by omega), hchar]⟩
  · split
    · exact hcons _ _ (by omega) (by omega) (by omega)
    · split
      · exact hcons _ _ (by omega) (by omega) (by omega)
      · exact hcons _ _ (by omega) (by omega) (by omega)

theorem bracketBytes_ofList (cs : List Char) :
    bracketBytes (String.ofList cs) = (cs.takeWhile (· = '[')).length := by
  unfold bracketBytes
  rw [String.toByteArray_ofList, List.utf8Encode, List.data_toByteArray, List.toList_toArray]
  induction cs with
  | nil => rfl
  | cons c cs ih =>
      obtain ⟨b, bs, hbytes, hb⟩ := utf8EncodeChar_eq_cons c
      by_cases hc : c = '['
      · subst hc
        have hone : String.utf8EncodeChar '[' = [0x5B] := by decide
        simp [hone, ih]
      · have hne : b ≠ 0x5B := fun h => hc (hb.mp h)
        simp [hbytes, hc, hne]

theorem utf8ByteSize_ofList_cons (c : Char) (cs : List Char) :
    (String.ofList (c :: cs)).utf8ByteSize = c.utf8Size + (String.ofList cs).utf8ByteSize := by
  have hsplit : String.ofList (c :: cs) = String.ofList [c] ++ String.ofList cs := by
    rw [← String.ofList_append, List.singleton_append]
  rw [hsplit, String.utf8ByteSize_append, ← String.singleton_eq_ofList, String.utf8ByteSize_singleton]

theorem utf8Size_descriptor (type : BasicType) : type.descriptor.utf8Size = 1 := by
  cases type <;> decide

theorem descriptor_of_ofDescriptor? {c : Char} {type : BasicType}
    (h : BasicType.ofDescriptor? c = some type) : type.descriptor = c := by
  simpa using List.find?_some h

theorem utf8ByteSize_ofList_brackets {cs : List Char} (h : ∀ c ∈ cs, c = '[') :
    (String.ofList cs).utf8ByteSize = cs.length := by
  induction cs with
  | nil => rfl
  | cons c cs ih =>
      obtain rfl := h c (by simp)
      rw [utf8ByteSize_ofList_cons, ih fun d hd => h d (by simp [hd]), List.length_cons]
      exact Nat.add_comm 1 _

/-- The name in an object's descriptor can be cut out. -/
theorem slice?_object (name : List Char) :
    slice? (String.ofList ('L' :: (name ++ [';']))) 1
      ((String.ofList ('L' :: (name ++ [';']))).utf8ByteSize - 1) = some (String.ofList name) := by
  have hsplit : String.ofList ('L' :: (name ++ [';'])) = "L" ++ String.ofList name ++ ";" := by
    rw [← String.toList_inj]
    simp
  have hsize : (String.ofList ('L' :: (name ++ [';']))).utf8ByteSize - 1
      = "L".utf8ByteSize + (String.ofList name).utf8ByteSize := by
    rw [hsplit, String.utf8ByteSize_append, String.utf8ByteSize_append]
    exact Nat.add_sub_cancel ..
  rw [hsize, hsplit]
  exact slice?_append "L" (String.ofList name) ";"

theorem element?_of_ne {c : Char} (h : c ≠ 'L') (rest : List Char) :
    element? (c :: rest) = if rest = [] then
        ((BasicType.ofDescriptor? c).filter (!·.isReference)).map (·.name.toList)
      else none := by
  cases rest with
  | nil =>
      unfold element?
      split
      · rename_i heq
        exact absurd (List.cons.inj heq).1 h
      · rename_i heq
        obtain ⟨rfl, -⟩ := List.cons.inj heq
        rfl
      · rename_i hne
        exact absurd rfl (hne c)
  | cons d rest =>
      unfold element?
      split <;> simp_all

/-- A descriptor other than an object's takes one byte if nothing follows it, and more otherwise. -/
theorem utf8ByteSize_eq_one {type : BasicType} {c : Char} (h : type.descriptor = c)
    (rest : List Char) : (String.ofList (c :: rest)).utf8ByteSize = 1 ↔ rest = [] := by
  rw [utf8ByteSize_ofList_cons, ← h, utf8Size_descriptor]
  cases rest with
  | nil => simp
  | cons d rest =>
      have hpos := d.utf8Size_pos
      rw [utf8ByteSize_ofList_cons]
      simp only [reduceCtorEq, iff_false]
      omega

/-- An element is spelled, or is no descriptor: the slice is always there. -/
theorem spellElement?_ofList (cs : List Char) :
    spellElement? (String.ofList cs) = some ((element? cs).map String.ofList) := by
  cases cs with
  | nil => rfl
  | cons c rest =>
      unfold spellElement?
      rw [String.toList_ofList, List.head?_cons, Option.bind_some]
      by_cases hL : c = 'L'
      · subst hL
        have hobject : BasicType.ofDescriptor? 'L' = some .object := by decide
        rw [hobject]
        rcases rest.eq_nil_or_concat with rfl | ⟨name, last, hrest⟩
        · decide
        · rw [List.concat_eq_append] at hrest
          subst hrest
          have hend : ('L' :: (name ++ [last])).getLast? = some last :=
            List.getLast?_concat (l := 'L' :: name)
          by_cases hlast : last = ';'
          · subst hlast
            simp only [hend, slice?_object name]
            simp [element?, dottedText]
          · simp [hend, element?, hlast, BasicType.isReference]
      · rw [element?_of_ne hL]
        cases htype : BasicType.ofDescriptor? c with
        | none => simp
        | some type =>
            have hc := descriptor_of_ofDescriptor? htype
            have hne : type ≠ .object := by
              rintro rfl
              exact hL hc.symm
            simp only [hne, false_and, if_false, utf8ByteSize_eq_one hc]
            by_cases hrest : rest = []
            · cases href : type.isReference <;> simp [hrest, Option.filter, href]
            · simp [hrest]

/-- What follows the brackets can be cut out. -/
theorem slice?_element (cs : List Char) :
    slice? (String.ofList cs) (cs.takeWhile (· = '[')).length (String.ofList cs).utf8ByteSize
      = some (String.ofList (cs.dropWhile (· = '['))) := by
  have hbrackets : ∀ c ∈ cs.takeWhile (· = '['), c = '[' := fun c hc => by
    simpa using List.mem_takeWhile_imp hc
  have hsplit : String.ofList cs = String.ofList (cs.takeWhile (· = '['))
      ++ String.ofList (cs.dropWhile (· = '[')) := by
    rw [← String.ofList_append, List.takeWhile_append_dropWhile]
  have hslice := slice?_append_right (String.ofList (cs.takeWhile (· = '[')))
    (String.ofList (cs.dropWhile (· = '[')))
  rwa [← hsplit, utf8ByteSize_ofList_brackets hbrackets] at hslice

/-- **The slices of an external name are always there**, whatever the internal name, and make up
the external name. -/
theorem spell?_eq (internal : String) : spell? internal = some (externalName internal) := by
  obtain ⟨cs, rfl⟩ := String.exists_eq_ofList internal
  unfold spell? externalName ofChars
  simp only [bracketBytes_ofList, String.toList_ofList, slice?_element, dottedText]
  cases hdims : cs.takeWhile (· = '[') with
  | nil => simp
  | cons c dims =>
      cases helement : element? (cs.dropWhile (· = '[')) with
      | none => simp [spellElement?_ofList, helement]
      | some element => simp [spellElement?_ofList, helement]

end ExternalName

end RuntimeTypes
