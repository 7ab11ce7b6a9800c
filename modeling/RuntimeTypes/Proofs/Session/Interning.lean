/-
Names are the same number exactly when they are the same text.

`given` lists the calls that intern some texts, with what each call has answered, so that a
table can be asked at any point what it makes of the numbers it has given out before.  What
carries the file is one step: interning a text leaves every text found that was found
before, finds this one, and finds no other.  By induction on the calls a table finds exactly
what it has been given, and `Canonical` is read off from there, since no two texts of a table
share a number.

A session interns every name that it builds a handle for, so its handles compare their names
by number.  Nothing needs to be known of the store.
-/
import Mathlib.Data.Finset.Card
import Mathlib.Data.List.Induction
import RuntimeTypes.Proofs.Session.Failures

namespace RuntimeTypes

open Relation

namespace NameTable

variable {names : NameTable} {text other : String} {name name' : NameId}

/-- The calls that intern some texts one after the other, each with the number it has answered. -/
def given (names : NameTable) : List String → List (String × NameId)
  | [] => []
  | text :: texts => (text, (names.intern text).1) :: (names.intern text).2.given texts

theorem map_fst_given (names : NameTable) (texts : List String) :
    (names.given texts).map Prod.fst = texts := by
  induction texts generalizing names with
  | nil => rfl
  | cons text texts ih => simp [given, ih]

theorem internAll_append (names : NameTable) (earlier later : List String) :
    names.internAll (earlier ++ later) = (names.internAll earlier).internAll later :=
  List.foldl_append

theorem given_append (names : NameTable) (earlier later : List String) :
    names.given (earlier ++ later)
      = names.given earlier ++ (names.internAll earlier).given later := by
  induction earlier generalizing names with
  | nil => rfl
  | cons text texts ih => simp [given, ih, internAll]

/-! ### One call -/

/-- After a text has been interned it is found under the number that was answered.  Apart from that,
what is found is what was found before. -/
theorem find?_intern_iff (names : NameTable) :
    (names.intern text).2.find? other = some name ↔
      names.find? other = some name ∨ (other, name) = (text, (names.intern text).1) := by
  constructor
  · intro h
    cases ht : names.find? text with
    | some old =>
        rw [intern_of_find? ht] at h
        exact .inl h
    | none =>
        rw [intern_of_none ht, find?_add] at h
        by_cases hother : text = other
        · rw [if_pos hother] at h
          rw [intern_of_none ht, ← hother, Option.some.inj h]
          exact .inr rfl
        · rw [if_neg hother] at h
          exact .inl h
  · intro h
    obtain h | h := h
    · exact find?_intern_of_find? h text
    · obtain ⟨rfl, rfl⟩ := Prod.mk.inj h
      exact find?_intern names other

theorem size_intern (names : NameTable) (text : String) :
    (names.intern text).2.size = names.size + if names.find? text = none then 1 else 0 := by
  cases ht : names.find? text with
  | some name => simp [intern_of_find? ht]
  | none => simp [intern_of_none ht, add, size]

theorem size_intern_le (haway : names.intern? text ≠ none) (h : names.size ≤ mostNames) :
    (names.intern text).2.size ≤ mostNames := by
  rw [size_intern]
  split
  · rename_i hnew
    exact Nat.lt_of_not_le fun hfull => haway (intern?_eq_none_iff.mpr ⟨hnew, hfull⟩)
  · exact h

/-! ### All calls -/

/-- A table finds what it has found at first, and what it has been asked for since. -/
theorem find?_internAll_iff (names : NameTable) (texts : List String) :
    (names.internAll texts).find? text = some name ↔
      names.find? text = some name ∨ (text, name) ∈ names.given texts := by
  induction texts generalizing names with
  | nil => simp [internAll, given]
  | cons first texts ih =>
      show ((names.intern first).2.internAll texts).find? text = some name ↔ _
      rw [ih, find?_intern_iff, given, List.mem_cons, or_assoc]

theorem find?_fresh_iff (texts : List String) :
    (internAll empty texts).find? text = some name ↔ (text, name) ∈ given empty texts := by
  rw [find?_internAll_iff, find?_empty]
  simp

theorem find?_fresh_eq_none (texts : List String) :
    (internAll empty texts).find? text = none ↔ text ∉ texts := by
  have hasked : text ∈ texts ↔ text ∈ (given empty texts).map Prod.fst := by rw [map_fst_given]
  rw [Option.eq_none_iff_forall_ne_some, hasked]
  simp [find?_fresh_iff]

theorem size_fresh (texts : List String) :
    (internAll empty texts).size = texts.toFinset.card := by
  induction texts using List.reverseRecOn with
  | nil => rfl
  | append_singleton texts text ih =>
      have hstep : internAll empty (texts ++ [text]) = ((internAll empty texts).intern text).2 :=
        internAll_append empty texts [text]
      have hset : (texts ++ [text]).toFinset = insert text texts.toFinset := by
        ext other
        simp
      rw [hstep, size_intern, ih, hset]
      by_cases hmem : text ∈ texts
      · have hold : (internAll empty texts).find? text ≠ none := by simpa [find?_fresh_eq_none]
        rw [if_neg hold, Finset.insert_eq_of_mem (List.mem_toFinset.mpr hmem), Nat.add_zero]
      · have hnew : text ∉ texts.toFinset := by simpa
        rw [if_pos ((find?_fresh_eq_none texts).mpr hmem), Finset.card_insert_of_notMem hnew]

theorem name_eq_iff (ht : names.find? text = some name) (ho : names.find? other = some name') :
    name = name' ↔ text = other := by
  constructor
  · rintro rfl
    exact Option.some.inj ((text?_of_find? ht).symm.trans (text?_of_find? ho))
  · rintro rfl
    exact Option.some.inj (ht.symm.trans ho)

/-- What a fresh table makes of its texts and numbers once these texts have been interned. -/
structure Canonical (texts : List String) : Prop where
  /-- Each call is answered. -/
  asked : (given empty texts).map Prod.fst = texts
  /-- Two calls have been answered the same exactly if they were for the same text. -/
  same_iff : ∀ first ∈ given empty texts, ∀ second ∈ given empty texts,
    first.2 = second.2 ↔ first.1 = second.1
  /-- A number leads back to its text, whatever is interned later. -/
  lasting : ∀ call ∈ given empty texts, ∀ later,
    (internAll empty (texts ++ later)).text? call.2 = some call.1
  /-- The texts interned so far are found under the numbers they were given, and no others are. -/
  found_iff : ∀ text name,
    (internAll empty texts).find? text = some name ↔ (text, name) ∈ given empty texts
  /-- The texts that are not found are those that have not been interned. -/
  missing_iff : ∀ text, (internAll empty texts).find? text = none ↔ text ∉ texts
  /-- Each text is there once. -/
  size : (internAll empty texts).size = texts.toFinset.card
  /-- A text is turned away only if it is not among these, and these take all numbers of 32 bits. -/
  turned_away_iff : ∀ text, (internAll empty texts).intern? text = none ↔
    text ∉ texts ∧ mostNames ≤ texts.toFinset.card
  /-- Otherwise the table is asked. -/
  answered : ∀ text made, (internAll empty texts).intern? text = some made →
    made = (internAll empty texts).intern text

theorem canonical (texts : List String) : Canonical texts where
  asked := map_fst_given empty texts
  same_iff := by
    intro first hfirst second hsecond
    exact name_eq_iff ((find?_fresh_iff texts).mpr hfirst) ((find?_fresh_iff texts).mpr hsecond)
  lasting := by
    intro call hcall later
    refine text?_of_find? ((find?_fresh_iff _).mpr ?_)
    rw [given_append]
    exact List.mem_append_left _ hcall
  found_iff := fun _ _ => find?_fresh_iff texts
  missing_iff := fun _ => find?_fresh_eq_none texts
  size := size_fresh texts
  turned_away_iff := fun text => by
    rw [intern?_eq_none_iff, find?_fresh_eq_none, size_fresh]
  answered := fun _ _ => eq_intern_of_intern?

end NameTable

namespace Session

variable {s s' : Session}

/-- The names of a session are those it has met, and its handles have the same name exactly if they
have the same text. -/
structure NamesAgree (s : Session) : Prop where
  /-- The names have been interned one after the other. -/
  interned : ∃ texts, s.names = NameTable.internAll .empty texts
  /-- The name of a handle is one of them. -/
  named : ∀ {r h}, s.handle r = .ok h →
    ∃ text, s.names.find? text = some h.name ∧ s.nameText r = .ok text
  /-- Names are compared by number. -/
  same_iff : ∀ {r r' h h'}, s.handle r = .ok h → s.handle r' = .ok h' →
    (h.name = h'.name ↔ s.nameText r = s.nameText r')
  /-- There is a number of 32 bits for each name. -/
  numbered : s.names.size ≤ NameTable.mostNames

theorem Move.names (h : s.Move s') : ∃ texts, s'.names = s.names.internAll texts := by
  cases h with
  | hit | scope => exact ⟨[], rfl⟩
  | @name text => exact ⟨[text], rfl⟩
  | ofClass _ _ _ hs =>
      obtain ⟨-, rfl⟩ := addClass_eq_ok hs
      exact ⟨[], rfl⟩
  | placeholder _ _ _ hs =>
      obtain ⟨-, rfl⟩ := addPlaceholder_eq_ok hs
      exact ⟨[], rfl⟩
  | primitive _ _ _ hs =>
      obtain ⟨-, rfl⟩ := addPrimitive_eq_ok hs
      exact ⟨[], rfl⟩

theorem Moves.names (h : s.Moves s') : ∃ texts, s'.names = s.names.internAll texts := by
  induction h with
  | refl => exact ⟨[], rfl⟩
  | tail _ hmove ih =>
      obtain ⟨earlier, hearlier⟩ := ih
      obtain ⟨later, hlater⟩ := hmove.names
      exact ⟨earlier ++ later, by rw [hlater, hearlier, NameTable.internAll_append]⟩

/-- A name that is remembered has got a number. -/
theorem Move.size_names_le (hm : s.Move s') (h : s.names.size ≤ NameTable.mostNames) :
    s'.names.size ≤ NameTable.mostNames := by
  cases hm with
  | hit | scope => exact h
  | name hname =>
      refine NameTable.size_intern_le (fun haway => ?_) h
      simp [intern, haway] at hname
  | ofClass _ _ _ hs =>
      obtain ⟨-, rfl⟩ := addClass_eq_ok hs
      exact h
  | placeholder _ _ _ hs =>
      obtain ⟨-, rfl⟩ := addPlaceholder_eq_ok hs
      exact h
  | primitive _ _ _ hs =>
      obtain ⟨-, rfl⟩ := addPrimitive_eq_ok hs
      exact h

theorem Moves.size_names_le {number : Nat} {options : Options}
    (h : (start number options).Moves s) : s.names.size ≤ NameTable.mostNames := by
  induction h with
  | refl => exact Nat.zero_le _
  | tail _ hmove ih => exact hmove.size_names_le ih

theorem Listed.namesAgree (h : s.Listed)
    (hinterned : ∃ texts, s.names = NameTable.internAll .empty texts)
    (hnumbered : s.names.size ≤ NameTable.mostNames) : s.NamesAgree := by
  have hnamed : ∀ {r h}, s.handle r = .ok h →
      ∃ text, s.names.find? text = some h.name ∧ s.nameText r = .ok text := by
    intro r hd hr
    obtain ⟨text, hfound⟩ := h.named hr
    exact ⟨text, hfound, by simp [nameText, hr, bind, Except.bind, NameTable.text?_of_find? hfound]⟩
  refine ⟨hinterned, hnamed, ?_, hnumbered⟩
  intro r r' hd hd' hr hr'
  obtain ⟨text, hfound, htext⟩ := hnamed hr
  obtain ⟨text', hfound', htext'⟩ := hnamed hr'
  rw [htext, htext', Except.ok.injEq]
  exact NameTable.name_eq_iff hfound hfound'

/-- **Names are the same number exactly when they are the same text**: in a table of names after any
texts have been interned, and among the handles of a session, whatever it has been asked and
whatever the stores have answered. -/
theorem through_names {σ : Type} [MetadataSource σ] :
    (∀ texts, NameTable.Canonical texts) ∧
      ∀ (number : Nat) (options : Options) (steps : List (Heap σ × Request)),
        ((start number options).through steps).NamesAgree := by
  refine ⟨NameTable.canonical, ?_⟩
  intro number options steps
  have hmoves := through_moves (start number options) steps
  exact (Moves.keeps hmoves).2.namesAgree hmoves.names hmoves.size_names_le

end Session

end RuntimeTypes
