/-
The bodies that loading has given to classes, apart from any table.

A table forgets a class that is removed, and a session does not.  So what a session
holds is compared with an `Archive`, which only ever grows: `Within` says that one has
everything the other has.  `Loads` is what loading works out from the bodies at hand,
and it stays true in every archive that grows out of them.
-/
import Mathlib.Logic.Relation
import RuntimeTypes.ClassTable.Loading

namespace RuntimeTypes

/-- Whether the shape is an array's. -/
def ClassShape.isArray : ClassShape → Bool
  | .array _ => true
  | _ => false

@[simp] theorem ClassShape.isArray_interface : interface.isArray = false := rfl

@[simp] theorem ClassShape.isArray_instanceClass : instanceClass.isArray = false := rfl

/-- What other classes may extend: an ordinary class that is not final. -/
structure ClassBody.Extensible (b : ClassBody) : Prop where
  ordinary : b.shape = .instanceClass
  notFinal : Access.has b.flags.access Access.isFinal = false

namespace AncestryRecord

/-- Every supertype that a record names. -/
def supers (a : AncestryRecord) : List Identity := a.chain ++ a.secondary

theorem mem_supers {a : AncestryRecord} {id : Identity} :
    id ∈ a.supers ↔ id ∈ a.chain ∨ id ∈ a.secondary := List.mem_append

theorem mem_supers_of_chain {a : AncestryRecord} {id : Identity} (h : id ∈ a.chain) :
    id ∈ a.supers := List.mem_append_left _ h

theorem mem_supers_of_secondary {a : AncestryRecord} {id : Identity} (h : id ∈ a.secondary) :
    id ∈ a.supers := List.mem_append_right _ h

@[simp] theorem chain_place (c : Display.Capacity) (may : Bool) (chain secondary : List Identity) :
    (place c may chain secondary).chain = chain := rfl

@[simp] theorem secondary_place (c : Display.Capacity) (may : Bool)
    (chain secondary : List Identity) : (place c may chain secondary).secondary = secondary := rfl

end AncestryRecord

/-- The bodies of classes, each as loading gave it. -/
abbrev Archive := Identity → Option ClassBody

namespace Archive

/-- Everything that one archive holds, another holds too. -/
def Within (A B : Archive) : Prop := ∀ id body, A id = some body → B id = some body

theorem Within.refl (A : Archive) : A.Within A := fun _ _ h => h

theorem Within.trans {A B C : Archive} (h : Within A B) (h' : Within B C) : Within A C :=
  fun id body hb => h' id body (h id body hb)

/-- The archive with one body more. -/
def extend (A : Archive) (id : Identity) (body : ClassBody) : Archive :=
  fun other => if other = id then some body else A other

@[simp] theorem extend_self (A : Archive) (id : Identity) (body : ClassBody) :
    A.extend id body id = some body := if_pos rfl

theorem extend_eq_some {A : Archive} {id other : Identity} {body b : ClassBody} :
    A.extend id body other = some b ↔
      (other = id ∧ body = b) ∨ (other ≠ id ∧ A other = some b) := by
  unfold extend
  split <;> rename_i h <;> simp [h]

/-- An archive holds on to what it has, so the body has to be that of a class it does not know. -/
theorem within_extend {A : Archive} {id : Identity} (h : A id = none) (body : ClassBody) :
    A.Within (A.extend id body) := by
  intro other b hb
  refine extend_eq_some.mpr (Or.inr ⟨?_, hb⟩)
  rintro rfl
  rw [h] at hb
  cases hb

/-- An archive has taken over some of the bodies of another. -/
structure Gains (A B A' : Archive) : Prop where
  keeps : A.Within A'
  only : ∀ id body, A' id = some body → A id = some body ∨ B id = some body

theorem Gains.refl (A B : Archive) : Gains A B A := ⟨.refl A, fun _ _ h => Or.inl h⟩

theorem Gains.trans {A B C A' A'' : Archive} (h : Gains A B A') (h' : Gains A' C A'')
    (hBC : Within B C) : Gains A C A'' where
  keeps := h.keeps.trans h'.keeps
  only := fun id body hb => by
    rcases h'.only id body hb with hb | hb
    · exact (h.only id body hb).imp_right (hBC id body)
    · exact Or.inr hb

theorem gains_extend {A B : Archive} {id : Identity} {body : ClassBody} (hnew : A id = none)
    (hB : B id = some body) : Gains A B (A.extend id body) where
  keeps := within_extend hnew body
  only := fun other b hb => by
    rcases extend_eq_some.mp hb with ⟨rfl, rfl⟩ | ⟨-, hb⟩
    · exact Or.inr hB
    · exact Or.inl hb

/-- An archive that gains from one that has everything already, and all that is in it. -/
theorem Gains.eq {A B A' : Archive} (h : Gains A B A') (hA : Within A B) (hB : Within B A') :
    A' = B := by
  funext id
  cases hb : A' id with
  | some body => exact ((h.only id body hb).elim (hA id body) fun h => h).symm
  | none =>
      cases hB' : B id with
      | none => rfl
      | some body =>
          rw [hB id body hB'] at hb
          cases hb

/-! ### What loading works out -/

/-- The types that interfaces contribute to the secondary supertypes of an implementer. -/
def Contributes (A : Archive) (interfaces : List Identity) (s : Identity) : Prop :=
  ∃ i ∈ interfaces, ∃ body, A i = some body ∧ (s = i ∨ s ∈ body.ancestry.secondary)

/-- The body that a class file gives a class: everything that loading has checked and worked
out. -/
structure Loads (A : Archive) (capacity : Display.Capacity) (d : ClassFile)
    (body superBody : ClassBody) : Prop where
  superAt : A (ClassTable.superclassOf d) = some superBody
  superShape : superBody.shape = .instanceClass
  shape : body.shape = if d.isInterface then .interface else .instanceClass
  areInterfaces : ∀ i ∈ d.interfaces, ∃ b, A i = some b ∧ b.shape = .interface
  chain : body.ancestry.chain = superBody.ancestry.chain ++ [ClassTable.superclassOf d]
  /-- The secondary supertypes are the superclasses without a slot, those of the superclass, and
  what the interfaces contribute. -/
  mem_secondary : ∀ s, s ∈ body.ancestry.secondary ↔
    s ∈ body.ancestry.chain.drop capacity.slots ∨ s ∈ superBody.ancestry.secondary ∨
      A.Contributes d.interfaces s
  placed : body.ancestry = .place capacity (!d.isInterface) body.ancestry.chain
    body.ancestry.secondary

variable {A B : Archive}

theorem Contributes.mono (h : Within A B) {interfaces : List Identity} {s : Identity}
    (hc : A.Contributes interfaces s) : B.Contributes interfaces s := by
  obtain ⟨i, hi, body, hb, hs⟩ := hc
  exact ⟨i, hi, body, h i body hb, hs⟩

/-- Loaded interfaces contribute the same in an archive that holds more. -/
theorem contributes_iff (h : Within A B) {interfaces : List Identity}
    (hall : ∀ i ∈ interfaces, ∃ b, A i = some b ∧ b.shape = .interface) (s : Identity) :
    B.Contributes interfaces s ↔ A.Contributes interfaces s := by
  refine ⟨?_, fun hc => hc.mono h⟩
  rintro ⟨i, hi, body, hb, hs⟩
  obtain ⟨body', hb', -⟩ := hall i hi
  rw [h i body' hb'] at hb
  obtain rfl := Option.some.inj hb
  exact ⟨i, hi, body', hb', hs⟩

theorem areInterfaces_mono (h : Within A B) {interfaces : List Identity}
    (hall : ∀ i ∈ interfaces, ∃ b, A i = some b ∧ b.shape = .interface) :
    ∀ i ∈ interfaces, ∃ b, B i = some b ∧ b.shape = .interface := by
  intro i hi
  obtain ⟨b, hb, hshape⟩ := hall i hi
  exact ⟨b, h i b hb, hshape⟩

theorem Loads.mono (h : Within A B) {capacity : Display.Capacity} {d : ClassFile}
    {body superBody : ClassBody} (hl : A.Loads capacity d body superBody) :
    B.Loads capacity d body superBody where
  superAt := h _ _ hl.superAt
  superShape := hl.superShape
  shape := hl.shape
  areInterfaces := areInterfaces_mono h hl.areInterfaces
  chain := hl.chain
  mem_secondary := fun s => by rw [hl.mem_secondary, contributes_iff h hl.areInterfaces]
  placed := hl.placed

theorem Loads.notArray {capacity : Display.Capacity} {d : ClassFile} {body superBody : ClassBody}
    (hl : A.Loads capacity d body superBody) : body.shape.isArray = false := by
  rw [hl.shape]
  split <;> rfl

end Archive

end RuntimeTypes
