/-
The names of arrays read back.

An array is named by putting a bracket in front of its element's descriptor, and the name is
spelled for people by counting the brackets and reading what follows them.  Reading undoes
naming for every element whose own name is `WellSpelled`: it does not start with a bracket,
or what follows its brackets is a descriptor.  Of other names, such as `[foo`, brackets are
no dimensions, and the array of such an element shows them both.

A class is never given a name that starts with a bracket if the root is not, and definitions
and declarations are not; the name of an array is always well spelled if its element's is.
So an invariant of all entries, `Spelled`, carries the names through any history, removals
included, and the arrays that a history makes are looked at where they are made.
-/
import Mathlib.Data.List.Induction
import RuntimeTypes.Proofs.Table.Lasting
import RuntimeTypes.Proofs.Arrays.Named

namespace RuntimeTypes

open Relation

/-! ### Names -/

namespace ExternalName

variable {cs : List Char}

theorem ofChars_plain (h : cs.head? ≠ some '[') : ofChars cs = dotted cs := by
  have hnone : cs.takeWhile (· = '[') = [] := by
    cases cs with
    | nil => rfl
    | cons c cs => exact List.takeWhile_cons_of_neg (by simpa using h)
  simp [ofChars, hnone]

/-- Brackets in front of a descriptor are dimensions. -/
theorem ofChars_bracket {element : List Char}
    (h : element? (cs.dropWhile (· = '[')) = some element) :
    ofChars ('[' :: cs) = element ++ brackets ((cs.takeWhile (· = '[')).length + 1) := by
  simp [ofChars, h]

theorem ofChars_bracket_of_none (h : element? (cs.dropWhile (· = '[')) = none) :
    ofChars ('[' :: cs) = dotted ('[' :: cs) := by
  simp [ofChars, h]

theorem element?_class (name : List Char) :
    element? ('L' :: (name ++ [';'])) = some (dotted name) := by
  simp [element?]

theorem brackets_succ (dims : Nat) : brackets (dims + 1) = brackets dims ++ ['[', ']'] := by
  induction dims with
  | zero => rfl
  | succ dims ih => exact congrArg (fun cs => '[' :: ']' :: cs) ih

theorem brackets_eq (dims : Nat) :
    brackets dims = (List.replicate dims "[]").flatMap String.toList := by
  induction dims with
  | zero => rfl
  | succ dims ih => simp [brackets, List.replicate_succ, ih]

theorem split_replicate (dims : Nat) {c : Char} (hc : c ≠ '[') (cs : List Char) :
    (List.replicate dims '[' ++ c :: cs).takeWhile (· = '[') = List.replicate dims '[' ∧
      (List.replicate dims '[' ++ c :: cs).dropWhile (· = '[') = c :: cs := by
  induction dims with
  | zero => simp [hc]
  | succ dims ih => simp [List.replicate_succ, ih]

end ExternalName

open ExternalName

/-- The name of arrays of a class, with so many dimensions. -/
def arraysNamed (dims : Nat) (name : String) : String :=
  String.ofList (List.replicate dims '[') ++ "L" ++ name ++ ";"

/-- The name is not spelled like an array's, or it is one: what follows its brackets is a
descriptor. -/
def WellSpelled (name : String) : Prop :=
  isArrayName name = true → (element? (name.toList.dropWhile (· = '['))).isSome = true

instance (name : String) : Decidable (WellSpelled name) :=
  inferInstanceAs (Decidable (_ → _))

theorem isArrayName_eq_true {name : String} :
    isArrayName name = true ↔ ∃ cs, name.toList = '[' :: cs := by
  cases h : name.toList with
  | nil => simp [isArrayName, h]
  | cons c cs => simp [isArrayName, h]

/-- A name that is not spelled like an array's only has its slashes changed. -/
theorem externalName_plain {name : String} (h : isArrayName name = false) :
    externalName name = name.map fun c => if c = '/' then '.' else c := by
  rw [← String.toList_inj, externalName, String.toList_ofList, ofChars_plain, String.toList_map]
  · rfl
  · simpa [isArrayName] using h

/-- **Names of arrays of classes read back**, whatever the class is called. -/
theorem externalName_arraysNamed (name : String) {dims : Nat} (hdims : 0 < dims) :
    externalName (arraysNamed dims name)
      = (name.map fun c => if c = '/' then '.' else c)
        ++ String.join (List.replicate dims "[]") := by
  obtain ⟨dims, rfl⟩ := Nat.exists_eq_add_one_of_ne_zero (Nat.ne_of_gt hdims)
  have htext : (arraysNamed (dims + 1) name).toList
      = '[' :: (List.replicate dims '[' ++ 'L' :: (name.toList ++ [';'])) := by
    simp [arraysNamed, List.replicate_succ]
  obtain ⟨htake, hdrop⟩ := split_replicate dims (by decide : 'L' ≠ '[') (name.toList ++ [';'])
  have helement := element?_class name.toList
  rw [← hdrop] at helement
  rw [← String.toList_inj, externalName, String.toList_ofList, htext, ofChars_bracket helement,
    htake, List.length_replicate, brackets_eq, String.toList_append, String.toList_map,
    String.toList_join]
  rfl

open ClassTable

/-- **The array of an element is called after it exactly where the element is well spelled.** -/
theorem externalName_array_iff (name : String) :
    externalName ("[" ++ elementDescriptor name) = externalName name ++ "[]" ↔
      WellSpelled name := by
  cases h : isArrayName name with
  | false =>
      have harray := externalName_arraysNamed name Nat.zero_lt_one
      have hname : arraysNamed 1 name = "[" ++ elementDescriptor name := by
        simp [arraysNamed, elementDescriptor, h, ← String.toList_inj]
      rw [← hname, harray, externalName_plain h]
      simp [WellSpelled, h]
  | true =>
      obtain ⟨cs, hcs⟩ := isArrayName_eq_true.mp h
      have hself : elementDescriptor name = name := by simp [elementDescriptor, h]
      have hspelled : WellSpelled name ↔ (element? (cs.dropWhile (· = '['))).isSome = true := by
        simp [WellSpelled, h, hcs]
      rw [hself, hspelled, ← String.toList_inj, String.toList_append, externalName, externalName,
        String.toList_ofList, String.toList_ofList, String.toList_append, hcs]
      cases helement : element? (cs.dropWhile (· = '[')) with
      | some element =>
          have hagain : element? (('[' :: cs).dropWhile (· = '[')) = some element := by
            simpa using helement
          show ofChars ('[' :: '[' :: cs) = _ ↔ _
          rw [ofChars_bracket hagain, ofChars_bracket helement, brackets_succ]
          simp
      | none =>
          have hagain : element? (('[' :: cs).dropWhile (· = '[')) = none := by
            simpa using helement
          show ofChars ('[' :: '[' :: cs) = _ ↔ _
          rw [ofChars_bracket_of_none hagain, ofChars_bracket_of_none helement]
          -- Two brackets in front, against one in front and two behind.
          have hlength : dotted ('[' :: '[' :: cs) ≠ dotted ('[' :: cs) ++ ['[', ']'] := by
            intro heq
            have hcount := congrArg List.length heq
            simp [dotted] at hcount
          simpa using hlength

theorem externalName_primitiveArray {type : BasicType} (ht : type.isReference = false) :
    externalName ("[" ++ String.singleton type.descriptor) = type.name ++ "[]" := by
  cases type <;> first | rfl | cases ht

theorem WellSpelled.array {name : String} (h : WellSpelled name) :
    WellSpelled ("[" ++ elementDescriptor name) := by
  intro _
  cases hn : isArrayName name with
  | false => simp [elementDescriptor, hn, element?]
  | true =>
      have hbrackets : ("[" ++ elementDescriptor name).toList = '[' :: name.toList := by
        simp [elementDescriptor, hn]
      rw [hbrackets, List.dropWhile_cons_of_pos (by simp)]
      exact h hn

theorem wellSpelled_plain {name : String} (h : isArrayName name = false) : WellSpelled name := by
  intro hn
  rw [h] at hn
  cases hn

theorem wellSpelled_primitiveArray {type : BasicType} (ht : type.isReference = false) :
    WellSpelled ("[" ++ String.singleton type.descriptor) := by
  cases type <;> first | decide | cases ht

namespace ClassTable

variable {t t' : ClassTable} {interfaces : List Identity} {element : ElementType}
  {array id : Identity} {ops : List Op} {name other : String}

/-! ### Entries that are well spelled -/

/-- An operation gives no class a name that is spelled like an array's. -/
def Op.NamesNoArray : Op → Prop
  | .define d => isArrayName d.name = false
  | .declare _ name => isArrayName name = false
  | _ => True

instance : DecidablePred Op.NamesNoArray
  | .define d => inferInstanceAs (Decidable (isArrayName d.name = false))
  | .declare _ name => inferInstanceAs (Decidable (isArrayName name = false))
  | .newLoader _ | .complete _ _ | .arrayOf _ _ | .unload _ => inferInstanceAs (Decidable True)

/-- All entries are well spelled. -/
def Spelled (t : ClassTable) : Prop :=
  ∀ id e, t.objectAt id = some e → WellSpelled e.name

theorem spelled_create {rootName : String} (capacity : Display.Capacity)
    (hroot : WellSpelled rootName) : (create rootName capacity).Spelled := by
  intro id e he
  rw [objectAt_create] at he
  split at he
  · obtain rfl := Option.some.inj he
    exact hroot
  · cases he

theorem Spelled.add (h : t.Spelled) {entry : ClassObject} (hentry : WellSpelled entry.name) :
    (t.add entry).Spelled := by
  intro id e he
  rw [objectAt_add] at he
  split at he
  · obtain rfl := Option.some.inj he
    exact hentry
  · exact h id e he

theorem Spelled.arrayPlan (h : t.Spelled) {plan : ArrayPlan} (hp : t.arrayPlan element = .ok plan) :
    WellSpelled plan.name := by
  cases element with
  | primitive type =>
      obtain ⟨ht, hname⟩ := arrayPlan_primitive_eq_ok hp
      rw [hname]
      exact wellSpelled_primitiveArray ht
  | ofClass x =>
      obtain ⟨entry, body, he, -, rfl⟩ := arrayPlan_ofClass_eq_ok hp
      exact (h x entry he).array

theorem Move.spelled {op : Op} (hm : Move t op t') (hop : op.NamesNoArray) (h : t.Spelled) :
    t'.Spelled := by
  cases hm with
  | newLoader => exact h
  | define d body superBody _ _ _ => exact h.add (wellSpelled_plain hop)
  | declare loader name _ _ => exact h.add (wellSpelled_plain hop)
  | complete id d entry body superBody he _ _ =>
      intro other e ho
      rw [objectAt_put (index_lt_of_objectAt he)] at ho
      split at ho
      · obtain rfl := Option.some.inj ho
        exact h id entry he
      · exact h other e ho
  | array element interfaces plan chain secondary hmakes => exact h.add (h.arrayPlan hmakes.planned)
  | unload id entry he _ =>
      intro other e ho
      rw [objectAt_without he] at ho
      split at ho
      · cases ho
      · exact h other e ho

theorem Ran.spelled {op : Op} {reply : Except TableRefusal Reply} (hr : Ran t op reply t')
    (hop : op.NamesNoArray) (h : t.Spelled) : t'.Spelled := by
  have harrays {interfaces : List Identity} {t' : ClassTable}
      (hm : ReflTransGen (ArrayMove interfaces) t t') : t'.Spelled := by
    induction hm with
    | refl => exact h
    | tail _ hmove ih =>
        obtain ⟨element, hmove⟩ := hmove
        exact hmove.spelled trivial ih
  cases hr with
  | refused => exact h
  | newLoader hm | define hm | declare hm | complete hm | unload hm => exact hm.spelled hop h
  | array hm | arrayRefused _ hm => exact harrays hm

theorem Spelled.after (h : t.Spelled) (hs : t.Sound) (hops : ∀ op ∈ ops, op.NamesNoArray) :
    (t.after ops).Spelled := by
  induction ops generalizing t with
  | nil => exact h
  | cons op rest ih =>
      obtain ⟨hop, hrest⟩ := List.forall_mem_cons.mp hops
      have hran := run_ran hs op
      exact ih (hran.spelled hop h) (hran.sound hs) hrest

/-! ### What an entry is called -/

/-- At some moment of a run the class is called this. -/
def Called (t : ClassTable) (ops : List Op) (id : Identity) (name : String) : Prop :=
  ∃ past e, past <+: ops ∧ (t.after past).objectAt id = some e ∧ e.name = name

/-- **A class is never called anything else.** -/
theorem Sound.called_iff (h : t.Sound) {past : List Op} (hpast : past <+: ops) {e : ClassObject}
    (he : (t.after past).objectAt id = some e) : t.Called ops id other ↔ other = e.name := by
  constructor
  · rintro ⟨past', e', hpast', he', rfl⟩
    have hsame : ∀ {past past' : List Op} {e e' : ClassObject}, past <+: past' →
        (t.after past).objectAt id = some e → (t.after past').objectAt id = some e' →
          e'.name = e.name := by
      rintro past _ e e' ⟨later, rfl⟩ he he'
      obtain ⟨removed, hcontinues⟩ := ((h.continues past).1.continues later).2
      rw [after_append] at he'
      exact hcontinues.name_eq he he'
    rcases List.prefix_or_prefix_of_prefix hpast hpast' with hbefore | hbefore
    · exact hsame hbefore he he'
    · exact (hsame hbefore he' he).symm
  · rintro rfl
    exact ⟨past, e, hpast, he, rfl⟩

/-- What the elements of an array are called in a run, in the spelling for people. -/
def ElementCalled (t : ClassTable) (ops : List Op) : ElementType → String → Prop
  | .primitive type, name => name = type.name
  | .ofClass x, name => ∃ internal, t.Called ops x internal ∧ name = externalName internal

/-! ### What an array is made for -/

/-- In the course of a request that leads from the one table to the other, the array is made for the
element. -/
def MakesBetween (interfaces : List Identity) (t t' : ClassTable) (element : ElementType)
    (array : Identity) : Prop :=
  ∃ t₁ t₂, ReflTransGen (ArrayMove interfaces) t t₁ ∧ Move t₁ (.arrayOf element interfaces) t₂ ∧
    ReflTransGen (ArrayMove interfaces) t₂ t' ∧ array = t₁.freshId

/-- Whatever has been added in the course of a request is made for some element. -/
theorem exists_makesBetween (hm : ReflTransGen (ArrayMove interfaces) t t')
    (hnew : t.entries.size ≤ id.index) (hlt : id.index < t'.entries.size) :
    ∃ element, MakesBetween interfaces t t' element id := by
  induction hm with
  | refl => omega
  | @tail t₁ t₂ hmoves hmove ih =>
      by_cases hold : id.index < t₁.entries.size
      · obtain ⟨element, u, u', hto, hmade, hfrom, hid⟩ := ih hold
        exact ⟨element, u, u', hto, hmade, hfrom.tail hmove, hid⟩
      · obtain ⟨element, hmove⟩ := hmove
        have hid : id = t₁.freshId := by
          cases hmove
          rw [size_add] at hlt
          rw [← Identity.index_inj, index_freshId]
          omega
        exact ⟨element, t₁, t₂, hmoves, hmove, .refl, hid⟩

/-- The name that the array of an element has. -/
def NamesArray (t : ClassTable) : ElementType → String → Prop
  | .primitive type, name =>
      type.isReference = false ∧ name = "[" ++ String.singleton type.descriptor
  | .ofClass x, name => ∃ e, t.objectAt x = some e ∧ name = "[" ++ elementDescriptor e.name

theorem MakesBetween.named (h : MakesBetween interfaces t t' element array) :
    ∃ a, t'.objectAt array = some a ∧ t'.NamesArray element a.name := by
  obtain ⟨t₁, t₂, -, hmade, hfrom, rfl⟩ := h
  obtain ⟨-, hold⟩ := objectAt_arrayMoves hfrom
  cases hmade with
  | array _ _ plan chain secondary hmakes =>
      refine ⟨_, (hold t₁.freshId (by simp)).trans (by rw [objectAt_add, if_pos rfl]), ?_⟩
      cases element with
      | primitive type => exact arrayPlan_primitive_eq_ok hmakes.planned
      | ofClass x =>
          obtain ⟨entry, body, he, -, hplan⟩ := arrayPlan_ofClass_eq_ok hmakes.planned
          have hlt := index_lt_of_objectAt he
          have hne : x ≠ t₁.freshId := by
            rintro rfl
            exact Nat.lt_irrefl _ hlt
          refine ⟨entry, ?_, by rw [hplan]⟩
          rw [hold x (by rw [size_add]; omega), objectAt_add, if_neg hne, he]

/-- In the course of a run the array is made for the element, whoever has asked for it. -/
def MadeFor (t : ClassTable) (ops : List Op) (element : ElementType) (array : Identity) : Prop :=
  ∃ earlier requested interfaces, earlier ++ [.arrayOf requested interfaces] <+: ops ∧
    MakesBetween interfaces (t.after earlier) (t.after (earlier ++ [.arrayOf requested interfaces]))
      element array

/-- An array that is there after an operation was there before, or is made in its course. -/
theorem Ran.array_cases {op : Op} {reply : Except TableRefusal Reply} (hr : Ran t op reply t')
    {b : ClassBody} (hb : t'.bodyAt? id = some b) (hn : b.shape.isArray = true) :
    t.bodyAt? id = some b ∨ ∃ requested interfaces element,
      op = .arrayOf requested interfaces ∧ MakesBetween interfaces t t' element id := by
  have harrays {requested : ElementType} {interfaces : List Identity}
      (hm : ReflTransGen (ArrayMove interfaces) t t') (hop : op = .arrayOf requested interfaces) :
      t.bodyAt? id = some b ∨ ∃ requested interfaces element,
        op = .arrayOf requested interfaces ∧ MakesBetween interfaces t t' element id := by
    obtain ⟨entry, he, hbody⟩ := bodyAt?_eq_some.mp hb
    by_cases hold : id.index < t.entries.size
    · rw [(objectAt_arrayMoves hm).2 id hold] at he
      exact .inl (bodyAt?_eq_some.mpr ⟨entry, he, hbody⟩)
    · obtain ⟨element, hmade⟩ :=
        exists_makesBetween hm (Nat.le_of_not_lt hold) (index_lt_of_objectAt he)
      exact .inr ⟨requested, interfaces, element, hop, hmade⟩
  cases hr with
  | refused => exact .inl hb
  | newLoader hm =>
      cases hm
      exact .inl hb
  | define hm =>
      cases hm with
      | define d body superBody _ _ hl =>
          obtain ⟨-, hbody⟩ | ⟨-, hold⟩ := bodyAt?_add_cases hb
          · obtain rfl := Option.some.inj hbody
            rw [hl.notArray] at hn
            cases hn
          · exact .inl hold
  | declare hm =>
      cases hm with
      | declare loader name _ _ =>
          obtain ⟨-, hbody⟩ | ⟨-, hold⟩ := bodyAt?_add_cases hb
          · cases hbody
          · exact .inl hold
  | complete hm =>
      cases hm with
      | complete _ d entry body superBody he _ hl =>
          obtain ⟨-, rfl⟩ | ⟨-, hold⟩ := bodyAt?_put_cases (index_lt_of_objectAt he) hb
          · rw [hl.notArray] at hn
            cases hn
          · exact .inl hold
  | unload hm =>
      cases hm with
      | unload _ entry he _ => exact .inl (bodyAt?_of_without he hb)
  | array hm _ => exact harrays hm rfl
  | arrayRefused _ hm => exact harrays hm rfl

/-- **Every array of a run is made for some element in its course.** -/
theorem exists_madeFor (rootName : String) (capacity : Display.Capacity) {b : ClassBody}
    (hb : ((create rootName capacity).after ops).bodyAt? id = some b)
    (hn : b.shape.isArray = true) :
    ∃ element, (create rootName capacity).MadeFor ops element id := by
  induction ops using List.reverseRecOn generalizing b with
  | nil =>
      rw [(bodyAt?_create hb).2.1] at hn
      cases hn
  | append_singleton earlier op ih =>
      have hsound := ((sound_create rootName capacity).continues earlier).1
      have hran := run_ran hsound op
      have hstep : (create rootName capacity).after (earlier ++ [op])
          = (op.run ((create rootName capacity).after earlier)).2 := after_append _ earlier [op]
      rw [hstep] at hb
      obtain hold | ⟨requested, interfaces, element, rfl, hmade⟩ := hran.array_cases hb hn
      · obtain ⟨element, past, requested, interfaces, hpast, hmade⟩ := ih hold hn
        exact ⟨element, past, requested, interfaces, hpast.trans (List.prefix_append _ _), hmade⟩
      · rw [← hstep] at hmade
        exact ⟨element, earlier, requested, interfaces, List.prefix_refl _, hmade⟩

/-! ### What an array is called -/

/-- In a run the array and its elements are each called one thing, and the array is spelled as the
element with a pair of brackets behind. -/
def CalledAfter (t : ClassTable) (ops : List Op) (element : ElementType) (array : Identity) :
    Prop :=
  ∃ name elementName, (∀ other, t.Called ops array other ↔ other = name) ∧
    (∀ other, t.ElementCalled ops element other ↔ other = elementName) ∧
    externalName name = elementName ++ "[]"

theorem MadeFor.calledAfter (h : t.MadeFor ops element array) (hs : t.Sound) (hspelled : t.Spelled)
    (hops : ∀ op ∈ ops, op.NamesNoArray) : t.CalledAfter ops element array := by
  obtain ⟨earlier, requested, interfaces, hpast, hmade⟩ := h
  obtain ⟨a, ha, hname⟩ := hmade.named
  have hnow := hspelled.after hs fun op hop => hops op (hpast.subset hop)
  cases element with
  | primitive type =>
      obtain ⟨ht, hname⟩ := hname
      refine ⟨a.name, type.name, fun _ => hs.called_iff hpast ha, fun _ => Iff.rfl, ?_⟩
      rw [hname, externalName_primitiveArray ht]
  | ofClass x =>
      obtain ⟨e, he, hname⟩ := hname
      refine ⟨a.name, externalName e.name, fun _ => hs.called_iff hpast ha, ?_, ?_⟩
      · intro other
        constructor
        · rintro ⟨internal, hcalled, rfl⟩
          rw [(hs.called_iff hpast he).mp hcalled]
        · rintro rfl
          exact ⟨e.name, (hs.called_iff hpast he).mpr rfl, rfl⟩
      · rw [hname]
        exact (externalName_array_iff e.name).mpr (hnow x e he)

/-- **The names of arrays read back.**  Brackets in front of the descriptor of a class are read as
so many dimensions, whatever the class is called.  So in any table whose root is well spelled, and
in which nothing else is named like an array, each array is called after the element it was made
for. -/
theorem externalName_arrays {rootName : String} (capacity : Display.Capacity)
    (hroot : WellSpelled rootName) (hops : ∀ op ∈ ops, op.NamesNoArray) :
    (∀ (name : String) (dims : Nat), 0 < dims → externalName (arraysNamed dims name)
      = (name.map fun c => if c = '/' then '.' else c) ++ String.join (List.replicate dims "[]")) ∧
    (∀ array b, ((create rootName capacity).after ops).bodyAt? array = some b →
      b.shape.isArray = true → ∃ element, (create rootName capacity).MadeFor ops element array) ∧
    ∀ element array, (create rootName capacity).MadeFor ops element array →
      (create rootName capacity).CalledAfter ops element array := by
  refine ⟨fun name _ => externalName_arraysNamed name, ?_, ?_⟩
  · intro array b hb hn
    exact exists_madeFor rootName capacity hb hn
  · intro element array hmade
    exact hmade.calledAfter (sound_create rootName capacity) (spelled_create capacity hroot) hops

/-- A class in a package, and an array of arrays of it. -/
def arraysInArrays : List Op :=
  [.define (ClassFile.ordinary "a/B"), .arrayOf (.ofClass (Identity.ofIndex 1)) [],
    .arrayOf (.ofClass (Identity.ofIndex 3)) []]

theorem externalName_arraysInArrays :
    WellSpelled "Object" ∧ (∀ op ∈ arraysInArrays, op.NamesNoArray) ∧
      (create "Object" Display.Capacity.standard).Called arraysInArrays (Identity.ofIndex 5)
        "[[La/B;" ∧
      ∃ element, (create "Object" Display.Capacity.standard).MadeFor arraysInArrays element
          (Identity.ofIndex 5) ∧
        (create "Object" Display.Capacity.standard).CalledAfter arraysInArrays element
          (Identity.ofIndex 5) := by
  have hroot : WellSpelled "Object" := by decide
  have hops : ∀ op ∈ arraysInArrays, op.NamesNoArray := by decide
  obtain ⟨-, hmade, hcalled⟩ := externalName_arrays Display.Capacity.standard hroot hops
  obtain ⟨element, helement⟩ := hmade (Identity.ofIndex 5) _ rfl rfl
  exact ⟨hroot, hops, ⟨_, _, List.prefix_refl _, rfl, rfl⟩, element, helement, hcalled _ _ helement⟩

/-- Where the root is called `[foo`, which is no array of anything, its array is not called after
it. -/
theorem not_calledAfter_bracketedRoot :
    (∀ op ∈ [Op.arrayOf (.ofClass root) []], op.NamesNoArray) ∧
      (create "[foo" Display.Capacity.standard).MadeFor [.arrayOf (.ofClass root) []]
        (.ofClass root) (Identity.ofIndex 1) ∧
      externalName "[[foo" ≠ externalName "[foo" ++ "[]" ∧
      ¬(create "[foo" Display.Capacity.standard).CalledAfter [.arrayOf (.ofClass root) []]
        (.ofClass root) (Identity.ofIndex 1) := by
  have hmade : (create "[foo" Display.Capacity.standard).MadeFor [.arrayOf (.ofClass root) []]
      (.ofClass root) (Identity.ofIndex 1) := by
    refine ⟨[], .ofClass root, [], List.prefix_refl _, _, _, .refl, ?_, .refl, rfl⟩
    exact .array (.ofClass root) [] _ [root] [] ⟨rfl, rfl, [], [], .root, rfl, rfl⟩
  have hname : externalName "[[foo" ≠ externalName "[foo" ++ "[]" := by decide
  refine ⟨by decide, hmade, hname, ?_⟩
  rintro ⟨name, elementName, hcalled, helement, hspelled⟩
  have harray : "[[foo" = name := (hcalled _).mp ⟨_, _, List.prefix_refl _, rfl, rfl⟩
  have hroot : externalName "[foo" = elementName :=
    (helement _).mp ⟨"[foo", ⟨_, _, List.prefix_refl _, rfl, rfl⟩, rfl⟩
  rw [← harray, ← hroot] at hspelled
  exact hname hspelled

end ClassTable

end RuntimeTypes
