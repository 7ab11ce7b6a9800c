/-
Loaders ask their parents first.

Every loader but the bootstrap loader has a parent that existed before it (`Grown`), so a
walk from parent to parent comes to the bootstrap loader and cannot go on from there.  There is no
other way up than this one, and it is what `chain?` lists.

A loader finds a name at the first loader that has it, counted from the bootstrap loader.  The
loaders below another one have all of its way up at the end of theirs, so they find
what it finds, and a class of their own by that name is hidden as long as it is there.
-/
import Mathlib.Data.List.Chain
import RuntimeTypes.Proofs.Table.Names
import RuntimeTypes.Proofs.Table.Search

namespace RuntimeTypes

/-! ### The way up -/

namespace LoaderTree

open Relation

/-- The parent of a loader.  The bootstrap loader has none, and nor has a loader that does not exist. -/
def parent? (tree : LoaderTree) (loader : Loader) : Option Loader :=
  match loader.number with
  | 0 => none
  | n + 1 => tree.parents.reverse[n]?

/-- The way up from a loader: it starts there, goes on from each loader to its parent and ends at the
bootstrap loader. -/
structure WayUp (tree : LoaderTree) (loader : Loader) (chain : List Loader) : Prop where
  starts : chain.head? = some loader
  climbs : chain.IsChain fun child parent => tree.parent? child = some parent
  ends : chain.getLast? = some Loader.bootstrap

/-- Whether a loader is another one or has it for a parent, or for a parent's parent, and so on. -/
def Below (tree : LoaderTree) : Loader → Loader → Prop :=
  ReflTransGen fun child parent => tree.parent? child = some parent

/-- Every loader has a parent that existed before it. -/
def Grown (tree : LoaderTree) : Prop :=
  ∀ child parent, tree.parent? child = some parent → parent.number < child.number

variable {tree : LoaderTree} {older chain chain' : List Loader} {loader parent upper : Loader}

@[simp] theorem parent?_bootstrap (tree : LoaderTree) : tree.parent? Loader.bootstrap = none := rfl

theorem number_le_of_parent? (h : tree.parent? loader = some parent) :
    loader.number ≤ tree.parents.length := by
  unfold parent? at h
  split at h
  · cases h
  · rename_i n hn
    obtain ⟨hlt, -⟩ := List.getElem?_eq_some_iff.mp h
    rw [List.length_reverse] at hlt
    omega

/-- The latest loader has the parent that was added last, and the others keep theirs. -/
theorem parent?_cons (parent : Loader) (older : List Loader) (loader : Loader) :
    parent? ⟨parent :: older⟩ loader
      = if loader.number = older.length + 1 then some parent else parent? ⟨older⟩ loader := by
  unfold parent?
  split
  · rename_i h
    rw [if_neg (by omega)]
  · rename_i n hn
    rw [List.reverse_cons, List.getElem?_append, List.length_reverse, hn]
    by_cases hlt : n < older.length
    · rw [if_pos hlt, if_neg (by omega)]
    · rw [if_neg hlt]
      by_cases heq : n = older.length
      · simp [heq]
      · rw [if_neg (by omega), List.getElem?_eq_none (by simp; omega),
          List.getElem?_eq_none (by simp; omega)]

/-! #### Every loader has a parent that existed before it -/

theorem grown_empty : Grown {} := by
  intro child parent h
  have hnone : parent? {} child = none := by
    unfold parent?
    split <;> rfl
  rw [hnone] at h
  cases h

theorem Grown.add (h : tree.Grown) (hparent : tree.contains parent = true) :
    (tree.add parent).Grown := by
  intro child upper hup
  have hlt : parent.number < tree.parents.length + 1 := of_decide_eq_true hparent
  rw [LoaderTree.add, parent?_cons] at hup
  split at hup
  · obtain rfl := Option.some.inj hup
    omega
  · exact h child upper hup

/-- It holds of the loaders that there were before the latest one, which has one of them for a
parent. -/
theorem Grown.of_cons (h : Grown ⟨parent :: older⟩) :
    parent.number ≤ older.length ∧ Grown ⟨older⟩ := by
  constructor
  · have hlt := h ⟨older.length + 1⟩ parent (by rw [parent?_cons, if_pos rfl])
    exact Nat.le_of_lt_succ hlt
  · intro child upper hup
    refine h child upper ?_
    have hle : child.number ≤ older.length := number_le_of_parent? hup
    rw [parent?_cons, if_neg (by omega)]
    exact hup

theorem Grown.exists_chainIn (h : Grown ⟨older⟩) (hle : loader.number ≤ older.length) :
    ∃ chain, chainIn older loader = some chain := by
  induction older generalizing loader with
  | nil =>
      have hzero : loader = Loader.bootstrap := by
        obtain ⟨n⟩ := loader
        obtain rfl := Nat.le_zero.mp hle
        rfl
      exact ⟨[loader], if_pos hzero⟩
  | cons parent older ih =>
      obtain ⟨hparent, hgrown⟩ := h.of_cons
      by_cases hlatest : loader.number = older.length + 1
      · obtain ⟨chain, hchain⟩ := ih hgrown hparent
        exact ⟨loader :: chain, by simp [chainIn, hlatest, hchain]⟩
      · have hbefore : loader.number ≤ older.length := by
          simp only [List.length_cons] at hle
          omega
        obtain ⟨chain, hchain⟩ := ih hgrown hbefore
        exact ⟨chain, by rw [chainIn, if_neg hlatest, hchain]⟩

/-! #### There is one way up -/

theorem climbs_chainIn (h : chainIn older loader = some chain) :
    chain.IsChain fun child parent => parent? ⟨older⟩ child = some parent := by
  induction older generalizing loader chain with
  | nil =>
      simp only [chainIn] at h
      split at h
      · obtain rfl := Option.some.inj h
        exact .singleton _
      · cases h
  | cons parent older ih =>
      -- What is on a way that there was keeps its parent.
      have hkept {loader chain} (hway : chainIn older loader = some chain) :
          chain.IsChain fun child up => parent? ⟨parent :: older⟩ child = some up := by
        refine (ih hway).imp_of_mem_imp fun child up hchild _ hup => ?_
        have hle := number_le_of_chainIn hway child hchild
        rw [parent?_cons, if_neg (by omega)]
        exact hup
      simp only [chainIn] at h
      split at h
      · rename_i hlatest
        obtain ⟨rest, hrest, rfl⟩ := Option.map_eq_some_iff.mp h
        refine List.isChain_cons.mpr ⟨fun up hup => ?_, hkept hrest⟩
        rw [head?_chainIn hrest] at hup
        rw [parent?_cons, if_pos hlatest, Option.mem_some_iff.mp hup]
      · exact hkept h

theorem wayUp_of_chain? (h : tree.chain? loader = some chain) : tree.WayUp loader chain where
  starts := head?_chainIn h
  climbs := climbs_chainIn h
  ends := getLast?_chainIn h

theorem WayUp.tail {rest : List Loader} (h : tree.WayUp loader (loader :: upper :: rest)) :
    tree.WayUp upper (upper :: rest) where
  starts := rfl
  climbs := (List.isChain_cons_cons.mp h.climbs).2
  ends := by simpa using h.ends

theorem WayUp.unique (h : tree.WayUp loader chain) (h' : tree.WayUp loader chain') :
    chain = chain' := by
  induction chain generalizing loader chain' with
  | nil => cases h.starts
  | cons first rest ih =>
      obtain rfl := Option.some.inj h.starts
      obtain ⟨rest', rfl⟩ : ∃ rest', chain' = first :: rest' := by
        cases chain' with
        | nil => cases h'.starts
        | cons first' rest' => exact ⟨rest', by rw [Option.some.inj h'.starts]⟩
      cases rest with
      | nil =>
          -- The bootstrap loader has no parent, so the other way ends there too.
          obtain rfl : first = Loader.bootstrap := Option.some.inj h.ends
          cases rest' with
          | nil => rfl
          | cons up more => cases (List.isChain_cons_cons.mp h'.climbs).1
      | cons up more =>
          have hup := (List.isChain_cons_cons.mp h.climbs).1
          cases rest' with
          | nil =>
              obtain rfl : first = Loader.bootstrap := Option.some.inj h'.ends
              cases hup
          | cons up' more' =>
              have hup' := (List.isChain_cons_cons.mp h'.climbs).1
              obtain rfl : up = up' := Option.some.inj (hup.symm.trans hup')
              rw [ih h.tail h'.tail]

/-- The loaders on a way up are those that the loader is below, so it exists. -/
theorem WayUp.contains (h : tree.WayUp loader chain) : tree.contains loader = true := by
  obtain ⟨rest, rfl⟩ : ∃ rest, chain = loader :: rest :=
    ⟨_, (List.cons_head?_tail (Option.mem_def.mpr h.starts)).symm⟩
  cases rest with
  | nil =>
      obtain rfl : loader = Loader.bootstrap := Option.some.inj h.ends
      exact tree.contains_bootstrap
  | cons up more =>
      have hle := number_le_of_parent? (List.isChain_cons_cons.mp h.climbs).1
      exact decide_eq_true (Nat.lt_succ_of_le hle)

theorem Grown.chain?_eq_some_iff (h : tree.Grown) :
    tree.chain? loader = some chain ↔ tree.WayUp loader chain := by
  refine ⟨wayUp_of_chain?, fun hway => ?_⟩
  obtain ⟨chain', hchain'⟩ :=
    h.exists_chainIn (Nat.le_of_lt_succ (of_decide_eq_true hway.contains))
  rw [hway.unique (wayUp_of_chain? hchain')]
  exact hchain'

theorem chain?_eq_none (h : tree.contains loader = false) : tree.chain? loader = none := by
  cases hchain : tree.chain? loader with
  | none => rfl
  | some chain => rw [(wayUp_of_chain? hchain).contains] at h; cases h

/-- The way up from a loader ends with the way up from any loader that it is below. -/
theorem Below.exists_append (h : tree.Below loader upper) (hway : tree.WayUp upper chain) :
    ∃ first, tree.WayUp loader (first ++ chain) := by
  induction h using ReflTransGen.head_induction_on with
  | refl => exact ⟨[], hway⟩
  | @head child parent hup _ ih =>
      obtain ⟨first, hfirst⟩ := ih
      refine ⟨child :: first, ⟨rfl, ?_, ?_⟩⟩
      · rw [List.cons_append, List.isChain_cons]
        refine ⟨fun up hhead => ?_, hfirst.climbs⟩
        rw [hfirst.starts] at hhead
        rw [hup, Option.mem_some_iff.mp hhead]
      · rw [List.cons_append, List.getLast?_cons, hfirst.ends]
        rfl

end LoaderTree

open LoaderTree

/-! ### What a name means -/

namespace ClassTable

variable {t t' : ClassTable} {loader upper : Loader} {name : String} {id : Identity}
  {chain : List Loader}

theorem Move.grown {op : Op} (hm : Move t op t') (h : t.loaders.Grown) : t'.loaders.Grown := by
  cases hm with
  | newLoader parent hparent => exact h.add hparent
  | define | declare | array | complete | unload => exact h

theorem Move.contains {op : Op} (hm : Move t op t') (h : t.loaders.contains loader = true) :
    t'.loaders.contains loader = true := by
  cases hm with
  | newLoader parent => exact LoaderTree.contains_add h parent
  | define | declare | array | complete | unload => exact h

/-- Whether the entry of a class stands in the table under this loader and name. -/
def Defines (t : ClassTable) (loader : Loader) (name : String) (id : Identity) : Prop :=
  ∃ e, t.objectAt id = some e ∧ e.loader = loader ∧ e.name = name

theorem Sound.get?_names_eq_some_iff (h : t.Sound) :
    t.names.get? (loader, name) = some id ↔ t.Defines loader name id := by
  simp [h.named, Defines, Prod.ext_iff]

theorem Sound.get?_names_eq_none_iff (h : t.Sound) :
    t.names.get? (loader, name) = none ↔ ∀ id, ¬t.Defines loader name id := by
  simp [Option.eq_none_iff_forall_ne_some, h.get?_names_eq_some_iff]

theorem lookup?_of_below (hbelow : t.loaders.Below loader upper) (hgrown : t.loaders.Grown)
    (h : t.lookup? upper name = some id) : t.lookup? loader name = some id := by
  cases hchain : t.loaders.chain? upper with
  | none => simp [lookup?, hchain] at h
  | some chain =>
      obtain ⟨first, hway⟩ := hbelow.exists_append (wayUp_of_chain? hchain)
      rw [lookup?_of_chain? hchain] at h
      rw [lookup?_of_chain? (hgrown.chain?_eq_some_iff.mpr hway), List.reverse_append,
        List.findSome?_append, h]
      rfl

/-- The loaders of a table ask their parents first. -/
structure Delegates (t : ClassTable) : Prop where
  /-- From a loader that exists there is one way up, and it ends at the bootstrap loader. -/
  way : ∀ loader, t.loaders.contains loader = true → ∃! chain, t.loaders.WayUp loader chain
  /-- It is what the table goes along when it looks for a name. -/
  followed : ∀ loader chain, t.loaders.chain? loader = some chain ↔ t.loaders.WayUp loader chain
  /-- A loader means by a name the class that is defined closest to the bootstrap loader. -/
  found : ∀ loader chain, t.loaders.WayUp loader chain → ∀ name id,
    t.lookup? loader name = some id ↔ ∃ closer owner farther,
      chain.reverse = closer ++ owner :: farther ∧ t.Defines owner name id ∧
        ∀ l ∈ closer, ∀ other, ¬t.Defines l name other
  /-- It means nothing by a name that no loader on its way up has defined. -/
  missing : ∀ loader chain, t.loaders.WayUp loader chain → ∀ name,
    t.lookup? loader name = none ↔ ∀ l ∈ chain, ∀ id, ¬t.Defines l name id
  /-- Those who ask the table as a store are told the same. -/
  asked : ∀ loader, t.loaders.contains loader = true → ∀ name,
    MetadataSource.find? loader name t = .ok (t.lookup? loader name) t
  /-- What a loader finds is what all loaders below it find. -/
  inherited : ∀ loader upper, t.loaders.Below loader upper → ∀ name id,
    t.lookup? upper name = some id → t.lookup? loader name = some id
  /-- A loader that does not exist finds nothing, and to ask for it is a failure of the store. -/
  unknown : ∀ loader, t.loaders.contains loader = false → ∀ name, t.lookup? loader name = none ∧
    MetadataSource.find? loader name t
      = .error (.storeFailure (TableRefusal.unknownLoader loader).message) t

/-- Where parents come before their children and the index is sound, loaders delegate. -/
theorem Sound.delegates (h : t.Sound) (hgrown : t.loaders.Grown) : t.Delegates where
  way := by
    intro loader hloader
    obtain ⟨chain, hchain⟩ := hgrown.exists_chainIn (Nat.le_of_lt_succ (of_decide_eq_true hloader))
    exact ⟨chain, wayUp_of_chain? hchain, fun other hother => hother.unique (wayUp_of_chain? hchain)⟩
  followed := fun _ _ => hgrown.chain?_eq_some_iff
  found := by
    intro loader chain hway name id
    rw [lookup?_of_chain? (hgrown.chain?_eq_some_iff.mpr hway), List.findSome?_eq_some_iff]
    simp only [h.get?_names_eq_some_iff, h.get?_names_eq_none_iff]
  missing := by
    intro loader chain hway name
    rw [lookup?_of_chain? (hgrown.chain?_eq_some_iff.mpr hway), List.findSome?_eq_none_iff]
    simp only [h.get?_names_eq_none_iff, List.mem_reverse]
  asked := by
    intro loader hloader name
    obtain ⟨chain, hchain⟩ := hgrown.exists_chainIn (Nat.le_of_lt_succ (of_decide_eq_true hloader))
    show ClassTable.find loader name t = _
    rw [find, show t.loaders.chain? loader = some chain from hchain]
  inherited := fun loader upper hbelow name id => lookup?_of_below hbelow hgrown
  unknown := by
    intro loader hloader name
    have hchain := chain?_eq_none hloader
    refine ⟨by rw [lookup?, hchain], ?_⟩
    show ClassTable.find loader name t = _
    rw [find, hchain]

end ClassTable

namespace Program

open ClassTable

theorem grown_after (rootName : String) (capacity : Display.Capacity) (events : List Event) :
    ((start (create rootName capacity)).after events).heap.store.loaders.Grown :=
  (recorded_start rootName capacity).store_after (P := fun t => t.loaders.Grown)
    (fun _ hr => hr.keeps Move.grown) grown_empty events

/-- **Loaders delegate to their parents first** whatever happens to a program. -/
theorem delegates_after (rootName : String) (capacity : Display.Capacity) (events : List Event) :
    ((start (create rootName capacity)).after events).heap.store.Delegates := by
  obtain ⟨A, hafter⟩ := recorded_after rootName capacity events
  exact hafter.sound.delegates (grown_after rootName capacity events)

/-- A class of a loader is found by it until its parent defines one of that name. -/
def shadowed : List Op :=
  [.newLoader Loader.bootstrap, .define { ClassFile.ordinary "A" with loader := ⟨1⟩ },
    .define (ClassFile.ordinary "A")]

-- It is found again when the class of the parent is removed.
example : ((create "Object" Display.Capacity.standard).after shadowed).lookup? ⟨1⟩ "A"
      = some (Identity.ofIndex 2) ∧
    ((create "Object" Display.Capacity.standard).after
      (shadowed ++ [.unload (Identity.ofIndex 2)])).lookup? ⟨1⟩ "A" = some (Identity.ofIndex 1) :=
  ⟨rfl, rfl⟩

end Program

end RuntimeTypes
