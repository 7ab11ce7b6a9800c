/-
What a search for a name finds while other threads work on the table.

A name that has come to a loader stays, and the way up from a loader does not change.  So
a search that finds nothing answers as the table would have at the beginning.  A search
that finds the class of some loader has missed the name at all loaders closer to the
bootstrap loader, but that was before.  One of them may have got the name meanwhile, and
if it did so no later than the loader where the class is found, there has been no moment
at which the table would have answered with that class: the answer has been `Overtaken`.
This is the only way in which the search goes wrong.
-/
import Mathlib.Data.List.Infix
import RuntimeTypes.Store.Search
import RuntimeTypes.Proofs.Session.Untorn

namespace RuntimeTypes

/-! ### The way up -/

namespace LoaderTree

theorem number_le_of_chainIn {parents : List Loader} {loader : Loader} {chain : List Loader}
    (h : chainIn parents loader = some chain) : ∀ l ∈ chain, l.number ≤ parents.length := by
  induction parents generalizing loader chain with
  | nil =>
      simp only [chainIn] at h
      split at h
      · rename_i hloader
        obtain rfl := Option.some.inj h
        simp [hloader, Loader.bootstrap]
      · cases h
  | cons parent older ih =>
      simp only [chainIn] at h
      split at h
      · rename_i hloader
        obtain ⟨rest, hrest, rfl⟩ := Option.map_eq_some_iff.mp h
        intro l hl
        rcases List.mem_cons.mp hl with rfl | hl
        · exact Nat.le_of_eq hloader
        · exact Nat.le_succ_of_le (ih hrest l hl)
      · exact fun l hl => Nat.le_succ_of_le (ih h l hl)

theorem nodup_chainIn {parents : List Loader} {loader : Loader} {chain : List Loader}
    (h : chainIn parents loader = some chain) : chain.Nodup := by
  induction parents generalizing loader chain with
  | nil =>
      simp only [chainIn] at h
      split at h
      · obtain rfl := Option.some.inj h
        exact List.nodup_singleton loader
      · cases h
  | cons parent older ih =>
      simp only [chainIn] at h
      split at h
      · rename_i hloader
        obtain ⟨rest, hrest, rfl⟩ := Option.map_eq_some_iff.mp h
        refine List.nodup_cons.mpr ⟨fun hmem => ?_, ih hrest⟩
        have hle := number_le_of_chainIn hrest loader hmem
        omega
      · exact ih h

/-- A further loader is on no way that there was. -/
theorem chain?_add {tree : LoaderTree} {loader : Loader} {chain : List Loader}
    (h : tree.chain? loader = some chain) (parent : Loader) :
    (tree.add parent).chain? loader = some chain := by
  have hle : loader.number ≤ tree.parents.length := by
    refine number_le_of_chainIn h loader ?_
    exact List.mem_of_mem_head? (head?_chainIn h)
  show chainIn (parent :: tree.parents) loader = some chain
  rw [chainIn, if_neg (by omega)]
  exact h

end LoaderTree

namespace ClassTable

variable {t t' : ClassTable}

theorem Move.chain? {op : Op} (hm : Move t op t') {loader : Loader} {chain : List Loader}
    (h : t.loaders.chain? loader = some chain) : t'.loaders.chain? loader = some chain := by
  cases hm with
  | newLoader parent => exact LoaderTree.chain?_add h parent
  | define | declare | array | complete | unload => exact h

theorem Ran.chain? {op : Op} {reply : Except TableRefusal Reply} (hr : Ran t op reply t')
    {loader : Loader} {chain : List Loader} (h : t.loaders.chain? loader = some chain) :
    t'.loaders.chain? loader = some chain :=
  hr.keeps (P := fun t => t.loaders.chain? loader = some chain) (fun hm h => hm.chain? h) h

/-- The way up from a loader stays as it is. -/
theorem Sound.chain?_after (h : t.Sound) (ops : List Op) {loader : Loader} {chain : List Loader}
    (hchain : t.loaders.chain? loader = some chain) :
    (t.after ops).loaders.chain? loader = some chain := by
  induction ops generalizing t with
  | nil => exact hchain
  | cons op rest ih => exact ih ((run_ran h op).sound h) ((run_ran h op).chain? hchain)

/-- A name that has come to a loader stays, where nothing is removed. -/
theorem Sound.get?_names_after (h : t.Sound) {ops : List Op} (hops : ∀ op ∈ ops, op.Additive)
    {key : Loader × String} {id : Identity} (hk : t.names.get? key = some id) :
    (t.after ops).names.get? key = some id := by
  obtain ⟨hsound, hcontinues⟩ := h.additive hops
  obtain ⟨e, he, rfl⟩ := (h.named key id).mp hk
  obtain ⟨e', he', hm⟩ := hcontinues.kept id e he nofun
  exact (hsound.named _ id).mpr ⟨e', he', by rw [hm.name, hm.loader]⟩

/-- So a loader without the name has not had it before. -/
theorem Sound.get?_names_before (h : t.Sound) {ops : List Op} (hops : ∀ op ∈ ops, op.Additive)
    {key : Loader × String} (hk : (t.after ops).names.get? key = none) :
    t.names.get? key = none := by
  cases hbefore : t.names.get? key with
  | none => rfl
  | some id =>
      rw [h.get?_names_after hops hbefore] at hk
      cases hk

theorem Sound.key_unique (h : t.Sound) {key key' : Loader × String} {id : Identity}
    (hk : t.names.get? key = some id) (hk' : t.names.get? key' = some id) : key = key' := by
  obtain ⟨e, he, rfl⟩ := (h.named key id).mp hk
  obtain ⟨e', he', rfl⟩ := (h.named key' id).mp hk'
  rw [Option.some.inj (he.symm.trans he')]

end ClassTable

open ClassTable

/-! ### The probes -/

namespace SharedTable

/-- What is known of a row of probes that starts at `s` and ends at `s'`: other threads have done
`ops` up to the last one, and the name was found at `loader` or nowhere. -/
structure Probed (s s' : SharedTable) (name : String) (loaders : List Loader)
    (answer : Option Identity) (ops : List Op) : Prop where
  table : s'.table = s.table.after ops
  turns : ∃ probes, s'.answered.length = s.answered.length + probes ∧
    ops = (s.turns.take probes).flatten
  missed : answer = none → ∀ l ∈ loaders, s.table.names.get? (l, name) = none
  found : ∀ id, answer = some id → ∃ closer loader farther, loaders = closer ++ loader :: farther ∧
    (∀ l ∈ closer, s.table.names.get? (l, name) = none) ∧
      s'.table.names.get? (loader, name) = some id

theorem flatten_take_succ {α : Type} (turns : List (List α)) (n : Nat) :
    (turns.take (n + 1)).flatten = turns.headD [] ++ (turns.tail.take n).flatten := by
  cases turns <;> simp

/-- A row of probes finds the name at the first loader that has it when its turn comes. -/
theorem Quiet.probeAll {s : SharedTable} (h : s.Quiet) (name : String) (loaders : List Loader) :
    ∃ answer s' ops, probeAll name loaders s = .ok answer s' ∧
      Probed s s' name loaders answer ops := by
  induction loaders generalizing s with
  | nil =>
      exact ⟨none, s, [], rfl, rfl, ⟨0, rfl, rfl⟩, by simp, fun _ hid => by cases hid⟩
  | cons loader rest ih =>
      have hbefore {l : Loader} (hl : s.upcoming.names.get? (l, name) = none) :
          s.table.names.get? (l, name) = none :=
        h.sound.get?_names_before h.next_turn hl
      simp only [SharedTable.probeAll, bind, EStateM.bind, read, ClassTable.probe]
      cases hprobe : s.upcoming.names.get? (loader, name) with
      | some id =>
          refine ⟨some id, s.next s.upcoming true, s.turns.headD [], rfl, rfl, ⟨1, ?_, ?_⟩, ?_, ?_⟩
          · simp [SharedTable.next]
          · simp [flatten_take_succ]
          · rintro ⟨⟩
          · intro id' hid
            obtain rfl := Option.some.inj hid
            exact ⟨[], loader, rest, rfl, by simp, hprobe⟩
      | none =>
          obtain ⟨answer, s', ops, hrun, hprobed⟩ := ih (h.next true)
          refine ⟨answer, s', s.turns.headD [] ++ ops, hrun, ?_, ?_, ?_, ?_⟩
          · rw [hprobed.table, after_append]
            rfl
          · obtain ⟨probes, hlength, hops⟩ := hprobed.turns
            refine ⟨probes + 1, ?_, ?_⟩
            · rw [hlength]
              simp only [SharedTable.next, List.length_append, List.length_singleton]
              omega
            · rw [flatten_take_succ, hops]
              rfl
          · intro hnone l hl
            rcases List.mem_cons.mp hl with rfl | hl
            · exact hbefore hprobe
            · exact hbefore (hprobed.missed hnone l hl)
          · intro id hid
            obtain ⟨closer, l, farther, hrest, hcloser, hfound⟩ := hprobed.found id hid
            refine ⟨loader :: closer, l, farther, by rw [hrest]; rfl, ?_, hfound⟩
            intro l' hl'
            rcases List.mem_cons.mp hl' with rfl | hl'
            · exact hbefore hprobe
            · exact hbefore (hcloser l' hl')

end SharedTable

/-! ### Against the table at one moment -/

namespace ClassTable

variable {t : ClassTable} {ops : List Op} {loader l : Loader} {name : String}
  {chain closer farther : List Loader} {id : Identity}

/-- While these operations are carried out there is a moment at which the table means `answer` by the
name. -/
def MeansAmid (t : ClassTable) (ops : List Op) (loader : Loader) (name : String)
    (answer : Option Identity) : Prop :=
  ∃ past, past <+: ops ∧ (t.after past).lookup? loader name = answer

/-- Whenever `loader` has the name while these operations are carried out, so has one of the loaders
that are closer to the bootstrap loader. -/
def Overtaken (t : ClassTable) (ops : List Op) (closer : List Loader) (loader : Loader)
    (name : String) : Prop :=
  ∀ past, past <+: ops → (t.after past).names.get? (loader, name) ≠ none →
    ∃ l ∈ closer, (t.after past).names.get? (l, name) ≠ none

theorem lookup?_of_chain? (h : t.loaders.chain? loader = some chain) :
    t.lookup? loader name = chain.reverse.findSome? fun l => t.names.get? (l, name) := by
  rw [lookup?, h]

/-- At a moment when the loader has the name and none that is closer has it, it is what is meant. -/
theorem lookup?_of_first (h : t.loaders.chain? loader = some chain)
    (hsplit : chain.reverse = closer ++ l :: farther)
    (hcloser : ∀ l' ∈ closer, t.names.get? (l', name) = none)
    (hid : t.names.get? (l, name) = some id) : t.lookup? loader name = some id := by
  rw [lookup?_of_chain? h, List.findSome?_eq_some_iff]
  exact ⟨closer, l, farther, hsplit, hid, hcloser⟩

/-- Where the class of a loader is what is meant, none that is closer has the name. -/
theorem Sound.first_of_lookup? (hs : t.Sound) (h : t.loaders.chain? loader = some chain)
    (hsplit : chain.reverse = closer ++ l :: farther) (hid : t.names.get? (l, name) = some id)
    (hlookup : t.lookup? loader name = some id) :
    ∀ l' ∈ closer, t.names.get? (l', name) = none := by
  rw [lookup?_of_chain? h, List.findSome?_eq_some_iff] at hlookup
  obtain ⟨closer', first, farther', hsplit', hfirst, hcloser'⟩ := hlookup
  obtain rfl : first = l := (Prod.mk.inj (hs.key_unique hfirst hid)).1
  have hnodup : (closer ++ first :: farther).Nodup :=
    hsplit ▸ List.nodup_reverse.mpr (LoaderTree.nodup_chainIn h)
  have hnot : first ∉ closer ++ farther := (List.nodup_middle.mp hnodup).notMem
  rw [List.mem_append, not_or] at hnot
  obtain ⟨rfl, -, -⟩ :=
    (List.append_cons_inj_of_notMem hnot.1 hnot.2).mp (hsplit'.symm.trans hsplit).symm
  exact hcloser'

/-- **A search goes wrong by being overtaken, and only so.** -/
theorem Sound.meansAmid_iff (hs : t.Sound) (hops : ∀ op ∈ ops, op.Additive)
    (h : t.loaders.chain? loader = some chain) (hsplit : chain.reverse = closer ++ l :: farther)
    (hid : (t.after ops).names.get? (l, name) = some id) :
    t.MeansAmid ops loader name (some id) ↔ ¬t.Overtaken ops closer l name := by
  -- What a loader has at a moment it still has at the end.
  have hlater {past : List Op} (hpast : past <+: ops) {key : Loader × String} {id' : Identity}
      (hk : (t.after past).names.get? key = some id') : (t.after ops).names.get? key = some id' := by
    obtain ⟨more, rfl⟩ := hpast
    rw [after_append]
    have hadditive := List.forall_mem_append.mp hops
    exact (hs.additive hadditive.1).1.get?_names_after hadditive.2 hk
  have hsound {past : List Op} (hpast : past <+: ops) : (t.after past).Sound :=
    (hs.additive fun op hop => hops op (hpast.subset hop)).1
  constructor
  · rintro ⟨past, hpast, hlookup⟩ hovertaken
    have hchain := hs.chain?_after past h
    have hfound := hlookup
    rw [lookup?_of_chain? hchain, List.findSome?_eq_some_iff] at hfound
    obtain ⟨-, first, -, -, hfirst, -⟩ := hfound
    obtain rfl : first = l :=
      (Prod.mk.inj ((hs.additive hops).1.key_unique (hlater hpast hfirst) hid)).1
    obtain ⟨l', hl', hhas⟩ := hovertaken past hpast (by rw [hfirst]; exact Option.some_ne_none id)
    exact hhas ((hsound hpast).first_of_lookup? hchain hsplit hfirst hlookup l' hl')
  · intro hnot
    simp only [Overtaken, not_forall, not_exists, not_and, not_not] at hnot
    obtain ⟨past, hpast, hhas, hcloser⟩ := hnot
    obtain ⟨id', hid'⟩ := Option.ne_none_iff_exists'.mp hhas
    obtain rfl := Option.some.inj ((hlater hpast hid').symm.trans hid)
    exact ⟨past, hpast, lookup?_of_first (hs.chain?_after past h) hsplit hcloser hid'⟩

end ClassTable

namespace SharedTable

/-- What a search that starts on table `t` comes to, where the other threads do `ops` before its last
probe. -/
structure Searched (t : ClassTable) (turns : List (List Op)) (loader : Loader) (name : String)
    (answer : Option Identity) (s' : SharedTable) (ops : List Op) : Prop where
  passed : ops = (turns.take s'.answered.length).flatten
  /-- If nothing is found, the table has meant nothing by the name at the beginning. -/
  missed : answer = none → t.lookup? loader name = none
  /-- What is found is the class of a loader, and loaders that are closer have not had the name at the
  beginning.  If none of them has overtaken it, the table has meant that class at some moment. -/
  found : ∀ id, answer = some id → ∃ chain closer l farther,
    t.loaders.chain? loader = some chain ∧ chain.reverse = closer ++ l :: farther ∧
      (∀ l' ∈ closer, t.names.get? (l', name) = none) ∧
      (t.after ops).names.get? (l, name) = some id ∧
      (t.MeansAmid ops loader name (some id) ↔ ¬t.Overtaken ops closer l name)

/-- A search comes to an answer, whatever the other threads add. -/
theorem search_amid {t : ClassTable} (hs : t.Sound) {turns : List (List Op)}
    (hturns : ∀ turn ∈ turns, ∀ op ∈ turn, op.Additive) {loader : Loader} {chain : List Loader}
    (hchain : t.loaders.chain? loader = some chain) (name : String) :
    ∃ answer s' ops, search loader name { table := t, turns := turns } = .ok answer s' ∧
      Searched t turns loader name answer s' ops := by
  obtain ⟨answer, s', ops, hrun, hprobed⟩ :=
    Quiet.probeAll (s := { table := t, turns := turns }) ⟨hs, hturns⟩ name chain.reverse
  obtain ⟨probes, hlength, hops⟩ := hprobed.turns
  have hadditive : ∀ op ∈ ops, op.Additive := by
    intro op hop
    rw [hops] at hop
    obtain ⟨turn, hturn, hop⟩ := List.mem_flatten.mp hop
    exact hturns turn (List.mem_of_mem_take hturn) op hop
  refine ⟨answer, s', ops, ?_, ?_, ?_, ?_⟩
  · simp only [search, hchain]
    exact hrun
  · rw [hops, hlength]
    simp
  · intro hnone
    rw [lookup?_of_chain? hchain, List.findSome?_eq_none_iff]
    exact hprobed.missed hnone
  · intro id hid
    obtain ⟨closer, l, farther, hsplit, hcloser, hfound⟩ := hprobed.found id hid
    rw [hprobed.table] at hfound
    exact ⟨chain, closer, l, farther, hchain, hsplit, hcloser, hfound,
      hs.meansAmid_iff hadditive hchain hsplit hfound⟩

end SharedTable

namespace Program

open SharedTable

/-- **Looking a name up among other threads**: a search answers as the table would have at some moment
of it, unless the answer has been overtaken. -/
theorem searched_amid (rootName : String) (capacity : Display.Capacity) (events : List Event)
    {turns : List (List Op)} (hturns : ∀ turn ∈ turns, ∀ op ∈ turn, op.Additive) {loader : Loader}
    {chain : List Loader} (hchain : ((start (create rootName capacity)).after
      events).heap.store.loaders.chain? loader = some chain) (name : String) :
    ∃ answer s' ops,
      search loader name
          { table := ((start (create rootName capacity)).after events).heap.store, turns := turns }
        = .ok answer s' ∧
      Searched ((start (create rootName capacity)).after events).heap.store turns loader name answer
        s' ops := by
  obtain ⟨A, hrecorded⟩ := recorded_after rootName capacity events
  exact search_amid hrecorded.sound hturns hchain name

/-- There is a loader below the bootstrap loader. -/
def withLoader : List Event := [.perform (.newLoader Loader.bootstrap)]

/-- When the bootstrap loader has been probed, other threads define a class by that name there, and then
another one below. -/
def definedBehind : List (List Op) :=
  [[], [.define (ClassFile.ordinary "A"), .define { ClassFile.ordinary "A" with loader := ⟨1⟩ }]]

/-- The search comes to an answer. -/
theorem searched_amid_definedBehind :
    (∀ turn ∈ definedBehind, ∀ op ∈ turn, op.Additive) ∧
      ((start (create "Object" Display.Capacity.standard)).after
        withLoader).heap.store.loaders.chain? ⟨1⟩ = some [⟨1⟩, Loader.bootstrap] ∧
      ∃ answer s' ops,
        search ⟨1⟩ "A"
            { table := ((start (create "Object" Display.Capacity.standard)).after
                withLoader).heap.store
              turns := definedBehind } = .ok answer s' ∧
          Searched ((start (create "Object" Display.Capacity.standard)).after withLoader).heap.store
            definedBehind ⟨1⟩ "A" answer s' ops := by
  have hturns : ∀ turn ∈ definedBehind, ∀ op ∈ turn, op.Additive := by decide
  exact ⟨hturns, rfl, searched_amid "Object" Display.Capacity.standard withLoader hturns rfl "A"⟩

/-- It is the class below, which has been overtaken: at no moment has the table meant it. -/
theorem not_meansAmid_definedBehind :
    (∃ s', search ⟨1⟩ "A"
        { table := ((start (create "Object" Display.Capacity.standard)).after withLoader).heap.store
          turns := definedBehind } = .ok (some (Identity.ofIndex 2)) s' ∧
        s'.answered.length = 2) ∧
      ¬((start (create "Object" Display.Capacity.standard)).after withLoader).heap.store.MeansAmid
        definedBehind.flatten ⟨1⟩ "A" (some (Identity.ofIndex 2)) := by
  refine ⟨⟨_, rfl, rfl⟩, ?_⟩
  rintro ⟨past, hpast, hmeans⟩
  have hmoments : past = [] ∨ past = [.define (ClassFile.ordinary "A")] ∨
      past = definedBehind.flatten := by
    have hmem := (List.mem_inits past _).mpr hpast
    simpa [definedBehind] using hmem
  rcases hmoments with rfl | rfl | rfl
  · exact absurd hmeans (by decide +kernel)
  · exact absurd hmeans (by decide +kernel)
  · exact absurd hmeans (by decide +kernel)

-- Being declared is enough to have a name: here the bootstrap loader's class is meant.
example : ((start (create "Object" Display.Capacity.standard)).after (withLoader ++
    [.perform (.declare Loader.bootstrap "A"),
      .perform (.define { ClassFile.ordinary "A" with loader := ⟨1⟩ })])).heap.store.lookup? ⟨1⟩ "A"
    = some (Identity.ofIndex 1) := rfl

end Program

end RuntimeTypes
