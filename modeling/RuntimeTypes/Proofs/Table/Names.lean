/-
Names and entries of a table say the same.

`Sound` has it that a name leads to the entry that has it, so no two entries share a loader and a
name.  What is missing there is that the loaders exist.  An entry that is added has a
loader that has been asked for by then, or that its element has; loaders are never removed.

`Recorded.store_after` carries whatever operations keep through all events of a program.
-/
import RuntimeTypes.Proofs.History

namespace RuntimeTypes

theorem LoaderTree.contains_bootstrap (tree : LoaderTree) :
    tree.contains Loader.bootstrap = true := by
  simp [contains, size, Loader.bootstrap]

theorem LoaderTree.contains_add {tree : LoaderTree} {loader : Loader}
    (h : tree.contains loader = true) (parent : Loader) : (tree.add parent).contains loader = true := by
  have hlt : loader.number < tree.size := of_decide_eq_true h
  exact decide_eq_true (Nat.lt_succ_of_lt hlt)

namespace ClassTable

variable {t t' : ClassTable}

/-- The loader of every entry exists. -/
def Housed (t : ClassTable) : Prop :=
  ∀ id e, t.objectAt id = some e → t.loaders.contains e.loader = true

theorem Housed.add (h : t.Housed) {entry : ClassObject}
    (hentry : t.loaders.contains entry.loader = true) : (t.add entry).Housed := by
  intro id e he
  rw [objectAt_add] at he
  split at he
  · obtain rfl := Option.some.inj he
    exact hentry
  · exact h id e he

theorem Housed.arrayPlan (h : t.Housed) {element : ElementType} {plan : ArrayPlan}
    (hplan : t.arrayPlan element = .ok plan) : t.loaders.contains plan.loader = true := by
  cases element with
  | primitive type =>
      simp only [ClassTable.arrayPlan] at hplan
      split at hplan
      · cases hplan
      · obtain rfl := Except.ok.inj hplan
        exact t.loaders.contains_bootstrap
  | ofClass id =>
      obtain ⟨entry, body, he, -, rfl⟩ := arrayPlan_ofClass_eq_ok hplan
      exact h id entry he

theorem Move.housed {op : Op} (hm : Move t op t') (h : t.Housed) : t'.Housed := by
  cases hm with
  | newLoader parent => exact fun id e he => LoaderTree.contains_add (h id e he) parent
  | define d body superBody hloader => exact h.add hloader
  | declare loader name hloader => exact h.add hloader
  | array element interfaces plan chain secondary hmakes => exact h.add (h.arrayPlan hmakes.planned)
  | complete id d entry body superBody he =>
      intro other e ho
      rw [objectAt_put (index_lt_of_objectAt he)] at ho
      split at ho
      · obtain rfl := Option.some.inj ho
        exact h id entry he
      · exact h other e ho
  | unload id entry he =>
      intro other e ho
      rw [objectAt_without he] at ho
      split at ho
      · cases ho
      · exact h other e ho

theorem Ran.housed {op : Op} {reply : Except TableRefusal Reply} (hr : Ran t op reply t')
    (h : t.Housed) : t'.Housed :=
  hr.keeps Move.housed h

theorem housed_create (rootName : String) (capacity : Display.Capacity) :
    (create rootName capacity).Housed := by
  intro id e he
  rw [objectAt_create] at he
  split at he
  · obtain rfl := Option.some.inj he
    exact LoaderTree.contains_bootstrap _
  · cases he

/-- The names of a table and its entries say the same. -/
structure Indexed (t : ClassTable) : Prop where
  /-- No two entries have the same loader and name. -/
  distinct : ∀ id id' e e', t.objectAt id = some e → t.objectAt id' = some e' →
    e.loader = e'.loader → e.name = e'.name → id = id'
  /-- A loader and a name lead to the entry that has them, and to nothing else. -/
  found : ∀ loader name id, t.names.get? (loader, name) = some id ↔
    ∃ e, t.objectAt id = some e ∧ e.loader = loader ∧ e.name = name
  /-- The loader of every entry exists. -/
  housed : t.Housed

theorem Sound.indexed (h : t.Sound) (hhoused : t.Housed) : t.Indexed where
  distinct := fun _ _ _ _ he he' hloader hname => h.key_inj he he' hloader hname
  found := fun loader name id => by simp [h.named, Prod.ext_iff]
  housed := hhoused

end ClassTable

namespace Program

open ClassTable

/-- What every operation keeps holds of the table whatever happens to the program. -/
theorem Recorded.store_after {p : Program ClassTable} {A : Archive} {log : LoadLog}
    {P : ClassTable → Prop}
    (hran : ∀ {t t' op reply}, t.Sound → Ran t op reply t' → P t → P t') (h : p.Recorded A log)
    (hP : P p.heap.store) (events : List Event) : P (p.after events).heap.store := by
  induction events generalizing p A log with
  | nil => exact hP
  | cons e rest ih =>
      obtain ⟨A', -, h'⟩ := h.step e
      refine ih h' ?_
      rcases h.step_store e with hstore | ⟨op, hstore⟩
      · exact hstore ▸ hP
      · exact hstore ▸ hran h.sound (run_ran h.sound op) hP

/-- **The name index is coherent** whatever happens to a program. -/
theorem indexed_after (rootName : String) (capacity : Display.Capacity) (events : List Event) :
    ((start (create rootName capacity)).after events).heap.store.Indexed := by
  have hstart := recorded_start rootName capacity
  obtain ⟨A, -, hafter⟩ := hstart.after events
  refine hafter.sound.indexed (hstart.store_after (fun _ hr => hr.housed) ?_ events)
  exact housed_create rootName capacity

end Program

end RuntimeTypes
