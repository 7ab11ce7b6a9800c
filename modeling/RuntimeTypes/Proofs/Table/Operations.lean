/-
How an operation on a table ends.

`Ran` lists the ways: refused with the table as it was, carried out in one move, or a
request for an array, which takes array moves and may fail after some of them.  All that
is shown of tables with a history goes through `run_ran`.
-/
import RuntimeTypes.Proofs.Table.ArrayRequests

namespace RuntimeTypes

namespace ClassTable

open Relation

/-- An operation ends with this reply and leaves this table. -/
inductive Ran (t : ClassTable) : Op → Except TableRefusal Reply → ClassTable → Prop
  | refused (op : Op) (e : TableRefusal) : Ran t op (.error e) t
  | newLoader {parent : Loader} {t' : ClassTable} : Move t (.newLoader parent) t' →
      Ran t (.newLoader parent) (.ok (.loader t.loaders.fresh)) t'
  | define {d : ClassFile} {t' : ClassTable} : Move t (.define d) t' →
      Ran t (.define d) (.ok (.made t.freshId)) t'
  | declare {loader : Loader} {name : String} {t' : ClassTable} : Move t (.declare loader name) t' →
      Ran t (.declare loader name) (.ok (.made t.freshId)) t'
  | complete {id : Identity} {d : ClassFile} {t' : ClassTable} : Move t (.complete id d) t' →
      Ran t (.complete id d) (.ok .done) t'
  | unload {id : Identity} {t' : ClassTable} : Move t (.unload id) t' →
      Ran t (.unload id) (.ok .done) t'
  | array {element : ElementType} {interfaces : List Identity} {id : Identity} {t' : ClassTable} :
      ReflTransGen (ArrayMove interfaces) t t' →
      (∀ x, element = .ofClass x → t'.arrayAt? x = some id ∧ ∃ b, t.bodyAt? x = some b) →
      Ran t (.arrayOf element interfaces) (.ok (.made id)) t'
  | arrayRefused {element : ElementType} {interfaces : List Identity} {t' : ClassTable}
      (e : TableRefusal) : ReflTransGen (ArrayMove interfaces) t t' →
      Ran t (.arrayOf element interfaces) (.error e) t'

variable {t : ClassTable}

theorem requireLoader_eq_ok {loader : Loader} {u : Unit} (h : t.requireLoader loader = .ok u) :
    t.loaders.contains loader = true := by
  unfold requireLoader at h
  split at h
  · assumption
  · cases h

theorem requireUnused_eq_ok {loader : Loader} {name : String} {u : Unit}
    (h : t.requireUnused loader name = .ok u) : t.names.get? (loader, name) = none := by
  unfold requireUnused at h
  split at h
  · cases h
  · assumption

/-- What a definition has looked at, and the table that it makes. -/
theorem define_cases {d : ClassFile} {id : Identity} {t' : ClassTable}
    (h : t.define d = .ok (id, t')) :
    t.loaders.contains d.loader = true ∧ t.names.get? (d.loader, d.name) = none ∧
      id = t.freshId ∧ ∃ body, t.bodyOf d = .ok body ∧
        t' = t.add { name := d.name, loader := d.loader, body? := some body } := by
  unfold define at h
  cases hl : t.requireLoader d.loader with
  | error e => simp [hl, bind, Except.bind] at h
  | ok _ =>
      cases hu : t.requireUnused d.loader d.name with
      | error e => simp [hl, hu, bind, Except.bind] at h
      | ok _ =>
          cases hb : t.bodyOf d with
          | error e => simp [hl, hu, hb, bind, Except.bind] at h
          | ok body =>
              simp only [hl, hu, hb, bind, Except.bind] at h
              obtain ⟨rfl, rfl⟩ := Prod.mk.inj (Except.ok.inj h)
              exact ⟨requireLoader_eq_ok hl, requireUnused_eq_ok hu, rfl, body, rfl, rfl⟩

theorem define_eq_ok {d : ClassFile} {id : Identity} {t' : ClassTable}
    (h : t.define d = .ok (id, t')) : id = t.freshId ∧ Move t (.define d) t' := by
  obtain ⟨hloader, hunused, rfl, body, hb, rfl⟩ := define_cases h
  obtain ⟨superBody, hloads⟩ := bodyOf_eq_ok hb
  exact ⟨rfl, .define d body superBody hloader hunused hloads⟩

theorem declare_eq_ok {loader : Loader} {name : String} {id : Identity} {t' : ClassTable}
    (h : t.declare loader name = .ok (id, t')) :
    id = t.freshId ∧ Move t (.declare loader name) t' := by
  unfold declare at h
  cases hl : t.requireLoader loader with
  | error e => simp [hl, bind, Except.bind] at h
  | ok _ =>
      cases hu : t.requireUnused loader name with
      | error e => simp [hl, hu, bind, Except.bind] at h
      | ok _ =>
          simp only [hl, hu, bind, Except.bind] at h
          obtain ⟨rfl, rfl⟩ := Prod.mk.inj (Except.ok.inj h)
          exact ⟨rfl, .declare loader name (requireLoader_eq_ok hl) (requireUnused_eq_ok hu)⟩

/-- What a completion has looked at, and the table that it makes. -/
theorem complete_cases {id : Identity} {d : ClassFile} {t' : ClassTable}
    (h : t.complete id d = .ok t') : ∃ entry body, t.objectAt id = some entry ∧
      entry.body? = none ∧
      t.bodyOf { d with name := entry.name, loader := entry.loader } = .ok body ∧
      t' = t.put id (some { entry with body? := some body }) := by
  unfold complete at h
  split at h
  · cases h
  · rename_i entry he
    split at h
    · cases h
    · rename_i hnone
      cases hb : t.bodyOf { d with name := entry.name, loader := entry.loader } with
      | error e => simp [hb, bind, Except.bind] at h
      | ok body =>
          simp only [hb, bind, Except.bind] at h
          exact ⟨entry, body, he, hnone, hb, (Except.ok.inj h).symm⟩

theorem complete_eq_ok {id : Identity} {d : ClassFile} {t' : ClassTable}
    (h : t.complete id d = .ok t') : Move t (.complete id d) t' := by
  obtain ⟨entry, body, he, hnone, hb, rfl⟩ := complete_cases h
  obtain ⟨superBody, hloads⟩ := bodyOf_eq_ok hb
  -- Nothing that loading works out depends on the name and the loader.
  exact .complete id d entry body superBody he hnone
    ⟨hloads.superAt, hloads.superShape, hloads.shape, hloads.areInterfaces, hloads.chain,
      hloads.mem_secondary, hloads.placed⟩

theorem remove_eq_ok {id : Identity} {t' : ClassTable} (h : t.remove id = .ok t') :
    Move t (.unload id) t' := by
  unfold remove at h
  split at h
  · cases h
  · rename_i entry he
    split at h
    · cases h
    · rename_i hne
      obtain rfl := Except.ok.inj h
      exact .unload id entry he hne

theorem addLoader_eq_ok {parent loader : Loader} {t' : ClassTable}
    (h : t.addLoader parent = .ok (loader, t')) :
    loader = t.loaders.fresh ∧ Move t (.newLoader parent) t' := by
  unfold addLoader at h
  split at h
  · rename_i hc
    obtain ⟨rfl, rfl⟩ := Prod.mk.inj (Except.ok.inj h)
    exact ⟨rfl, .newLoader parent hc⟩
  · cases h

/-- **Whatever an operation does to a sound table is one of the ways above.** -/
theorem run_ran (h : t.Sound) (op : Op) : Ran t op (op.run t).1 (op.run t).2 := by
  cases op with
  | newLoader parent =>
      simp only [Op.run]
      cases hr : t.addLoader parent with
      | error e => exact .refused _ e
      | ok made =>
          obtain ⟨loader, t'⟩ := made
          obtain ⟨rfl, hm⟩ := addLoader_eq_ok hr
          exact .newLoader hm
  | define d =>
      simp only [Op.run]
      cases hr : t.define d with
      | error e => exact .refused _ e
      | ok made =>
          obtain ⟨id, t'⟩ := made
          obtain ⟨rfl, hm⟩ := define_eq_ok hr
          exact .define hm
  | declare loader name =>
      simp only [Op.run]
      cases hr : t.declare loader name with
      | error e => exact .refused _ e
      | ok made =>
          obtain ⟨id, t'⟩ := made
          obtain ⟨rfl, hm⟩ := declare_eq_ok hr
          exact .declare hm
  | complete id d =>
      simp only [Op.run]
      cases hr : t.complete id d with
      | error e => exact .refused _ e
      | ok t' => exact .complete (complete_eq_ok hr)
  | arrayOf element interfaces =>
      simp only [Op.run]
      cases hr : arrayOf element interfaces t with
      | ok id t' =>
          obtain ⟨hm, hfound⟩ := (arrayOf_ends h element interfaces).of_ok hr
          exact .array hm hfound
      | error e t' => exact .arrayRefused e ((arrayOf_ends h element interfaces).of_error hr)
  | unload id =>
      simp only [Op.run]
      cases hr : t.remove id with
      | error e => exact .refused _ e
      | ok t' => exact .unload (remove_eq_ok hr)

/-- What every move keeps, every operation keeps. -/
theorem Ran.keeps {P : ClassTable → Prop} (hmove : ∀ {t op t'}, Move t op t' → P t → P t') {op : Op}
    {reply : Except TableRefusal Reply} (hr : Ran t op reply t') (h : P t) : P t' := by
  have harrays {interfaces : List Identity} {t' : ClassTable}
      (hm : ReflTransGen (ArrayMove interfaces) t t') : P t' := by
    induction hm with
    | refl => exact h
    | tail _ hm ih =>
        obtain ⟨element, hm⟩ := hm
        exact hmove hm ih
  cases hr with
  | refused => exact h
  | newLoader hm | define hm | declare hm | complete hm | unload hm => exact hmove hm h
  | array hm | arrayRefused _ hm => exact harrays hm

/-- Every operation keeps a table sound. -/
theorem Ran.sound {op : Op} {reply : Except TableRefusal Reply} {t' : ClassTable}
    (hr : Ran t op reply t') (h : t.Sound) : t'.Sound :=
  hr.keeps Move.sound h

end ClassTable

end RuntimeTypes
