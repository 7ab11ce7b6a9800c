/-
What has been loaded into a table, and what that says of its records.

The hierarchy is that of the class files: `LoadedBelow` says which types a class file
names as supertypes, and `Reaches` follows them upwards through all that has been
loaded, whether it is there still or not.  `Chronicle` is the invariant that ties a
table, the archive of all bodies it has ever held and the class files together, and
`Ran.chronicle` is its step.
-/
import RuntimeTypes.Proofs.Records
import RuntimeTypes.Proofs.Table.Operations

namespace RuntimeTypes

namespace ClassTable

open Relation

/-! ### The hierarchy of the class files -/

/-- The class files that have been loaded, each with the class it was loaded for. -/
abbrev LoadLog := List (Identity × ClassFile)

/-- What an operation that ends with this reply has loaded. -/
def Op.loads : Op → Except TableRefusal Reply → LoadLog
  | .define d, .ok (.made id) => [(id, d)]
  | .complete id d, .ok .done => [(id, d)]
  | _, _ => []

/-- A type that a class file is loaded directly below. -/
inductive LoadedBelow (d : ClassFile) : Identity → Prop
  /-- An interface stands below the root, whatever superclass is given. -/
  | interface : d.isInterface = true → LoadedBelow d root
  | noSuperclass : d.isInterface = false → d.superclass = none → LoadedBelow d root
  | superclass {s : Identity} : d.isInterface = false → d.superclass = some s → LoadedBelow d s
  | implemented {i : Identity} : i ∈ d.interfaces → LoadedBelow d i

/-- One step up. -/
def DirectSuper (log : LoadLog) (a b : Identity) : Prop := ∃ d, (a, d) ∈ log ∧ LoadedBelow d b

/-- Any number of steps up. -/
def Reaches (log : LoadLog) : Identity → Identity → Prop := ReflTransGen (DirectSuper log)

theorem loadedBelow_iff {d : ClassFile} {s : Identity} :
    LoadedBelow d s ↔ s = superclassOf d ∨ s ∈ d.interfaces := by
  unfold superclassOf
  constructor
  · rintro (h | ⟨h, hs⟩ | ⟨h, hs⟩ | h)
    · exact Or.inl (by simp [h])
    · exact Or.inl (by simp [h, hs])
    · exact Or.inl (by simp [h, hs])
    · exact Or.inr h
  · rintro (h | h)
    · cases hd : d.isInterface with
      | true =>
          simp only [hd, if_true] at h
          exact h ▸ .interface hd
      | false =>
          cases hs : d.superclass with
          | none =>
              simp only [hd, hs] at h
              exact h ▸ .noSuperclass hd hs
          | some s' =>
              simp only [hd, hs] at h
              exact h ▸ .superclass hd hs
    · exact .implemented h

theorem Reaches.mono {log log' : LoadLog} (h : ∀ x ∈ log, x ∈ log') {a b : Identity}
    (hr : Reaches log a b) : Reaches log' a b := by
  refine ReflTransGen.mono ?_ a b hr
  rintro x y ⟨d, hd, hb⟩
  exact ⟨d, h _ hd, hb⟩

/-! ### The invariant -/

/-- A table, all bodies that its classes have ever had, and all class files that were loaded. -/
structure Chronicle (A : Archive) (log : LoadLog) (t : ClassTable) : Prop where
  live : Archive.Within t.bodyAt? A
  /-- What has had a body is not waiting for one. -/
  past : ∀ id b, A id = some b → id.index < t.entries.size ∧ ¬t.Declared id
  coherent : A.Coherent t.capacity
  lawful : A.AllLawful t.capacity
  loads : ∀ id d, (id, d) ∈ log → ∃ b sb, A id = some b ∧ A.Loads t.capacity d b sb
  reached : ∀ id b, A id = some b → b.shape.isArray = false →
    ∀ s ∈ b.ancestry.supers, Reaches log id s

namespace Chronicle

variable {A : Archive} {log : LoadLog} {t : ClassTable}

/-- What is reached from a loaded class or interface is named by its record. -/
theorem mem_of_reaches (h : Chronicle A log t) {id s : Identity} {b : ClassBody}
    (hb : A id = some b) (hn : b.shape.isArray = false) (hr : Reaches log id s) :
    s = id ∨ s ∈ b.ancestry.supers := by
  -- One step up leads into the record, and the record is closed upwards.
  have hstep : ∀ x y xb, A x = some xb → DirectSuper log x y → y ∈ xb.ancestry.supers := by
    rintro x y xb hxb ⟨d, hd, hbelow⟩
    obtain ⟨b', sb, hb', hl⟩ := h.loads x d hd
    obtain rfl := Option.some.inj (hxb.symm.trans hb')
    rcases loadedBelow_iff.mp hbelow with rfl | hi
    · refine AncestryRecord.mem_supers_of_chain ?_
      rw [hl.chain]
      simp
    · obtain ⟨ib, hib, -⟩ := hl.areInterfaces y hi
      exact AncestryRecord.mem_supers_of_secondary
        ((hl.mem_secondary y).mpr (Or.inr (Or.inr ⟨y, hi, ib, hib, Or.inl rfl⟩)))
  induction hr with
  | refl => exact Or.inl rfl
  | @tail x y _ hxy ih =>
      rcases ih with rfl | hx
      · exact Or.inr (hstep _ y b hb hxy)
      · obtain ⟨xb, hxb, -, hsub⟩ := (h.lawful id b hb hn).closed x hx
        exact Or.inr (hsub y (hstep x y xb hxb hxy))

/-- **A record names what is reached** upwards through the class files, and nothing else. -/
theorem reaches_iff (h : Chronicle A log t) {id s : Identity} {b : ClassBody}
    (hb : A id = some b) (hn : b.shape.isArray = false) :
    Reaches log id s ↔ id = s ∨ s ∈ b.ancestry.supers := by
  constructor
  · intro hr
    exact (h.mem_of_reaches hb hn hr).imp_left Eq.symm
  · rintro (rfl | hs)
    · exact .refl
    · exact h.reached id b hb hn s hs

/-- What loading works out is reached through the class file and what was loaded before. -/
theorem reaches_of_loads (h : Chronicle A log t) {log' : LoadLog} (hlog : ∀ x ∈ log, x ∈ log')
    {id : Identity} {d : ClassFile} {b sb : ClassBody} (hd : (id, d) ∈ log')
    (hl : A.Loads t.capacity d b sb) : ∀ s ∈ b.ancestry.supers, Reaches log' id s := by
  have hsuper : DirectSuper log' id (superclassOf d) := ⟨d, hd, loadedBelow_iff.mpr (Or.inl rfl)⟩
  have habove : ∀ s ∈ sb.ancestry.supers, Reaches log' id s := by
    intro s hs
    have hr := h.reached _ sb hl.superAt (by simp [hl.superShape]) s hs
    exact .head hsuper (hr.mono hlog)
  have hchain : ∀ s ∈ b.ancestry.chain, Reaches log' id s := by
    intro s hs
    rw [hl.chain] at hs
    rcases List.mem_append.mp hs with hs | hs
    · exact habove s (AncestryRecord.mem_supers_of_chain hs)
    · obtain rfl := List.mem_singleton.mp hs
      exact .single hsuper
  intro s hs
  rcases AncestryRecord.mem_supers.mp hs with hs | hs
  · exact hchain s hs
  · rcases (hl.mem_secondary s).mp hs with hs | hs | hs
    · exact hchain s (List.mem_of_mem_drop hs)
    · exact habove s (AncestryRecord.mem_supers_of_secondary hs)
    · obtain ⟨i, hi, ib, hib, hshape, -, hs⟩ := hl.contributor h.lawful hs
      have hdirect : DirectSuper log' id i := ⟨d, hd, .implemented hi⟩
      rcases hs with rfl | hs
      · exact .single hdirect
      · have hr := h.reached i ib hib (by simp [hshape]) s
          (AncestryRecord.mem_supers_of_secondary hs)
        exact .head hdirect (hr.mono hlog)

/-! ### Its step -/

/-- A class gets a body, under an identity that has had none. -/
theorem learn (h : Chronicle A log t) {t' : ClassTable} {log' : LoadLog} {id : Identity}
    {body : ClassBody} (hnew : A id = none) (hcap : t'.capacity = t.capacity)
    (hlive : ∀ x b, t'.bodyAt? x = some b → (x = id ∧ body = b) ∨ (x ≠ id ∧ t.bodyAt? x = some b))
    (hpast : ∀ x, x = id ∨ (x.index < t.entries.size ∧ ¬t.Declared x) →
      x.index < t'.entries.size ∧ ¬t'.Declared x)
    (hparent : ∃ p pb, A p = some pb ∧ body.ancestry.chain = pb.ancestry.chain ++ [p])
    (hlaw : body.shape.isArray = false → A.Lawful t.capacity body)
    (hlog : ∀ x ∈ log, x ∈ log')
    (hloads : ∀ x d, (x, d) ∈ log' →
      (x, d) ∈ log ∨ x = id ∧ ∃ sb, A.Loads t.capacity d body sb)
    (hreached : body.shape.isArray = false → ∀ s ∈ body.ancestry.supers, Reaches log' id s) :
    Chronicle (A.extend id body) log' t' where
  live := fun x b hb => Archive.extend_eq_some.mpr
    ((hlive x b hb).imp_right fun hold => ⟨hold.1, h.live x b hold.2⟩)
  past := fun x b hb => hpast x
    ((Archive.extend_eq_some.mp hb).imp (·.1) fun hold => h.past x b hold.2)
  coherent := hcap ▸ h.coherent.extend hnew hparent
  lawful := hcap ▸ h.lawful.extend hnew hlaw
  loads := by
    have hwithin := Archive.within_extend hnew body
    intro x d hd
    rw [hcap]
    rcases hloads x d hd with hd | ⟨rfl, sb, hl⟩
    · obtain ⟨b, sb, hb, hl⟩ := h.loads x d hd
      exact ⟨b, sb, hwithin x b hb, hl.mono hwithin⟩
    · exact ⟨body, sb, Archive.extend_self .., hl.mono hwithin⟩
  reached := by
    intro x b hb hn s hs
    rcases Archive.extend_eq_some.mp hb with ⟨rfl, rfl⟩ | ⟨-, hb⟩
    · exact hreached hn s hs
    · exact (h.reached x b hb hn s hs).mono hlog

/-- Nothing gets a body, and nothing waits for one that has had one. -/
theorem keep (h : Chronicle A log t) {t' : ClassTable} (hcap : t'.capacity = t.capacity)
    (hlive : Archive.Within t'.bodyAt? t.bodyAt?)
    (hpast : ∀ x : Identity, x.index < t.entries.size → ¬t.Declared x →
      x.index < t'.entries.size ∧ ¬t'.Declared x) : Chronicle A log t' where
  live := hlive.trans h.live
  past := fun x b hb => hpast x (h.past x b hb).1 (h.past x b hb).2
  coherent := hcap ▸ h.coherent
  lawful := hcap ▸ h.lawful
  loads := hcap ▸ h.loads
  reached := h.reached

/-- A class file is loaded. -/
theorem load (h : Chronicle A log t) {t' : ClassTable} {id : Identity} {d : ClassFile}
    {body sb : ClassBody} (hl : Archive.Loads t.bodyAt? t.capacity d body sb) (hnew : A id = none)
    (hcap : t'.capacity = t.capacity)
    (hlive : ∀ x b, t'.bodyAt? x = some b → (x = id ∧ body = b) ∨ (x ≠ id ∧ t.bodyAt? x = some b))
    (hpast : ∀ x, x = id ∨ (x.index < t.entries.size ∧ ¬t.Declared x) →
      x.index < t'.entries.size ∧ ¬t'.Declared x) :
    Chronicle (A.extend id body) (log ++ [(id, d)]) t' := by
  have hla := hl.mono h.live
  refine h.learn hnew hcap hlive hpast ⟨_, sb, hla.superAt, hla.chain⟩
    (fun _ => hla.lawful h.lawful h.coherent) (by simp +contextual) ?_
    (fun _ => h.reaches_of_loads (by simp +contextual) (by simp) hla)
  intro x d' hd
  rcases List.mem_append.mp hd with hd | hd
  · exact Or.inl hd
  · obtain ⟨rfl, rfl⟩ := Prod.mk.inj (List.mem_singleton.mp hd)
    exact Or.inr ⟨rfl, sb, hla⟩

theorem unknown_freshId (h : Chronicle A log t) : A t.freshId = none := by
  cases hf : A t.freshId with
  | none => rfl
  | some b => exact absurd (h.past _ b hf).1 (Nat.lt_irrefl _)

theorem unknown_of_declared (h : Chronicle A log t) {id : Identity} (hd : t.Declared id) :
    A id = none := by
  cases hf : A id with
  | none => rfl
  | some b => exact absurd hd (h.past id b hf).2

end Chronicle

/-! ### Entries come and go -/

variable {A : Archive} {log : LoadLog} {t t' : ClassTable}

theorem bodyAt?_add_cases {entry : ClassObject} {x : Identity} {b : ClassBody}
    (h : (t.add entry).bodyAt? x = some b) :
    (x = t.freshId ∧ entry.body? = some b) ∨ (x ≠ t.freshId ∧ t.bodyAt? x = some b) := by
  rw [bodyAt?_add] at h
  split at h
  · exact Or.inl ⟨‹_›, h⟩
  · exact Or.inr ⟨‹_›, h⟩

theorem past_add {entry : ClassObject} {x : Identity} (hx : x.index < t.entries.size)
    (hd : ¬t.Declared x) : x.index < (t.add entry).entries.size ∧ ¬(t.add entry).Declared x := by
  rw [size_add, declared_add hx]
  exact ⟨Nat.lt_succ_of_lt hx, hd⟩

/-- An added entry that is loaded does not wait for a body. -/
theorem past_add_loaded {entry : ClassObject} {body : ClassBody} (hb : entry.body? = some body) :
    ∀ x, x = t.freshId ∨ (x.index < t.entries.size ∧ ¬t.Declared x) →
      x.index < (t.add entry).entries.size ∧ ¬(t.add entry).Declared x := by
  rintro x (rfl | ⟨hx, hd⟩)
  · refine ⟨by simp, ?_⟩
    rintro ⟨e, he, hnone⟩
    rw [objectAt_add, if_pos rfl] at he
    obtain rfl := Option.some.inj he
    rw [hb] at hnone
    cases hnone
  · exact past_add hx hd

theorem bodyAt?_put_cases {id x : Identity} {entry : ClassObject} {body b : ClassBody}
    (hid : id.index < t.entries.size)
    (h : (t.put id (some { entry with body? := some body })).bodyAt? x = some b) :
    (x = id ∧ body = b) ∨ (x ≠ id ∧ t.bodyAt? x = some b) := by
  rw [bodyAt?_put hid] at h
  split at h
  · exact Or.inl ⟨‹_›, Option.some.inj h⟩
  · exact Or.inr ⟨‹_›, h⟩

/-- A completed entry does not wait for a body any more. -/
theorem past_put_loaded {id : Identity} {entry : ClassObject} {body : ClassBody}
    (hid : id.index < t.entries.size) :
    ∀ x, x = id ∨ (x.index < t.entries.size ∧ ¬t.Declared x) →
      x.index < (t.put id (some { entry with body? := some body })).entries.size ∧
        ¬(t.put id (some { entry with body? := some body })).Declared x := by
  intro x hx
  rw [size_put]
  refine ⟨hx.elim (fun hx => hx ▸ hid) (·.1), ?_⟩
  rintro ⟨e, hxe, hnone⟩
  rw [objectAt_put hid] at hxe
  split at hxe
  · obtain rfl := Option.some.inj hxe
    cases hnone
  · rename_i hne
    exact (hx.resolve_left hne).2 ⟨e, hxe, hnone⟩

theorem past_without {id x : Identity} {entry : ClassObject} (he : t.objectAt id = some entry)
    (hx : x.index < t.entries.size) (hd : ¬t.Declared x) :
    x.index < (t.without id entry).entries.size ∧ ¬(t.without id entry).Declared x := by
  refine ⟨by simpa [ClassTable.without] using hx, ?_⟩
  rintro ⟨e, hxe, hnone⟩
  rw [objectAt_without he] at hxe
  split at hxe
  · cases hxe
  · exact hd ⟨e, hxe, hnone⟩

/-- The lineage of an array goes on from a chain that is there. -/
theorem Inherits.parent (hc : Archive.Coherent A t.capacity)
    (hlive : Archive.Within t.bodyAt? A) {lineage : Option (Identity × List Identity)}
    {chain inherited : List Identity} (hi : t.Inherits lineage chain inherited) :
    ∃ p pb, A p = some pb ∧ chain = pb.ancestry.chain ++ [p] := by
  cases hi with
  | root =>
      obtain ⟨rootBody, hb, -, ha⟩ := hc.rootAt
      exact ⟨ClassTable.root, rootBody, hb, by rw [ha]; rfl⟩
  | super harray hbody _ => exact ⟨_, _, hlive _ _ hbody, rfl⟩

theorem within_add (entry : ClassObject) :
    Archive.Within t.bodyAt? (t.add entry).bodyAt? := by
  intro id b hb
  rw [bodyAt?_add_of_lt (Sound.index_lt hb), hb]

theorem ArrayMove.within {interfaces : List Identity} (hm : ArrayMove interfaces t t') :
    Archive.Within t.bodyAt? t'.bodyAt? := by
  obtain ⟨element, hm⟩ := hm
  cases hm
  exact within_add _

theorem ArrayMove.chronicle {interfaces : List Identity} (hm : ArrayMove interfaces t t')
    (h : Chronicle A log t) :
    ∃ A', Archive.Gains A t'.bodyAt? A' ∧ Chronicle A' log t' := by
  obtain ⟨element, hm⟩ := hm
  cases hm with
  | array _ _ plan chain secondary hmk =>
      obtain ⟨inherited, hi, -⟩ := hmk.supers
      have hnew := h.unknown_freshId
      refine ⟨_, Archive.gains_extend hnew
        (by rw [bodyAt?_add, if_pos rfl]), ?_⟩
      refine h.learn hnew (by simp) ?_ (past_add_loaded rfl) (hi.parent h.coherent h.live)
        nofun (fun _ hx => hx) (fun _ _ hd => Or.inl hd) nofun
      intro x b hb
      exact (bodyAt?_add_cases hb).imp_left fun hx => ⟨hx.1, Option.some.inj hx.2⟩

theorem chronicle_arrayMoves {interfaces : List Identity}
    (hm : ReflTransGen (ArrayMove interfaces) t t') (h : Chronicle A log t) :
    ∃ A', Archive.Gains A t'.bodyAt? A' ∧ Chronicle A' log t' := by
  induction hm with
  | refl => exact ⟨A, .refl A _, h⟩
  | tail _ hmove ih =>
      obtain ⟨A', hA', h'⟩ := ih
      obtain ⟨A'', hA'', h''⟩ := hmove.chronicle h'
      exact ⟨A'', hA'.trans hA'' hmove.within, h''⟩

@[simp] theorem Op.loads_error (op : Op) (e : TableRefusal) : op.loads (.error e) = [] := by
  cases op <;> rfl

/-- **Every operation carries the chronicle on**, with what it has loaded. -/
theorem Ran.chronicle {op : Op} {reply : Except TableRefusal Reply} (hr : Ran t op reply t')
    (h : Chronicle A log t) :
    ∃ A', Archive.Gains A t'.bodyAt? A' ∧ Chronicle A' (log ++ op.loads reply) t' := by
  cases hr with
  | refused _ e => exact ⟨A, .refl A _, by simpa using h⟩
  | newLoader hm =>
      cases hm with
      | newLoader _ _ =>
          refine ⟨A, .refl A _, ?_⟩
          simp only [Op.loads, List.append_nil]
          exact h.keep rfl (.refl _) fun x hx hd => ⟨hx, hd⟩
  | define hm =>
      cases hm with
      | define d body sb _ _ hl =>
          have hnew := h.unknown_freshId
          refine ⟨_, Archive.gains_extend hnew (by rw [bodyAt?_add, if_pos rfl]),
            h.load hl hnew (by simp) ?_ (past_add_loaded rfl)⟩
          intro x b hb
          exact (bodyAt?_add_cases hb).imp_left fun hx => ⟨hx.1, Option.some.inj hx.2⟩
  | declare hm =>
      cases hm with
      | declare loader name _ _ =>
          refine ⟨A, .refl A _, ?_⟩
          simp only [Op.loads, List.append_nil]
          refine h.keep (by simp) ?_ fun x hx hd => past_add hx hd
          intro x b hb
          rcases bodyAt?_add_cases hb with ⟨-, hnone⟩ | ⟨-, hb⟩
          · cases hnone
          · exact hb
  | @complete id d _ hm =>
      cases hm with
      | complete _ _ entry body sb he hnone hl =>
          have hid := index_lt_of_objectAt he
          have hnew := h.unknown_of_declared ⟨entry, he, hnone⟩
          exact ⟨_, Archive.gains_extend hnew (by rw [bodyAt?_put hid, if_pos rfl]; rfl),
            h.load hl hnew rfl (fun _ _ => bodyAt?_put_cases hid) (past_put_loaded hid)⟩
  | @unload id _ hm =>
      cases hm with
      | unload _ entry he _ =>
          refine ⟨A, .refl A _, ?_⟩
          simp only [Op.loads, List.append_nil]
          exact h.keep rfl (fun x b hb => bodyAt?_of_without he hb) fun x => past_without he
  | array hm _ => simpa [Op.loads] using chronicle_arrayMoves hm h
  | arrayRefused _ hm => simpa using chronicle_arrayMoves hm h

theorem chronicle_create (rootName : String) (capacity : Display.Capacity) :
    Chronicle (create rootName capacity).bodyAt? [] (create rootName capacity) where
  live := .refl _
  past := by
    intro id b hb
    refine ⟨Sound.index_lt hb, ?_⟩
    rintro ⟨e, he, hnone⟩
    rw [objectAt_create] at he
    split at he
    · obtain rfl := Option.some.inj he
      cases hnone
    · cases he
  coherent :=
    { rootAt := ⟨_, bodyAt?_eq_some.mpr ⟨_, by rw [objectAt_create, if_pos rfl], rfl⟩, rfl, rfl⟩
      parent := fun id b hb hid => absurd (bodyAt?_create hb).1 hid }
  lawful := fun id b hb _ =>
    Archive.lawful_root (bodyAt?_create hb).2.1 (bodyAt?_create hb).2.2
  loads := nofun
  reached := by
    intro id b hb _ s hs
    rw [(bodyAt?_create hb).2.2] at hs
    cases hs

end ClassTable

end RuntimeTypes
