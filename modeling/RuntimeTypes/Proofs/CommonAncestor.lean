/-
The deepest common ancestor of two types.

Chains that have a class in common agree up to it, as the class brings the chain in
front of it along.  So the deepest class that two lineages share is the last one up to
which they agree, and it does not matter which of the two shortcuts, or the walk down
both chains, finds it.  What comes out is the session's own loaded handle for it.
-/
import RuntimeTypes.Proofs.History

namespace RuntimeTypes

/-! ### Where two lists part -/

/-- Both lists have `c` at one depth, and share nothing deeper down. -/
def DeepestCommon {α : Type} (as bs : List α) (c : α) : Prop :=
  ∃ depth, as[depth]? = some c ∧ bs[depth]? = some c ∧
    (∀ (j : Nat) (x : α), as[j]? = some x → x ∈ bs → j ≤ depth) ∧
    ∀ (j : Nat) (x : α), bs[j]? = some x → x ∈ as → j ≤ depth

namespace DeepestCommon

variable {α : Type} {as bs : List α} {c : α}

theorem symm (h : DeepestCommon as bs c) : DeepestCommon bs as c := by
  obtain ⟨depth, ha, hb, hdeepa, hdeepb⟩ := h
  exact ⟨depth, hb, ha, hdeepb, hdeepa⟩

theorem eq_last {last : α} (h : DeepestCommon as (bs ++ [last]) c) (hmem : last ∈ as) :
    c = last := by
  obtain ⟨depth, -, hb, -, hdeep⟩ := h
  have hlen : bs.length ≤ depth := hdeep bs.length last (by simp) hmem
  have hlt := (List.getElem?_eq_some_iff.mp hb).1
  have hdepth : depth = bs.length := by
    rw [List.length_append, List.length_singleton] at hlt
    omega
  rw [hdepth] at hb
  simpa using hb.symm

end DeepestCommon

section

variable {α : Type} [DecidableEq α]

theorem lastCommon?_comm (as bs : List α) : lastCommon? as bs = lastCommon? bs as := by
  induction as generalizing bs with
  | nil => cases bs <;> rfl
  | cons a as ih =>
      cases bs with
      | nil => rfl
      | cons b bs =>
          simp only [lastCommon?, ih bs]
          by_cases hab : a = b
          · simp [hab]
          · rw [if_neg hab, if_neg (Ne.symm hab)]

/-- The walk down two lists goes as far as they agree. -/
theorem lastCommon?_spec (as bs : List α) :
    match lastCommon? as bs with
    | some c => ∃ k, as[k]? = some c ∧ bs[k]? = some c ∧
        ∀ j, j < as.length → as.take (j + 1) = bs.take (j + 1) → j ≤ k
    | none => ∀ j, j < as.length → as.take (j + 1) ≠ bs.take (j + 1) := by
  induction as generalizing bs with
  | nil => simp [lastCommon?]
  | cons a as ih =>
      cases bs with
      | nil => simp [lastCommon?]
      | cons b bs =>
          simp only [lastCommon?]
          by_cases hab : a = b
          · subst hab
            rw [if_pos rfl]
            have hrest := ih bs
            cases hl : lastCommon? as bs with
            | none =>
                rw [hl] at hrest
                refine ⟨0, rfl, rfl, fun j hj htake => ?_⟩
                cases j with
                | zero => exact Nat.le_refl 0
                | succ j =>
                    exact absurd (by simpa using htake) (hrest j (by simpa using hj))
            | some c =>
                rw [hl] at hrest
                obtain ⟨k, hka, hkb, hdeep⟩ := hrest
                refine ⟨k + 1, by simpa using hka, by simpa using hkb, fun j hj htake => ?_⟩
                cases j with
                | zero => exact Nat.zero_le _
                | succ j =>
                    exact Nat.succ_le_succ (hdeep j (by simpa using hj) (by simpa using htake))
          · rw [if_neg hab]
            intro j _ htake
            rw [List.take_succ_cons, List.take_succ_cons] at htake
            exact hab (List.cons.inj htake).1

end

/-! ### Lineages -/

namespace Archive

variable {A : Archive} {capacity : Display.Capacity}

/-- Each class of a lineage has its own lineage up to there. -/
theorem Coherent.lineage_take (h : A.Coherent capacity) {id : Identity} {b : ClassBody}
    (hb : A id = some b) {i : Nat} {s : Identity} (hs : (b.ancestry.chain ++ [id])[i]? = some s) :
    ∃ sb, A s = some sb ∧
      sb.ancestry.chain ++ [s] = (b.ancestry.chain ++ [id]).take (i + 1) := by
  rcases Nat.lt_or_ge i b.ancestry.chain.length with hi | hi
  · rw [List.getElem?_append_left hi] at hs
    obtain ⟨sb, hsb, htake⟩ := h.chain_take _ hb rfl i s hs
    refine ⟨sb, hsb, ?_⟩
    rw [List.take_append_of_le_length hi, htake, List.take_add_one, hs]
    rfl
  · rw [List.getElem?_append_right hi, List.getElem?_singleton] at hs
    split at hs
    · obtain rfl := Option.some.inj hs
      refine ⟨b, hb, (List.take_of_length_le ?_).symm⟩
      simp only [List.length_append, List.length_singleton]
      omega
    · cases hs

theorem Coherent.head_lineage (h : A.Coherent capacity) {id : Identity} {b : ClassBody}
    (hb : A id = some b) : (b.ancestry.chain ++ [id])[0]? = some ClassTable.root := by
  by_cases hid : id = ClassTable.root
  · subst hid
    rw [h.chain_root hb]
    rfl
  · have hhead := h.head_chain hb hid
    rw [List.getElem?_append_left (List.getElem?_eq_some_iff.mp hhead).1, hhead]

/-- Lineages that share a class agree up to it. -/
theorem Coherent.take_eq (h : A.Coherent capacity) {a b s : Identity} {ba bb : ClassBody}
    (ha : A a = some ba) (hb : A b = some bb) {i j : Nat}
    (hi : (ba.ancestry.chain ++ [a])[i]? = some s) (hj : (bb.ancestry.chain ++ [b])[j]? = some s) :
    i = j ∧ (ba.ancestry.chain ++ [a]).take (i + 1) = (bb.ancestry.chain ++ [b]).take (i + 1) := by
  obtain ⟨sb, hsb, htakea⟩ := h.lineage_take ha hi
  obtain ⟨sb', hsb', htakeb⟩ := h.lineage_take hb hj
  obtain rfl := Option.some.inj (hsb.symm.trans hsb')
  have hij : i = j := by
    have hlt := (List.getElem?_eq_some_iff.mp hi).1
    have hlt' := (List.getElem?_eq_some_iff.mp hj).1
    have hlen := congrArg List.length (htakea.symm.trans htakeb)
    rw [List.length_take, List.length_take] at hlen
    omega
  subst hij
  exact ⟨rfl, htakea.symm.trans htakeb⟩

/-- **Two lineages have a deepest common class**, and the walk down both chains finds it. -/
theorem Coherent.deepestCommon (h : A.Coherent capacity) {a b : Identity} {ba bb : ClassBody}
    (ha : A a = some ba) (hb : A b = some bb) :
    ∃ c, lastCommon? (ba.ancestry.chain ++ [a]) (bb.ancestry.chain ++ [b]) = some c ∧
      DeepestCommon (ba.ancestry.chain ++ [a]) (bb.ancestry.chain ++ [b]) c := by
  have hspec := lastCommon?_spec (ba.ancestry.chain ++ [a]) (bb.ancestry.chain ++ [b])
  have hagree : ∀ (i j : Nat) s, (ba.ancestry.chain ++ [a])[i]? = some s →
      (bb.ancestry.chain ++ [b])[j]? = some s → i = j ∧ i < (ba.ancestry.chain ++ [a]).length ∧
        (ba.ancestry.chain ++ [a]).take (i + 1) = (bb.ancestry.chain ++ [b]).take (i + 1) := by
    intro i j s hi hj
    obtain ⟨hij, htake⟩ := h.take_eq ha hb hi hj
    exact ⟨hij, (List.getElem?_eq_some_iff.mp hi).1, htake⟩
  cases hl : lastCommon? (ba.ancestry.chain ++ [a]) (bb.ancestry.chain ++ [b]) with
  | none =>
      rw [hl] at hspec
      obtain ⟨-, hlt, htake⟩ := hagree 0 0 _ (h.head_lineage ha) (h.head_lineage hb)
      exact absurd htake (hspec 0 hlt)
  | some c =>
      rw [hl] at hspec
      obtain ⟨k, hka, hkb, hdeep⟩ := hspec
      refine ⟨c, rfl, k, hka, hkb, ?_, ?_⟩
      · intro i s hi hs
        obtain ⟨j, hj⟩ := List.mem_iff_getElem?.mp hs
        obtain ⟨-, hlt, htake⟩ := hagree i j s hi hj
        exact hdeep i hlt htake
      · intro j s hj hs
        obtain ⟨i, hi⟩ := List.mem_iff_getElem?.mp hs
        obtain ⟨rfl, hlt, htake⟩ := hagree i j s hi hj
        exact hdeep i hlt htake

end Archive

/-! ### The query -/

namespace Snapshot

variable {a b : Snapshot}

theorem mem_lineage_of_isSubclass (h : a.isSubclass b = true) : b.identity ∈ a.lineage := by
  unfold isSubclass at h
  unfold lineage
  split at h
  · rename_i hid
    simp [hid]
  · split at h
    · cases h
    · exact List.mem_append_left _ (List.contains_iff_mem.mp h)

/-- A class that could be on the chain is found there exactly if the subclass check says so. -/
theorem isSubclass_iff {sub sup : Snapshot}
    (h : sup.shape = .interface → sup.identity ∉ sub.ancestry.chain) :
    sub.isSubclass sup = true ↔ sup.identity ∈ sub.lineage := by
  unfold isSubclass lineage
  rw [List.mem_append, List.mem_singleton]
  by_cases hid : sub.identity = sup.identity
  · simp [hid]
  · have hne : ¬sup.identity = sub.identity := fun he => hid he.symm
    by_cases hshape : sup.shape = .interface
    · simp [hid, hne, hshape, h hshape]
    · simp [hid, hne, hshape]

/-- The class that is found is the last one up to which the lineages agree. -/
theorem lastCommon?_of_commonAncestor {c : Identity}
    (h : a.commonAncestor b = .ok c) : lastCommon? a.lineage b.lineage = some c := by
  unfold commonAncestor at h
  split at h
  · rename_i c' hc
    rw [hc, Except.ok.inj h]
  · cases h

theorem commonAncestor_eq_ok {c : Identity} (h : lastCommon? a.lineage b.lineage = some c) :
    a.commonAncestor b = .ok c := by
  unfold commonAncestor
  rw [h]

end Snapshot

namespace Query

variable {a b : HandleRef} {ca cb : Snapshot}

/-- Once both snapshots are at hand, the query is one of four things. -/
theorem commonAncestor_of_holds {σ : Type} [MetadataSource σ] {w : Workspace σ}
    (ha : w.session.Holds a ca) (hb : w.session.Holds b cb) :
    commonAncestor a b w =
      if a = b ∨ ca.isSubclass cb then .ok b w
      else if cb.isSubclass ca then .ok a w
      else match ca.commonAncestor cb with
        | .ok c => resolve c w
        | .error e => .error (.heap e) w := by
  unfold commonAncestor
  rw [bind_of_ok (ask_apply (ha.snapshot _)), bind_of_ok (ask_apply (hb.snapshot _))]
  split
  · rfl
  · split
    · rfl
    · rw [bind_apply]
      cases ca.commonAncestor cb with
      | ok c => rfl
      | error e => rfl

/-- Where the chains have a class in common, it is one of three things. -/
theorem commonAncestor_apply {w : Workspace ClassTable} {c : Identity}
    (ha : w.session.Holds a ca) (hb : w.session.Holds b cb) (hc : ca.commonAncestor cb = .ok c) :
    commonAncestor a b w =
      if a = b ∨ ca.isSubclass cb then .ok b w
      else if cb.isSubclass ca then .ok a w
      else resolve c w := by
  rw [commonAncestor_of_holds ha hb, hc]

end Query

/-- What a search for the common ancestor of two types in a workspace comes to: `c` is the deepest
class that the lineages share. -/
structure FindsCommon (w : Workspace ClassTable) (a b : HandleRef) (c : Identity) : Prop where
  /-- Any answer is the one loaded handle of `c`. -/
  answer : ∀ l w', Query.commonAncestor a b w = .ok l w' →
    (∃ cl, w'.session.Holds l cl ∧ cl.identity = c) ∧
      ∀ r cr, w'.session.Holds r cr → cr.identity = c → r = l
  /-- The order of the types makes no difference at all. -/
  comm : Query.commonAncestor b a w = Query.commonAncestor a b w
  /-- The store is never said to have failed, and so not for want of a common class. -/
  failure : ∀ e w', Query.commonAncestor a b w = .error e w' →
    ∀ detail, e ≠ .heap (.storeFailure detail)
  /-- A handle that is there already is the answer, and nothing is read. -/
  held : ∀ r cr, w.session.Holds r cr → cr.identity = c →
    ∃ w', Query.commonAncestor a b w = .ok r w' ∧ w'.heap = w.heap ∧
      w'.session.stats.scopesOpened = w.session.stats.scopesOpened

namespace Program

open ClassTable

variable {p : Program ClassTable} {A : Archive} {log : LoadLog}

/-- The lineages of two types of a session have a deepest common class, found either way. -/
theorem Recorded.deepestCommon (h : p.Recorded A log) {s : Session} (hf : s.Faithful A)
    {a b : HandleRef} {ca cb : Snapshot} (ha : s.Holds a ca) (hb : s.Holds b cb) :
    ∃ c, DeepestCommon ca.lineage cb.lineage c ∧ ca.commonAncestor cb = .ok c ∧
      cb.commonAncestor ca = .ok c ∧ ∃ body, A c = some body := by
  obtain ⟨ba, hba, hca⟩ := hf.trueTo ha
  obtain ⟨bb, hbb, hcb⟩ := hf.trueTo hb
  have hla : ca.lineage = ba.ancestry.chain ++ [ca.identity] := by
    rw [Snapshot.lineage, hca.chain]
  have hlb : cb.lineage = bb.ancestry.chain ++ [cb.identity] := by
    rw [Snapshot.lineage, hcb.chain]
  obtain ⟨c, hlast, hdeep⟩ := h.chronicle.coherent.deepestCommon hba hbb
  rw [← hla, ← hlb] at hlast hdeep
  refine ⟨c, hdeep, Snapshot.commonAncestor_eq_ok hlast,
    Snapshot.commonAncestor_eq_ok (by rw [lastCommon?_comm, hlast]), ?_⟩
  obtain ⟨k, hk, -⟩ := hdeep
  rw [hla] at hk
  obtain ⟨body, hbody, -⟩ := h.chronicle.coherent.lineage_take hba hk
  exact ⟨body, hbody⟩

section

variable {s : Session} {a b : HandleRef} {ca cb : Snapshot} {c : Identity}

/-- Where the search stops at one of the two types, that is the deepest common class. -/
structure Shortcuts (a b : HandleRef) (ca cb : Snapshot) (c : Identity) : Prop where
  first : a = b ∨ ca.isSubclass cb = true → cb.identity = c
  second : cb.isSubclass ca = true → ca.identity = c
  both : a = b ∨ ca.isSubclass cb = true → cb.isSubclass ca = true → a = b

theorem shortcuts (hf : s.Faithful A) (ha : s.Holds a ca) (hb : s.Holds b cb)
    (hdeep : DeepestCommon ca.lineage cb.lineage c) : Shortcuts a b ca cb c := by
  have hfirst : a = b ∨ ca.isSubclass cb = true → cb.identity = c := by
    intro h
    rcases h with rfl | hsub
    · obtain rfl := ha.inj hb
      exact (hdeep.eq_last (by simp [Snapshot.lineage])).symm
    · exact (hdeep.eq_last (Snapshot.mem_lineage_of_isSubclass hsub)).symm
  have hsecond : cb.isSubclass ca = true → ca.identity = c := fun hsub =>
    (hdeep.symm.eq_last (Snapshot.mem_lineage_of_isSubclass hsub)).symm
  refine ⟨hfirst, hsecond, ?_⟩
  intro h₁ h₂
  exact hf.ref_inj ha hb ((hsecond h₂).trans (hfirst h₁).symm)

/-- Whatever has been loaded is resolved to a loaded handle. -/
theorem Recorded.resolve_held (h : p.Recorded A log) (hf : s.Faithful A)
    (hc : ∃ body, A c = some body) {l : HandleRef} {w' : Workspace ClassTable}
    (hl : Query.resolve c { session := s, heap := p.heap } = .ok l w') :
    w'.session.Faithful A ∧ ∃ cl, w'.session.Holds l cl ∧ cl.identity = c := by
  obtain ⟨hleads, hd, hr, hid, hloaded⟩ :=
    Ends.of_ok (Query.resolve_refuses ⟨h.chronicle.live, hf⟩ c) hl
  obtain ⟨body, hbody⟩ := hc
  -- What has been loaded is not waiting to be.
  have hdone : hd.isLoaded = true := by
    refine hloaded.resolve_right fun hdecl => (h.chronicle.past c body hbody).2 ?_
    rwa [hleads.store] at hdecl
  obtain ⟨cl, hcl, hclid⟩ := Handle.exists_snapshot hid hdone
  exact ⟨hleads.learns.faithful, cl, ⟨hd, hr, hcl⟩, hclid⟩

/-- What the search answers with is held for the deepest common class. -/
theorem Recorded.answer_held (h : p.Recorded A log) (hf : s.Faithful A) (ha : s.Holds a ca)
    (hb : s.Holds b cb) (hcut : Shortcuts a b ca cb c) (hab : ca.commonAncestor cb = .ok c)
    (hc : ∃ body, A c = some body) {l : HandleRef} {w' : Workspace ClassTable}
    (hl : Query.commonAncestor a b { session := s, heap := p.heap } = .ok l w') :
    w'.session.Faithful A ∧ ∃ cl, w'.session.Holds l cl ∧ cl.identity = c := by
  rw [Query.commonAncestor_apply (w := { session := s, heap := p.heap }) ha hb hab] at hl
  split at hl
  · rename_i h₁
    cases hl
    exact ⟨hf, cb, hb, hcut.first h₁⟩
  · split at hl
    · rename_i h₂
      cases hl
      exact ⟨hf, ca, ha, hcut.second h₂⟩
    · exact h.resolve_held hf hc hl

/-- The search takes the same way for both orders of the types. -/
theorem commonAncestor_swap {w : Workspace ClassTable} (ha : w.session.Holds a ca)
    (hb : w.session.Holds b cb) (hcut : Shortcuts a b ca cb c) (hab : ca.commonAncestor cb = .ok c)
    (hba : cb.commonAncestor ca = .ok c) :
    Query.commonAncestor b a w = Query.commonAncestor a b w := by
  rw [Query.commonAncestor_apply ha hb hab, Query.commonAncestor_apply hb ha hba]
  by_cases h₁ : a = b ∨ ca.isSubclass cb = true
  · rw [if_pos h₁]
    by_cases h₂ : b = a ∨ cb.isSubclass ca = true
    · rw [if_pos h₂, h₂.elim Eq.symm (hcut.both h₁)]
    · rw [if_neg h₂, if_pos (h₁.resolve_left fun he => h₂ (Or.inl he.symm))]
  · rw [if_neg h₁]
    by_cases h₂ : cb.isSubclass ca = true
    · rw [if_pos (Or.inr h₂), if_pos h₂]
    · have hne : ¬(b = a ∨ cb.isSubclass ca = true) := by
        intro h
        rcases h with he | hsub
        · exact h₁ (Or.inl he.symm)
        · exact h₂ hsub
      rw [if_neg hne, if_neg fun hsub => h₁ (Or.inr hsub), if_neg h₂]

/-- A handle that is held for the deepest common class is found without reading anything. -/
theorem commonAncestor_of_held (hf : s.Faithful A) (heap : Heap ClassTable) (ha : s.Holds a ca)
    (hb : s.Holds b cb) (hcut : Shortcuts a b ca cb c) (hab : ca.commonAncestor cb = .ok c)
    {r : HandleRef} {cr : Snapshot} (hr : s.Holds r cr) (hid : cr.identity = c) :
    ∃ w', Query.commonAncestor a b { session := s, heap := heap } = .ok r w' ∧ w'.heap = heap ∧
      w'.session.stats.scopesOpened = s.stats.scopesOpened := by
  rw [Query.commonAncestor_apply (w := { session := s, heap := heap }) ha hb hab]
  split
  · rename_i h₁
    obtain rfl := hf.ref_inj hr hb (hid.trans (hcut.first h₁).symm)
    exact ⟨_, rfl, rfl, rfl⟩
  · split
    · rename_i h₂
      obtain rfl := hf.ref_inj hr ha (hid.trans (hcut.second h₂).symm)
      exact ⟨_, rfl, rfl, rfl⟩
    · exact ⟨_, Query.resolve_of_final (hf.finalHandle?_eq_some.mpr ⟨cr, hr, hid⟩), rfl, rfl⟩

/-- The search, for two types of which the deepest common class is known. -/
theorem Recorded.findsCommon (h : p.Recorded A log) (hf : s.Faithful A) (ha : s.Holds a ca)
    (hb : s.Holds b cb) (hdeep : DeepestCommon ca.lineage cb.lineage c)
    (hab : ca.commonAncestor cb = .ok c) (hba : cb.commonAncestor ca = .ok c)
    (hc : ∃ body, A c = some body) : FindsCommon { session := s, heap := p.heap } a b c := by
  have hcut := shortcuts hf ha hb hdeep
  refine ⟨?_, ?_, ?_, ?_⟩
  · intro l w' hl
    obtain ⟨hf', cl, hcl, hid⟩ := h.answer_held hf ha hb hcut hab hc hl
    exact ⟨⟨cl, hcl, hid⟩, fun r cr hr hcr => hf'.ref_inj hr hcl (hcr.trans hid.symm)⟩
  · exact commonAncestor_swap (w := { session := s, heap := p.heap }) ha hb hcut hab hba
  · intro e w' he
    rw [Query.commonAncestor_apply (w := { session := s, heap := p.heap }) ha hb hab] at he
    split at he
    · cases he
    · split at he
      · cases he
      · have hsees : Workspace.Sees { session := s, heap := p.heap } A := ⟨h.chronicle.live, hf⟩
        have hresolve := Query.resolve_refuses hsees c
        exact (Ends.of_error hresolve he).2.ne_storeFailure
  · intro r cr hr hid
    exact commonAncestor_of_held hf p.heap ha hb hcut hab hr hid

end

/-- **The search for a common ancestor finds the deepest class** that two lineages share, as the
session's one loaded handle for it, whatever has happened to the program. -/
theorem commonAncestor_findsCommon (rootName : String) (capacity : Display.Capacity)
    (events : List Event) {i : Nat} {s : Session} {a b : HandleRef} {ca cb : Snapshot}
    (hs : ((start (create rootName capacity)).after events).sessions[i]? = some s)
    (ha : s.Holds a ca) (hb : s.Holds b cb) :
    ∃ c, DeepestCommon ca.lineage cb.lineage c ∧
      FindsCommon { session := s, heap := ((start (create rootName capacity)).after events).heap }
        a b c := by
  obtain ⟨A, h⟩ := recorded_after rootName capacity events
  have hf := h.faithful i s hs
  obtain ⟨c, hdeep, hab, hba, hc⟩ := h.deepestCommon hf ha hb
  exact ⟨c, hdeep, h.findsCommon hf ha hb hdeep hab hba hc⟩

/-- Two classes below a third, and a session that has resolved the two. -/
def siblings : List Event :=
  [.perform (.define (.ordinary "P")),
    .perform (.define { ClassFile.ordinary "A" with superclass := some (Identity.ofIndex 1) }),
    .perform (.define { ClassFile.ordinary "B" with superclass := some (Identity.ofIndex 1) }),
    .openSession {},
    .request 0 (.resolve (Identity.ofIndex 2)),
    .request 0 (.resolve (Identity.ofIndex 3))]

/-- The class that two siblings stand below is found. -/
theorem commonAncestor_siblings :
    ∃ s ca cb,
      ((start (create "Object" Display.Capacity.standard)).after siblings).sessions[0]? = some s ∧
        s.Holds ⟨0, 0⟩ ca ∧ s.Holds ⟨0, 1⟩ cb ∧
        ∃ c, DeepestCommon ca.lineage cb.lineage c ∧
          FindsCommon
            { session := s
              heap := ((start (create "Object" Display.Capacity.standard)).after siblings).heap }
            ⟨0, 0⟩ ⟨0, 1⟩ c := by
  refine ⟨_, _, _, rfl, ⟨_, rfl, rfl⟩, ⟨_, rfl, rfl⟩, ?_⟩
  exact commonAncestor_findsCommon "Object" Display.Capacity.standard siblings (i := 0)
    (a := ⟨0, 0⟩) (b := ⟨0, 1⟩) rfl ⟨_, rfl, rfl⟩ ⟨_, rfl, rfl⟩

end Program

end RuntimeTypes
