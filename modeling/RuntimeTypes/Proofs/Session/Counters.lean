/-
The counters of a session, against its arena.

A session counts the handles that it has built, and how many of them have come to stand beside
an older one.  Both can be read off the arena: every handle of a class has been counted once,
and a class is superseded where it has a handle of either load status.  The second count is
right because a class has at most one handle of each, and gets the loaded one second.

Handles without a class are not counted, but they are known too.  A primitive type has one
once it has been asked for, and the placeholders are those that have been granted.
-/
import Mathlib.Data.Finset.Card
import Mathlib.Data.Finset.Option
import RuntimeTypes.Proofs.Session.Placeholders

namespace RuntimeTypes

namespace Handle

/-- Whether no more than the name is known. -/
def isPlaceholder (h : Handle) : Bool :=
  match h.state with
  | .unloaded none _ => true
  | _ => false

theorem one_kind (h : Handle) : (if h.identity?.isSome then 1 else 0)
    + (if h.isPlaceholder then 1 else 0) + (if h.isPrimitive then 1 else 0) = 1 := by
  obtain ⟨name, externalName, state⟩ := h
  cases state with
  | loaded c => rfl
  | unloaded id? type => cases id? <;> rfl
  | primitive type => rfl

end Handle

namespace Session

variable {s s' : Session}

theorem size_eq_countP (s : Session) : s.size = s.handles.countP (fun h => h.identity?.isSome)
    + s.handles.countP Handle.isPlaceholder + s.handles.countP Handle.isPrimitive := by
  unfold size
  rw [← Array.length_toList, ← Array.countP_toList, ← Array.countP_toList, ← Array.countP_toList]
  induction s.handles.toList with
  | nil => rfl
  | cons h rest ih =>
      rw [List.length_cons, List.countP_cons, List.countP_cons, List.countP_cons, ih]
      have hone := h.one_kind
      omega

/-! ### Classes -/

/-- The classes that have a handle of this load status. -/
def held (s : Session) (loaded : Bool) : Finset Identity :=
  ((s.handles.toList.filter fun h => h.isLoaded = loaded).filterMap Handle.identity?).toFinset

theorem mem_held {id : Identity} {loaded : Bool} : id ∈ s.held loaded ↔ ∃ r, s.IsOf r id loaded := by
  simp only [held, List.mem_toFinset, List.mem_filterMap, List.mem_filter, Array.mem_toList_iff,
    decide_eq_true_eq]
  constructor
  · rintro ⟨h, ⟨hmem, hloaded⟩, hid⟩
    obtain ⟨i, hi, rfl⟩ := Array.mem_iff_getElem.mp hmem
    exact ⟨⟨s.number, i⟩, _, handle_eq_ok.mpr ⟨rfl, Array.getElem?_eq_getElem hi⟩, hid, hloaded⟩
  · rintro ⟨r, h, hr, hid, hloaded⟩
    exact ⟨h, ⟨Array.mem_of_getElem? (handle_eq_ok.mp hr).2, hloaded⟩, hid⟩

theorem held_push {new : Handle} (hhandles : s'.handles = s.handles.push new) (loaded : Bool) :
    s'.held loaded =
      if new.isLoaded = loaded then s.held loaded ∪ new.identity?.toFinset else s.held loaded := by
  simp only [held, hhandles, Array.toList_push, List.filter_append, List.filterMap_append,
    List.toFinset_append]
  by_cases hloaded : new.isLoaded = loaded
  · cases hid : new.identity? <;> simp [hloaded, hid]
  · simp [hloaded]

/-- A class that is not found as loaded has no loaded handle, so only the other can be found. -/
theorem Ordered.not_mem_held (h : s.Ordered) {id : Identity} (hnone : s.finalHandle? id = none) :
    id ∉ s.held true := by
  rw [mem_held]
  rintro ⟨r, hr⟩
  rw [h.finalHandle?_iff.mpr hr] at hnone
  cases hnone

theorem Ordered.mem_held_iff (h : s.Ordered) {id : Identity} (hnone : s.finalHandle? id = none) :
    id ∈ s.held false ↔ (s.cached? id).isSome = true := by
  rw [mem_held, Option.isSome_iff_exists]
  constructor
  · rintro ⟨r, hof⟩
    cases hcached : s.cached? id with
    | none => exact absurd hof (h.not_isOf hcached)
    | some best => exact ⟨best, rfl⟩
  · rintro ⟨r, hr⟩
    obtain ⟨loaded, hof⟩ := h.own hr
    cases loaded with
    | true => exact absurd (mem_held.mpr ⟨r, hof⟩) (h.not_mem_held hnone)
    | false => exact ⟨r, hof⟩

/-- The counters of the session are what its arena says. -/
structure Counts (s : Session) : Prop where
  /-- The handles that have been built are those of classes. -/
  built : s.stats.built = s.handles.countP fun h => h.identity?.isSome
  /-- The classes that have been superseded are those with two handles. -/
  superseded : s.stats.superseded = (s.held false ∩ s.held true).card

theorem Counts.start (number : Nat) (options : Options) : (start number options).Counts :=
  ⟨rfl, rfl⟩

/-- A handle of no class is not counted. -/
theorem Counts.push (h : s.Counts) {new : Handle} (hnew : new.identity? = none)
    (hhandles : s'.handles = s.handles.push new) (hstats : s'.stats = s.stats) : s'.Counts where
  built := by
    rw [hstats, hhandles, Array.countP_push, h.built]
    simp [hnew]
  superseded := by
    have hheld : ∀ loaded, s'.held loaded = s.held loaded := by
      intro loaded
      rw [held_push hhandles]
      simp [hnew]
    rw [hstats, hheld, hheld, h.superseded]

/-- The first handle of a class supersedes none, and the second is the loaded one. -/
theorem Counts.addClass (h : s.Counts) (hordered : s.Ordered) {id : Identity} {new : Handle}
    {r : HandleRef} (hid : new.identity? = some id) (hnone : s.finalHandle? id = none)
    (hs : s.addClass id new = .ok (r, s')) : s'.Counts := by
  obtain ⟨rfl, hs'⟩ := addClass_eq_ok hs
  have hhandles : s'.handles = s.handles.push new := by rw [hs']
  have hnot : id ∉ s.held true := hordered.not_mem_held hnone
  refine ⟨?_, ?_⟩
  · rw [hs', Array.countP_push, h.built, hid]
    rfl
  · have hstats : s'.stats.superseded = s.stats.superseded +
        if new.isLoaded = true ∧ (s.byIdentity.get? id).isSome = true then 1 else 0 := by rw [hs']
    cases hloaded : new.isLoaded with
    | false =>
        have hfalse : s'.held false = s.held false ∪ {id} := by simp [held_push hhandles, hloaded, hid]
        have htrue : s'.held true = s.held true := by simp [held_push hhandles, hloaded]
        rw [hstats, h.superseded, hfalse, htrue, if_neg (by simp [hloaded]), Nat.add_zero,
          Finset.union_inter_distrib_right, Finset.singleton_inter_of_notMem hnot, Finset.union_empty]
    | true =>
        have hfalse : s'.held false = s.held false := by simp [held_push hhandles, hloaded]
        have htrue : s'.held true = s.held true ∪ {id} := by simp [held_push hhandles, hloaded, hid]
        rw [hstats, h.superseded, hfalse, htrue, Finset.inter_union_distrib_left]
        by_cases hmem : id ∈ s.held false
        · have hfound := (hordered.mem_held_iff hnone).mp hmem
          rw [if_pos ⟨hloaded, hfound⟩, Finset.inter_singleton_of_mem hmem, Finset.union_comm,
            ← Finset.insert_eq, Finset.card_insert_of_notMem]
          exact fun h => hnot (Finset.mem_inter.mp h).2
        · have hmissing := mt (hordered.mem_held_iff hnone).mpr hmem
          rw [if_neg (fun h => hmissing h.2), Finset.inter_singleton_of_notMem hmem,
            Finset.union_empty, Nat.add_zero]

theorem Move.counts (hm : s.Move s') (hordered : s.Ordered) (h : s.Counts) : s'.Counts := by
  cases hm with
  | hit | scope | name => exact ⟨h.built, h.superseded⟩
  | ofClass hnone _ hcontent hs => exact h.addClass hordered (hcontent.identity? _ _) hnone hs
  | placeholder _ _ _ hs =>
      obtain ⟨rfl, rfl⟩ := addPlaceholder_eq_ok hs
      exact h.push rfl rfl rfl
  | primitive _ _ _ hs =>
      obtain ⟨rfl, rfl⟩ := addPrimitive_eq_ok hs
      exact h.push rfl rfl rfl

theorem Moves.counts {number : Nat} {options : Options} (h : (start number options).Moves s) :
    s.Counts := by
  induction h with
  | refl => exact .start number options
  | tail hmoves hmove ih => exact hmove.counts (Moves.keeps hmoves).1 ih

/-! ### Names -/

/-- The placeholders of the session are of these names, one of each. -/
structure PlaceholdersOf (s : Session) (names : List String) : Prop where
  /-- A name has a placeholder, and only one. -/
  unique : ∀ text ∈ names, ∃! r, s.IsPlaceholder r text
  /-- No other name has one. -/
  named : ∀ r text, s.IsPlaceholder r text → text ∈ names

theorem exists_lookup_iff {granted : List (String × BasicType)} {text : String} :
    (∃ hint, granted.lookup text = some hint) ↔ text ∈ granted.map Prod.fst := by
  rw [← Option.isSome_iff_exists, List.lookup_isSome_iff, List.mem_map]
  simp only [beq_iff_eq, @eq_comm _ text]

theorem Honours.placeholdersOf {granted : List (String × BasicType)} (h : s.Honours granted)
    (hordered : s.Ordered) (hlisted : s.Listed) (hshare : s.options.sharePlaceholders = true) :
    s.PlaceholdersOf (granted.map Prod.fst) where
  unique := fun text htext => by
    obtain ⟨hint, hgranted⟩ := exists_lookup_iff.mpr htext
    obtain ⟨r, hstands⟩ := h.stands hgranted
    refine ⟨r, hstands.isPlaceholder, fun r' hr' => ?_⟩
    obtain ⟨⟨hd, type, hr, hstate⟩, hname⟩ := hstands.isPlaceholder
    obtain ⟨⟨hd', type', hr', hstate'⟩, hname'⟩ := hr'
    exact (CacheLaws.of hordered hlisted).placeholder_once hshare hr' hr hstate' hstate hname' hname
  named := fun r text hr => by
    obtain ⟨⟨hd, hint, hr, hstate⟩, hname⟩ := hr
    obtain ⟨text', hstands, hgranted⟩ := h.bears hr hstate
    obtain rfl := Except.ok.inj (hname.symm.trans hstands.nameText)
    exact exists_lookup_iff.mp ⟨hint, hgranted⟩

/-- **The counters of a session are exact**, whatever it has been asked, failing requests included: of
what has been built, of what has been superseded, and of all handles.  Where placeholders are shared
there is one for each name whose request has ever gone well, and none besides. -/
theorem through_counts {σ : Type} [MetadataSource σ] (number : Nat) (options : Options)
    (steps : List (Heap σ × Request)) :
    let s := (start number options).through steps
    s.Counts ∧
      s.size = s.stats.built + s.handles.countP Handle.isPlaceholder
        + s.handles.countP Handle.isPrimitive ∧
      (options.sharePlaceholders = true →
        s.PlaceholdersOf (((start number options).granted steps).map Prod.fst)) := by
  intro s
  have hmoves := through_moves (start number options) steps
  have hcounts := hmoves.counts
  refine ⟨hcounts, ?_, fun hshare => ?_⟩
  · rw [hcounts.built]
    exact s.size_eq_countP
  · obtain ⟨hordered, hlisted⟩ := Moves.keeps hmoves
    have hhonours := (Honours.start number options).through .refl hshare steps
    exact hhonours.placeholdersOf hordered hlisted (by rw [hmoves.grows.options]; exact hshare)

end Session

end RuntimeTypes
