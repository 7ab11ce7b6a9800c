/-
What holds of a session whatever it has been asked.

`Faithful` says that the index by identity and the arena fit together, and that each
snapshot is of the body that loading gave its class.  So a class has at most one loaded
handle in a session, and `finalHandle?` finds it.  The archive stands for all the bodies
there have ever been, as a snapshot outlives its class.

`Learns` is what any request does to a session: handles stay where they are, and the
session is faithful still.
-/
import RuntimeTypes.Session.Basic
import RuntimeTypes.Proofs.Archive
import RuntimeTypes.Proofs.RecordChecks

namespace RuntimeTypes

/-- A snapshot says of a class what loading gave it. -/
structure Snapshot.TrueTo (c : Snapshot) (b : ClassBody) : Prop where
  shape : c.shape = b.shape
  flags : c.flags = b.flags
  layout : c.layout = b.layout
  ancestry : ∃ name verify, Ancestry.ofRecord b.ancestry c.identity name verify = .ok c.ancestry

namespace Snapshot.TrueTo

variable {c : Snapshot} {b : ClassBody}

theorem shows (h : c.TrueTo b) : c.ancestry.Shows b.ancestry := by
  obtain ⟨name, verify, h⟩ := h.ancestry
  exact (Ancestry.ofRecord_eq_ok_iff.mp h).2.1

theorem chain (h : c.TrueTo b) : c.ancestry.chain = b.ancestry.chain := h.shows.chain

theorem secondary (h : c.TrueTo b) : c.ancestry.secondary = b.ancestry.secondary :=
  h.shows.secondary

theorem ownsSlot (h : c.TrueTo b) : c.ancestry.ownsSlot = b.ancestry.ownsSlot := h.shows.ownsSlot

theorem displayLength (h : c.TrueTo b) :
    c.ancestry.displayLength = min b.ancestry.chain.length b.ancestry.capacity :=
  h.shows.displayLength

theorem checkTarget (h : c.TrueTo b) :
    CheckTarget.decode? b.ancestry.checkOffset = some c.ancestry.checkTarget :=
  h.shows.checkTarget

end Snapshot.TrueTo

theorem Handle.identity?_loaded {h : Handle} {c : Snapshot} (hc : h.state = .loaded c) :
    h.identity? = some c.identity := by
  simp [identity?, hc]

theorem Handle.identity?_primitive {h : Handle} {type : BasicType} (hp : h.state = .primitive type) :
    h.identity? = none := by
  simp [identity?, hp]

theorem Handle.state_ne_loaded {h : Handle} (hnone : h.identity? = none) (c : Snapshot) :
    h.state ≠ .loaded c := by
  intro hc
  rw [identity?_loaded hc] at hnone
  cases hnone

theorem Handle.isLoaded_of_state {h : Handle} {c : Snapshot} (hc : h.state = .loaded c) :
    h.isLoaded = true := by
  simp [isLoaded, hc]

theorem Handle.exists_snapshot {h : Handle} {id : Identity} (hid : h.identity? = some id)
    (hl : h.isLoaded = true) : ∃ c, h.state = .loaded c ∧ c.identity = id := by
  cases hs : h.state with
  | loaded c => exact ⟨c, rfl, by simpa [identity?, hs] using hid⟩
  | unloaded identity? type => simp [isLoaded, hs] at hl
  | primitive type => simp [identity?, hs] at hid

namespace Session

/-- The session holds a reference as a loaded class, with this snapshot. -/
def Holds (s : Session) (r : HandleRef) (c : Snapshot) : Prop :=
  ∃ h, s.handle r = .ok h ∧ h.state = .loaded c

theorem Holds.snapshot {s : Session} {r : HandleRef} {c : Snapshot} (h : s.Holds r c)
    (operation : String) : s.snapshot r operation = .ok c := by
  obtain ⟨handle, hr, hc⟩ := h
  simp [Session.snapshot, hr, Handle.loaded, hc, bind, Except.bind]

theorem holds_of_snapshot {s : Session} {r : HandleRef} {operation : String} {c : Snapshot}
    (h : s.snapshot r operation = .ok c) : s.Holds r c := by
  unfold snapshot at h
  cases hr : s.handle r with
  | error e => simp [hr, bind, Except.bind] at h
  | ok hd =>
      simp only [hr, bind, Except.bind, Handle.loaded] at h
      split at h
      · rename_i c' hc
        obtain rfl := Except.ok.inj h
        exact ⟨hd, hr, hc⟩
      · cases h
      · cases h

theorem Holds.inj {s : Session} {r : HandleRef} {c c' : Snapshot} (h : s.Holds r c)
    (h' : s.Holds r c') : c = c' :=
  Except.ok.inj ((h.snapshot "").symm.trans (h'.snapshot ""))

/-- Index, arena and archive fit together. -/
structure Faithful (s : Session) (A : Archive) : Prop where
  /-- The handle that an identity leads to is one of that identity. -/
  own : ∀ id r, s.byIdentity.get? id = some r →
    r.session = s.number ∧ ∃ h, s.handles[r.index]? = some h ∧ h.identity? = some id
  /-- The identity of a loaded handle leads to that handle. -/
  best : ∀ (i : Nat) (h : Handle) (c : Snapshot), s.handles[i]? = some h → h.state = .loaded c →
    s.byIdentity.get? c.identity = some ⟨s.number, i⟩
  taken : ∀ (i : Nat) (h : Handle) (c : Snapshot), s.handles[i]? = some h → h.state = .loaded c →
    ∃ b, A c.identity = some b ∧ c.TrueTo b

namespace Faithful

variable {s : Session} {A : Archive}

theorem start (number : Nat) (options : Options) (A : Archive) :
    (Session.start number options).Faithful A where
  own := nofun
  best := by simp [Session.start]
  taken := by simp [Session.start]

theorem mono {B : Archive} (h : s.Faithful A) (hAB : Archive.Within A B) : s.Faithful B where
  own := h.own
  best := h.best
  taken := fun i hd c hi hc => by
    obtain ⟨b, hb, ht⟩ := h.taken i hd c hi hc
    exact ⟨b, hAB _ b hb, ht⟩

/-- Counters, names and the other indexes do not matter. -/
theorem of_same {s' : Session} (h : s.Faithful A) (hnumber : s'.number = s.number)
    (hhandles : s'.handles = s.handles) (hindex : s'.byIdentity = s.byIdentity) :
    s'.Faithful A where
  own := by rw [hnumber, hhandles, hindex]; exact h.own
  best := by rw [hnumber, hhandles, hindex]; exact h.best
  taken := by rw [hhandles]; exact h.taken

theorem trueTo (h : s.Faithful A) {r : HandleRef} {c : Snapshot} (hr : s.Holds r c) :
    ∃ b, A c.identity = some b ∧ c.TrueTo b := by
  obtain ⟨hd, hr, hc⟩ := hr
  exact h.taken _ hd c (handle_eq_ok.mp hr).2 hc

theorem get?_of_holds (h : s.Faithful A) {r : HandleRef} {c : Snapshot} (hr : s.Holds r c) :
    s.byIdentity.get? c.identity = some r := by
  obtain ⟨hd, hr, hc⟩ := hr
  obtain ⟨hnumber, hi⟩ := handle_eq_ok.mp hr
  rw [h.best _ hd c hi hc, ← hnumber]

/-- **A class has at most one loaded handle** in a session. -/
theorem ref_inj (h : s.Faithful A) {r r' : HandleRef} {c c' : Snapshot} (hr : s.Holds r c)
    (hr' : s.Holds r' c') (hid : c.identity = c'.identity) : r = r' :=
  Option.some.inj ((h.get?_of_holds hr).symm.trans (hid ▸ h.get?_of_holds hr'))

theorem finalHandle?_eq_some (h : s.Faithful A) {id : Identity} {r : HandleRef} :
    s.finalHandle? id = some r ↔ ∃ c, s.Holds r c ∧ c.identity = id := by
  unfold finalHandle?
  rw [Option.filter_eq_some_iff]
  constructor
  · rintro ⟨hr, hloaded⟩
    obtain ⟨hnumber, hd, hi, hid⟩ := h.own id r hr
    obtain ⟨c, hc, hcid⟩ := Handle.exists_snapshot hid (by simpa [hi] using hloaded)
    exact ⟨c, ⟨hd, handle_eq_ok.mpr ⟨hnumber, hi⟩, hc⟩, hcid⟩
  · rintro ⟨c, hr, rfl⟩
    refine ⟨h.get?_of_holds hr, ?_⟩
    obtain ⟨hd, hr, hc⟩ := hr
    simp [(handle_eq_ok.mp hr).2, Handle.isLoaded_of_state hc]

end Faithful

/-! ### Learning -/

/-- A session after it has learnt something. -/
structure Learns (A : Archive) (s s' : Session) : Prop where
  number : s'.number = s.number
  options : s'.options = s.options
  kept : ∀ (i : Nat) (h : Handle), s.handles[i]? = some h → s'.handles[i]? = some h
  faithful : s'.Faithful A

variable {A : Archive} {s s' : Session}

theorem Learns.refl (h : s.Faithful A) : Learns A s s := ⟨rfl, rfl, fun _ _ h => h, h⟩

theorem Learns.trans {s'' : Session} (h : Learns A s s') (h' : Learns A s' s'') :
    Learns A s s'' where
  number := h'.number.trans h.number
  options := h'.options.trans h.options
  kept := fun i hd hi => h'.kept i hd (h.kept i hd hi)
  faithful := h'.faithful

theorem Learns.of_same (h : s.Faithful A) (hnumber : s'.number = s.number)
    (hoptions : s'.options = s.options) (hhandles : s'.handles = s.handles)
    (hindex : s'.byIdentity = s.byIdentity) : Learns A s s' :=
  ⟨hnumber, hoptions, fun i hd hi => by rw [hhandles, hi],
    h.of_same hnumber hhandles hindex⟩

theorem Holds.later {r : HandleRef} {c : Snapshot} (hr : s.Holds r c) (h : Learns A s s') :
    s'.Holds r c := by
  obtain ⟨hd, hr, hc⟩ := hr
  obtain ⟨hnumber, hi⟩ := handle_eq_ok.mp hr
  exact ⟨hd, handle_eq_ok.mpr ⟨hnumber.trans h.number.symm, h.kept _ hd hi⟩, hc⟩

theorem Faithful.met (h : s.Faithful A) (text : String) : Learns A s (s.met text) :=
  .of_same h rfl rfl rfl rfl

theorem getElem?_push_kept {handles : Array Handle} {i : Nat} {h : Handle}
    (hi : handles[i]? = some h) (new : Handle) : (handles.push new)[i]? = some h := by
  rw [Array.getElem?_push, if_neg, hi]
  rintro rfl
  simp at hi

/-- A handle that is not of a loaded class, under whatever name or type. -/
theorem Faithful.push (h : s.Faithful A) {new : Handle} (hnew : ∀ c, new.state ≠ .loaded c)
    (hnumber : s'.number = s.number) (hoptions : s'.options = s.options)
    (hhandles : s'.handles = s.handles.push new) (hindex : s'.byIdentity = s.byIdentity) :
    Learns A s s' where
  number := hnumber
  options := hoptions
  kept := fun i hd hi => by rw [hhandles]; exact getElem?_push_kept hi new
  faithful :=
    { own := by
        intro id r hr
        rw [hindex] at hr
        obtain ⟨hown, hd, hi, hid⟩ := h.own id r hr
        refine ⟨hown.trans hnumber.symm, hd, ?_, hid⟩
        rw [hhandles]
        exact getElem?_push_kept hi new
      best := by
        intro i hd c hi hc
        rw [hhandles, Array.getElem?_push] at hi
        split at hi
        · obtain rfl := Option.some.inj hi
          exact absurd hc (hnew c)
        · rw [hindex, hnumber]
          exact h.best i hd c hi hc
      taken := by
        intro i hd c hi hc
        rw [hhandles, Array.getElem?_push] at hi
        split at hi
        · obtain rfl := Option.some.inj hi
          exact absurd hc (hnew c)
        · exact h.taken i hd c hi hc }

theorem Faithful.addPlaceholder (h : s.Faithful A) {new : Handle} {r : HandleRef}
    (hnew : ∀ c, new.state ≠ .loaded c) (hs : s.addPlaceholder new = .ok (r, s')) :
    Learns A s s' := by
  obtain ⟨rfl, rfl⟩ := addPlaceholder_eq_ok hs
  exact h.push hnew rfl rfl rfl rfl

theorem Faithful.addPrimitive (h : s.Faithful A) {type : BasicType} {new : Handle} {r : HandleRef}
    (hnew : ∀ c, new.state ≠ .loaded c) (hs : s.addPrimitive type new = .ok (r, s')) :
    Learns A s s' := by
  obtain ⟨rfl, rfl⟩ := addPrimitive_eq_ok hs
  exact h.push hnew rfl rfl rfl rfl

/-- A class that has no loaded handle yet gets a handle, loaded or not. -/
theorem Faithful.addClass (h : s.Faithful A) {id : Identity} {new : Handle} {r : HandleRef}
    (hnone : s.finalHandle? id = none) (hid : new.identity? = some id)
    (hnew : ∀ c, new.state = .loaded c → ∃ b, A c.identity = some b ∧ c.TrueTo b)
    (hs : s.addClass id new = .ok (r, s')) : Learns A s s' ∧ s'.handle r = .ok new := by
  obtain ⟨rfl, hs'⟩ := addClass_eq_ok hs
  have hnumber : s'.number = s.number := by rw [hs']
  have hoptions : s'.options = s.options := by rw [hs']
  have hhandles : s'.handles = s.handles.push new := by rw [hs']
  have hindex : s'.byIdentity = s.byIdentity.insert id ⟨s.number, s.handles.size⟩ := by rw [hs']
  have hlast : s'.handles[s.handles.size]? = some new := by rw [hhandles]; simp
  -- The loaded handles so far are of other classes.
  have hother : ∀ (i : Nat) (hd : Handle) (c : Snapshot), s.handles[i]? = some hd →
      hd.state = .loaded c → id ≠ c.identity := by
    rintro i hd c hi hc rfl
    have hheld : s.Holds ⟨s.number, i⟩ c := ⟨hd, handle_eq_ok.mpr ⟨rfl, hi⟩, hc⟩
    rw [h.finalHandle?_eq_some.mpr ⟨c, hheld, rfl⟩] at hnone
    cases hnone
  refine ⟨⟨hnumber, hoptions, fun i hd hi => by rw [hhandles]; exact getElem?_push_kept hi new,
    ?_⟩, handle_eq_ok.mpr ⟨hnumber.symm, hlast⟩⟩
  refine ⟨?_, ?_, ?_⟩
  · intro id' r' hr'
    rw [hindex, Index.get?_insert] at hr'
    split at hr'
    · rename_i he
      obtain rfl := Option.some.inj hr'
      exact ⟨hnumber.symm, new, hlast, he ▸ hid⟩
    · obtain ⟨hown, hd, hi, hid'⟩ := h.own id' r' hr'
      refine ⟨hown.trans hnumber.symm, hd, ?_, hid'⟩
      rw [hhandles]
      exact getElem?_push_kept hi new
  · intro i hd c hi hc
    rw [hhandles, Array.getElem?_push] at hi
    rw [hindex, Index.get?_insert, hnumber]
    split at hi
    · rename_i hsize
      obtain rfl := Option.some.inj hi
      rw [Handle.identity?_loaded hc] at hid
      rw [if_pos (Option.some.inj hid).symm, hsize]
    · rw [if_neg (hother i hd c hi hc)]
      exact h.best i hd c hi hc
  · intro i hd c hi hc
    rw [hhandles, Array.getElem?_push] at hi
    split at hi
    · obtain rfl := Option.some.inj hi
      exact hnew c hc
    · exact h.taken i hd c hi hc

end Session

end RuntimeTypes
