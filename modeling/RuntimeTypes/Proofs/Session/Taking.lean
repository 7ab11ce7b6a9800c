/-
What is taken over from a store.

The ancestry of a snapshot is taken over from a record, told to verify it or not, and this is
the only way to a snapshot.  So what holds of everything that is taken over, whatever record
the store has given, holds of all snapshots of a session.  Only building a handle
adds one; the other pieces of a query leave the arena as it is, or add a handle without a
snapshot.
-/
import RuntimeTypes.Proofs.Session.Cache
import RuntimeTypes.Proofs.Session.Walk

namespace RuntimeTypes

/-- Whatever record is taken over, verified or not, `P` holds of the snapshot. -/
def Snapshot.OfRecords (P : Bool → Snapshot → Prop) : Prop :=
  ∀ (record : AncestryRecord) (c : Snapshot) (name : String) (verify : Bool),
    Ancestry.ofRecord record c.identity name verify = .ok c.ancestry → P verify c

variable {P : Bool → Snapshot → Prop}

namespace Session

variable {s s' : Session}

/-- `P` holds of all snapshots of the session, verified or not as the options say. -/
def HoldsOnly (P : Bool → Snapshot → Prop) (s : Session) : Prop :=
  ∀ r c, s.Holds r c → P s.options.verifyRecords c

theorem holdsOnly_start (number : Nat) (options : Options) : (start number options).HoldsOnly P := by
  rintro r c ⟨h, hr, -⟩
  exact absurd (index_lt_size hr) (Nat.not_lt_zero _)

theorem HoldsOnly.of_same (h : s.HoldsOnly P) (hoptions : s'.options = s.options)
    (hnumber : s'.number = s.number) (hhandles : s'.handles = s.handles) : s'.HoldsOnly P := by
  rintro r c ⟨hd, hr, hc⟩
  rw [handle_eq_ok, hnumber, hhandles, ← handle_eq_ok] at hr
  rw [hoptions]
  exact h r c ⟨hd, hr, hc⟩

/-- There is one handle more. -/
theorem HoldsOnly.push (h : s.HoldsOnly P) {new : Handle} (hoptions : s'.options = s.options)
    (hnumber : s'.number = s.number) (hhandles : s'.handles = s.handles.push new)
    (hnew : ∀ c, new.state = .loaded c → P s.options.verifyRecords c) : s'.HoldsOnly P := by
  rintro r c ⟨hd, hr, hc⟩
  rw [hoptions]
  rcases (handle_push hnumber hhandles).mp hr with hr | ⟨-, rfl⟩
  · exact h r c ⟨hd, hr, hc⟩
  · exact hnew c hc

end Session

namespace Query

variable {σ : Type} {w : Workspace σ}

/-- The options stay, and so does that `P` holds of all snapshots. -/
def StaysOnly (P : Bool → Snapshot → Prop) (w w' : Workspace σ) : Prop :=
  w'.session.options = w.session.options ∧ (w.session.HoldsOnly P → w'.session.HoldsOnly P)

theorem StaysOnly.refl (w : Workspace σ) : StaysOnly P w w := ⟨rfl, id⟩

theorem StaysOnly.trans {w' w'' : Workspace σ} (h : StaysOnly P w w') (h' : StaysOnly P w' w'') :
    StaysOnly P w w'' :=
  ⟨h'.1.trans h.1, h'.2 ∘ h.2⟩

/-- What a store answers is not the session's. -/
theorem read_staysOnly {α : Type} (r : Read σ α) : Along (StaysOnly P) (read r) w :=
  ends_read (fun _ _ _ => ⟨rfl, id⟩) fun _ _ _ => ⟨rfl, id⟩

theorem met_staysOnly (text : String) (w : Workspace σ) :
    StaysOnly P w { w with session := w.session.met text } :=
  ⟨rfl, fun h => h.of_same rfl rfl rfl⟩

variable [MetadataSource σ]

/-- A snapshot is taken over from a record, as the options say. -/
theorem snapshot_ofRecords (hP : Snapshot.OfRecords P) (id : Identity) (name : String) :
    Ends (snapshot id name) w
      (fun c w' => w'.session = w.session ∧ P w.session.options.verifyRecords c)
      fun _ w' => w'.session = w.session := by
  refine (ends_snapshot id name).mono ?_ fun _ _ h => h.1
  rintro c w' ⟨hsame, rfl, record, htaken⟩
  exact ⟨hsame, hP record c name _ htaken⟩

omit [MetadataSource σ] in
theorem addClass_staysOnly {id : Identity} {new : Handle}
    (hnew : ∀ c, new.state = .loaded c → P w.session.options.verifyRecords c) :
    Along (StaysOnly P) (learn fun s => s.addClass id new) w := by
  refine ends_learn (fun r s hs => ?_) fun _ _ => StaysOnly.refl w
  obtain ⟨rfl, rfl⟩ := Session.addClass_eq_ok hs
  exact ⟨rfl, fun h => h.push rfl rfl rfl hnew⟩

theorem build_staysOnly (hP : Snapshot.OfRecords P) (id : Identity) (state : LoadStatus)
    (w : Workspace σ) : Along (StaysOnly P) (build id state) w := by
  refine Ends.bind (read_staysOnly _) (fun text w₁ h₁ => ?_) fun _ _ h => h
  have hintern : Along (StaysOnly P) (intern text) w₁ :=
    ends_intern (fun _ => met_staysOnly text w₁) fun _ _ => .refl w₁
  refine Ends.bind hintern (fun name w₂ h₂ => ?_) fun _ _ h => h₁.trans h
  have hthen : StaysOnly P w w₂ := h₁.trans h₂
  cases state with
  | unloaded =>
      have hadded : Along (StaysOnly P) (learn fun s => s.addClass id
          { name := name
            externalName := externalName text
            state := .unloaded (some id) (BasicType.ofInternalName text) }) w₂ :=
        addClass_staysOnly nofun
      exact Ends.mono hadded (fun _ _ h => hthen.trans h) fun _ _ h => hthen.trans h
  | loaded =>
      have hcontent : Ends (HandleState.loaded <$> snapshot id text) w₂
          (fun content w' => w'.session = w₂.session ∧ ∃ c, content = .loaded c ∧
            P w₂.session.options.verifyRecords c)
          fun _ w' => w'.session = w₂.session :=
        Ends.map ((snapshot_ofRecords hP id text).mono (fun c _ h => ⟨h.1, c, rfl, h.2⟩)
          fun _ _ h => h)
      have hsame : ∀ w' : Workspace σ, w'.session = w₂.session → StaysOnly P w w' := by
        intro w' h
        obtain ⟨hoptions, honly⟩ := hthen
        rw [← h] at hoptions honly
        exact ⟨hoptions, honly⟩
      refine hcontent.bind ?_ fun _ w' h => hsame w' h
      rintro content w₃ ⟨h₃, c, rfl, hc⟩
      refine Ends.mono (addClass_staysOnly ?_) (fun _ _ h => (hsame w₃ h₃).trans h)
        fun _ _ h => (hsame w₃ h₃).trans h
      intro c' hc'
      obtain rfl := HandleState.loaded.inj hc'
      exact h₃ ▸ hc

theorem pieces_staysOnly (hP : Snapshot.OfRecords P) : Pieces (σ := σ) (StaysOnly P) where
  refl := StaysOnly.refl
  trans := StaysOnly.trans
  countHit := fun _ => ⟨rfl, fun h => h.of_same rfl rfl rfl⟩
  entered := fun _ _ => ⟨rfl, fun h => h.of_same rfl rfl rfl⟩
  left := fun _ => ⟨rfl, id⟩
  met := met_staysOnly
  loadStatus := fun _ _ => read_staysOnly _
  find? := fun _ _ _ => read_staysOnly _
  build := build_staysOnly hP
  placeholder := fun h w r s hnew hs => by
    obtain ⟨rfl, rfl⟩ := Session.addPlaceholder_eq_ok hs
    exact ⟨rfl, fun ho => ho.push rfl rfl rfl fun c hc => absurd hc (Handle.state_ne_loaded hnew c)⟩
  primitive := fun type h w r s hstate hs => by
    have hnew := Handle.identity?_primitive hstate
    obtain ⟨rfl, rfl⟩ := Session.addPrimitive_eq_ok hs
    exact ⟨rfl, fun ho => ho.push rfl rfl rfl fun c hc => absurd hc (Handle.state_ne_loaded hnew c)⟩

end Query

namespace Session

/-- **Whatever a session holds has been taken over from records**, whatever it has been asked. -/
theorem HoldsOnly.through {σ : Type} [MetadataSource σ] {s : Session} (hP : Snapshot.OfRecords P)
    (h : s.HoldsOnly P) (steps : List (Heap σ × Request)) :
    (s.through steps).options = s.options ∧ (s.through steps).HoldsOnly P := by
  induction steps generalizing s with
  | nil => exact ⟨rfl, h⟩
  | cons step steps ih =>
      obtain ⟨hoptions, honly⟩ : Query.StaysOnly P { session := s, heap := step.1 }
          (Workspace.serve { session := s, heap := step.1 } step.2).2 :=
        Workspace.serve_of_ends ((Query.pieces_staysOnly hP).request step.2)
      obtain ⟨hoptions', honly'⟩ := ih (honly h)
      exact ⟨hoptions'.trans hoptions, honly'⟩

end Session

end RuntimeTypes
