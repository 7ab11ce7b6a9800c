/-
Placeholders: handles of names that no class object is known to have.

A name gets a placeholder where one is asked for, or where a search for the name has missed
it.  `granted` lists those requests of a history that went well, and what each wanted its name
to be taken for.  No other request adds a placeholder: it stays `Apart`.

Where placeholders are shared, a name has one, and the first request for it has decided what
it is taken for.  Later requests are handed the same placeholder whatever they ask for, so
`Honours` looks up the first entry of a name in the list and needs no other.
-/
import RuntimeTypes.Proofs.Session.Failures
import RuntimeTypes.Proofs.Session.Walk

namespace RuntimeTypes

/-! ### Requests for placeholders -/

section

variable {σ : Type} [MetadataSource σ]

/-- The placeholder that a request comes to ask for, if it does: a name, and what to take it for. -/
def Request.placeholderAsked? (w : Workspace σ) : Request → Option (String × BasicType)
  | .placeholder text hint => some (text, hint)
  | .findOrPlaceholder origin text =>
    match Query.find origin text w with
    | .error (.notFound _) _ => some (text, BasicType.ofInternalName text)
    | _ => none
  | _ => none

/-- The placeholder that a request has asked for and got. -/
def Workspace.granted? (w : Workspace σ) (request : Request) : Option (String × BasicType) :=
  if (w.serve request).1.isOk then request.placeholderAsked? w else none

/-- The placeholders that a list of requests has asked for and got, in order. -/
def Session.granted (s : Session) : List (Heap σ × Request) → List (String × BasicType)
  | [] => []
  | (heap, request) :: steps =>
    (Workspace.granted? ⟨s, heap⟩ request).toList
      ++ (Workspace.serve ⟨s, heap⟩ request).2.session.granted steps

end

namespace Session

variable {s s' s'' : Session} {r : HandleRef} {text : String} {hint : BasicType}

/-! ### What a placeholder is -/

theorem nameText_eq {h : Handle} (hr : s.handle r = .ok h) (htext : s.names.text? h.name = some text) :
    s.nameText r = .ok text := by
  simp [nameText, hr, htext, bind, Except.bind]

/-- The handle stands for a name that no class object is known to have. -/
def IsPlaceholder (s : Session) (r : HandleRef) (text : String) : Prop :=
  (∃ h hint, s.handle r = .ok h ∧ h.state = .unloaded none hint) ∧ s.nameText r = .ok text

/-- The handle is the placeholder of a name, as it is built for one who takes the name for this. -/
def StandsFor (s : Session) (r : HandleRef) (text : String) (type : BasicType) : Prop :=
  ∃ name, s.names.find? text = some name ∧ s.handle r =
    .ok { name := name, externalName := externalName text, state := .unloaded none type }

theorem StandsFor.nameText (h : s.StandsFor r text hint) : s.nameText r = .ok text := by
  obtain ⟨name, hname, hr⟩ := h
  exact nameText_eq hr (NameTable.text?_of_find? hname)

theorem StandsFor.isPlaceholder (h : s.StandsFor r text hint) : s.IsPlaceholder r text := by
  have htext := h.nameText
  obtain ⟨name, -, hr⟩ := h
  exact ⟨⟨_, hint, hr, rfl⟩, htext⟩

/-- What a name shares as its placeholder is a placeholder, and of that name. -/
def SharesPlaceholders (s : Session) : Prop :=
  ∀ name r, s.placeholders.get? name = some r →
    ∃ h hint, s.handle r = .ok h ∧ h.name = name ∧ h.state = .unloaded none hint

/-- A new handle does not matter, unless it is shared itself. -/
theorem SharesPlaceholders.push (h : s.SharesPlaceholders) {new : Handle}
    (hnumber : s'.number = s.number) (hhandles : s'.handles = s.handles.push new)
    (hshared : ∀ name r, s'.placeholders.get? name = some r → s.placeholders.get? name = some r ∨
      r = ⟨s.number, s.handles.size⟩ ∧ new.name = name ∧ ∃ hint, new.state = .unloaded none hint) :
    s'.SharesPlaceholders := by
  intro name r hr
  rcases hshared name r hr with hr | ⟨rfl, hname, hint, hstate⟩
  · obtain ⟨hd, hint, hhandle, hof⟩ := h name r hr
    exact ⟨hd, hint, (handle_push hnumber hhandles).mpr (.inl hhandle), hof⟩
  · exact ⟨new, hint, (handle_push hnumber hhandles).mpr (.inr ⟨rfl, rfl⟩), hname, hstate⟩

theorem Move.sharesPlaceholders (hm : s.Move s') (h : s.SharesPlaceholders) :
    s'.SharesPlaceholders := by
  cases hm with
  | hit | scope | name => exact h
  | ofClass _ _ _ hs =>
      obtain ⟨rfl, rfl⟩ := addClass_eq_ok hs
      exact h.push rfl rfl fun _ _ hr => .inl hr
  | @placeholder text name hint r s' _ _ _ hs =>
      obtain ⟨rfl, rfl⟩ := addPlaceholder_eq_ok hs
      refine h.push rfl rfl fun other r hr => ?_
      by_cases hshare : s.options.sharePlaceholders = true
      · rw [if_pos hshare, Index.get?_insert] at hr
        split at hr
        · rename_i hname
          exact .inr ⟨(Option.some.inj hr).symm, hname, hint, rfl⟩
        · exact .inl hr
      · rw [if_neg hshare] at hr
        exact .inl hr
  | primitive _ _ _ hs =>
      obtain ⟨rfl, rfl⟩ := addPrimitive_eq_ok hs
      exact h.push rfl rfl fun _ _ hr => .inl hr

theorem Moves.sharesPlaceholders {number : Nat} {options : Options}
    (h : (start number options).Moves s) : s.SharesPlaceholders := by
  induction h with
  | refl => exact nofun
  | tail _ hmove ih => exact hmove.sharesPlaceholders ih

/-! ### Without a further placeholder -/

/-- The session has gone on, and no placeholder has been added to it. -/
structure Apart (s s' : Session) : Prop where
  grows : s.Grows s'
  /-- Names keep their numbers. -/
  names : ∀ {text name}, s.names.find? text = some name → s'.names.find? text = some name
  /-- A placeholder has been there before. -/
  old : ∀ {r h hint}, s'.handle r = .ok h → h.state = .unloaded none hint → s.handle r = .ok h

theorem Apart.refl (s : Session) : s.Apart s := ⟨.refl s, id, fun hr _ => hr⟩

theorem Apart.trans (h : s.Apart s') (h' : s'.Apart s'') : s.Apart s'' :=
  ⟨h.grows.trans h'.grows, fun hname => h'.names (h.names hname), fun hr hp => h.old (h'.old hr hp) hp⟩

theorem Apart.met (s : Session) (text : String) : s.Apart (s.met text) :=
  ⟨⟨Nat.le_refl _, id, rfl⟩, fun hname => NameTable.find?_intern_of_find? hname text,
    fun hr _ => hr⟩

/-- A handle of another kind does not matter. -/
theorem Apart.push {new : Handle} (hnumber : s'.number = s.number)
    (hhandles : s'.handles = s.handles.push new) (hoptions : s'.options = s.options)
    (hnames : s'.names = s.names) (hnew : ∀ hint, new.state ≠ .unloaded none hint) : s.Apart s' := by
  refine ⟨.of_push hnumber hhandles hoptions, fun hname => hnames ▸ hname, fun hr hp => ?_⟩
  rcases (handle_push hnumber hhandles).mp hr with hr | ⟨-, rfl⟩
  · exact hr
  · exact absurd hp (hnew _)

theorem StandsFor.later (h : s.StandsFor r text hint) (hg : s.Grows s')
    (hnames : ∀ {text name}, s.names.find? text = some name → s'.names.find? text = some name) :
    s'.StandsFor r text hint := by
  obtain ⟨name, hname, hr⟩ := h
  exact ⟨name, hnames hname, hg.kept hr⟩

end Session

namespace Query

open Session

variable {σ : Type} [MetadataSource σ] {w : Workspace σ}

/-- Of the workspace only the session matters. -/
abbrev StaysApart (w w' : Workspace σ) : Prop := w.session.Apart w'.session

omit [MetadataSource σ] in
theorem read_apart {α : Type} (r : Read σ α) : Along StaysApart (read r) w :=
  ends_read (fun _ _ _ => .refl _) fun _ _ _ => .refl _

omit [MetadataSource σ] in
theorem addClass_apart {new : Handle} (id : Identity) (hnew : ∀ hint, new.state ≠ .unloaded none hint) :
    Along StaysApart (learn fun s => s.addClass id new) w := by
  refine ends_learn (fun r s hs => ?_) fun _ _ => .refl _
  obtain ⟨-, rfl⟩ := addClass_eq_ok hs
  exact .push rfl rfl rfl rfl hnew

theorem build_apart (id : Identity) (state : LoadStatus) : Along StaysApart (build id state) w := by
  refine Ends.bind (read_apart _) (fun text w₁ h₁ => ?_) fun _ _ h₁ => h₁
  have hintern : Along StaysApart (intern text) w₁ :=
    ends_intern (fun _ => .met w₁.session text) fun _ _ => .refl _
  refine Ends.bind hintern (fun name w₂ hmet => ?_) fun _ _ h => h₁.trans h
  have h₂ : StaysApart w w₂ := h₁.trans hmet
  cases state with
  | loaded =>
      have hcontent : Ends (HandleState.loaded <$> snapshot id text) w₂
          (fun content w₃ => w₃.session = w₂.session ∧ ∃ c, content = .loaded c)
          fun _ w₃ => w₃.session = w₂.session :=
        Ends.map (Ends.mono (snapshot_still (F := fun _ => True) id text fun _ => trivial)
          (fun c _ h => ⟨h, c, rfl⟩) fun _ _ h => h.1)
      have hsame : ∀ w₃ : Workspace σ, w₃.session = w₂.session → StaysApart w w₃ :=
        fun _ h₃ => h₂.trans (h₃.symm ▸ .refl _)
      refine hcontent.bind ?_ fun _ w₃ => hsame w₃
      rintro content w₃ ⟨h₃, c, rfl⟩
      exact Ends.mono (addClass_apart id nofun) (fun _ _ h => (hsame w₃ h₃).trans h)
        fun _ _ h => (hsame w₃ h₃).trans h
  | unloaded =>
      exact Ends.mono (addClass_apart id nofun) (fun _ _ h => h₂.trans h) fun _ _ h => h₂.trans h

theorem pieces_apart : CommonPieces (StaysApart (σ := σ)) where
  refl := fun w => .refl w.session
  trans := Apart.trans
  countHit := fun w => ⟨⟨Nat.le_refl _, id, rfl⟩, id, fun hr _ => hr⟩
  entered := fun w gate => ⟨⟨Nat.le_refl _, id, rfl⟩, id, fun hr _ => hr⟩
  left := fun w => .refl w.session
  met := fun text w => .met w.session text
  loadStatus := fun _ _ => read_apart _
  find? := fun _ _ _ => read_apart _
  build := fun id state _ => build_apart id state
  primitive := fun type h w r s hstate hs => by
    obtain ⟨rfl, rfl⟩ := addPrimitive_eq_ok hs
    exact .push rfl rfl rfl rfl fun hint hp => by cases hstate.symm.trans hp

end Query

/-! ### The answer to such a request -/

namespace Session

variable {s s' : Session} {r : HandleRef} {text : String} {hint : BasicType}

/-- A session that has met the name yields a placeholder of it. -/
inductive Grants (s : Session) (text : String) (hint : BasicType) (r : HandleRef) : Session → Prop
  /-- The placeholder that the name has already. -/
  | shared {name : NameId} : s.names.find? text = some name → s.options.sharePlaceholders = true →
      s.placeholders.get? name = some r → Grants s text hint r s
  /-- A new one. -/
  | fresh {name : NameId} {s' : Session} : s.names.find? text = some name →
      (s.options.sharePlaceholders = true → s.placeholders.get? name = none) →
      s.addPlaceholder
          { name := name, externalName := externalName text, state := .unloaded none hint }
        = .ok (r, s') → Grants s text hint r s'

end Session

namespace Query

open Session

variable {σ : Type} {w : Workspace σ}

/-- Only for want of room does a session not grant what is a reference type. -/
theorem placeholder_ends (text : String) (hint : BasicType) : Ends (placeholder text hint) w
    (fun r w' => w.session.Move (w.session.met text) ∧
      (w.session.met text).Grants text hint r w'.session)
    fun e w' => w.session.Apart w'.session ∧
      (hint.isReference = true → w.session.RunsOut text e) := by
  unfold placeholder
  split
  · have hname : (w.session.met text).names.find? text = some (w.session.names.intern text).1 :=
      NameTable.find?_intern w.session.names text
    have hintern : Ends (intern text) w (fun name w₁ => name = (w.session.names.intern text).1 ∧
          w.session.Move (w.session.met text) ∧ w₁.session = w.session.met text)
        fun e w₁ => w₁ = w ∧ w.session.RunsOut text e :=
      ends_intern (fun hname => ⟨rfl, .name hname, rfl⟩) fun _ he => ⟨rfl, he⟩
    refine hintern.bind ?_ fun _ _ h => ⟨h.1 ▸ .refl _, fun _ => h.2⟩
    rintro _ w₁ ⟨rfl, hmove, h₁⟩
    have hlook : Ends (ask fun s => .ok (if s.options.sharePlaceholders then
          s.placeholders.get? (w.session.names.intern text).1 else none)) w₁
        (fun shared? w₂ => (if w₁.session.options.sharePlaceholders then
          w₁.session.placeholders.get? (w.session.names.intern text).1 else none) = shared? ∧
            w₂ = w₁) fun _ _ => False :=
      ends_ask (fun _ h => ⟨Except.ok.inj h, rfl⟩) fun _ h => by cases h
    refine hlook.bind ?_ fun _ _ h => h.elim
    rintro shared? w₂ ⟨hshared, rfl⟩
    rw [h₁] at hshared
    cases shared? with
    | some r =>
        obtain ⟨hshare, hr⟩ := Option.ite_none_right_eq_some.mp hshared
        show _ ∧ (w.session.met text).Grants text hint r w₂.session
        rw [h₁]
        exact ⟨hmove, .shared hname hshare hr⟩
    | none =>
        refine ends_learn (fun r s hs => ?_) fun e he => ⟨h₁ ▸ .met _ text, fun _ => ?_⟩
        · rw [h₁] at hs
          refine ⟨hmove, .fresh hname (fun hshare => ?_) hs⟩
          rwa [if_pos hshare] at hshared
        · rw [h₁] at he
          obtain ⟨hfull, rfl⟩ := addPlaceholder_eq_error he
          exact .handles hfull
  · rename_i hhint
    exact ⟨.refl w.session, fun h => absurd h hhint⟩

end Query

/-! ### Histories of placeholders -/

namespace Session

variable {s s' : Session} {r : HandleRef} {text : String} {hint : BasicType}
  {granted : List (String × BasicType)}

/-- The placeholders of the session are those of the list, and a name with several entries in it goes
by the first. -/
structure Honours (s : Session) (granted : List (String × BasicType)) : Prop where
  /-- A placeholder has been asked for, and has got what was wanted for its name first. -/
  bears : ∀ {r h hint}, s.handle r = .ok h → h.state = .unloaded none hint →
    ∃ text, s.StandsFor r text hint ∧ granted.lookup text = some hint
  /-- What has been granted is there. -/
  stands : ∀ {text hint}, granted.lookup text = some hint → ∃ r, s.StandsFor r text hint

theorem Honours.start (number : Nat) (options : Options) : (start number options).Honours [] :=
  ⟨fun hr => by simpa [Session.start] using index_lt_size hr, nofun⟩

theorem Honours.apart (h : s.Honours granted) (hs : s.Apart s') : s'.Honours granted where
  bears := fun hr hp => by
    obtain ⟨text, hstands, hgranted⟩ := h.bears (hs.old hr hp) hp
    exact ⟨text, hstands.later hs.grows hs.names, hgranted⟩
  stands := fun hgranted => by
    obtain ⟨r, hstands⟩ := h.stands hgranted
    exact ⟨r, hstands.later hs.grows hs.names⟩

/-- The placeholder of a name is the one that is shared. -/
theorem StandsFor.get?_placeholders (h : s.StandsFor r text hint) (hlisted : s.Listed)
    (hshare : s.options.sharePlaceholders = true) {name : NameId}
    (hname : s.names.find? text = some name) : s.placeholders.get? name = some r := by
  obtain ⟨name', hname', hr⟩ := h
  obtain rfl := Option.some.inj (hname'.symm.trans hname)
  exact hlisted.placeholder hshare hr rfl

/-- A further entry for a name is without effect, and otherwise it is the first. -/
theorem lookup_append_singleton (granted : List (String × BasicType)) (text other : String)
    (hint : BasicType) : (granted ++ [(text, hint)]).lookup other =
      if other = text then some ((granted.lookup text).getD hint) else granted.lookup other := by
  rw [List.lookup_append]
  split
  · rename_i h
    subst h
    rw [List.lookup_cons_self]
    cases granted.lookup other <;> rfl
  · rename_i h
    rw [List.lookup_cons, beq_false_of_ne h]
    exact Option.or_none

/-- One placeholder more has been granted, a new one or one that has been there. -/
theorem Honours.append (h : s.Honours granted) (hgrows : s.Grows s')
    (hnames : ∀ {text name}, s.names.find? text = some name → s'.names.find? text = some name)
    (hfirst : s'.StandsFor r text ((granted.lookup text).getD hint))
    (hold : ∀ {r' h hint}, s'.handle r' = .ok h → h.state = .unloaded none hint →
      s.handle r' = .ok h ∨ r' = r) : s'.Honours (granted ++ [(text, hint)]) where
  bears := fun {r' hd hint'} hr hp => by
    rcases hold hr hp with hr | rfl
    · obtain ⟨other, hstands, hgranted⟩ := h.bears hr hp
      refine ⟨other, hstands.later hgrows hnames, ?_⟩
      rw [lookup_append_singleton]
      split
      · rename_i hother
        rw [← hother, hgranted, Option.getD_some]
      · exact hgranted
    · have hof := hfirst
      obtain ⟨name, -, hr'⟩ := hof
      obtain rfl := Except.ok.inj (hr.symm.trans hr')
      cases hp
      exact ⟨text, hfirst, by rw [lookup_append_singleton, if_pos rfl]⟩
  stands := fun {other hint'} hgranted => by
    rw [lookup_append_singleton] at hgranted
    split at hgranted
    · rename_i hother
      subst hother
      exact ⟨r, Option.some.inj hgranted ▸ hfirst⟩
    · obtain ⟨r', hstands⟩ := h.stands hgranted
      exact ⟨r', hstands.later hgrows hnames⟩

theorem standsFor_of_addPlaceholder {name : NameId} (hname : s.names.find? text = some name)
    (hs : s.addPlaceholder
        { name := name, externalName := externalName text, state := .unloaded none hint }
      = .ok (r, s')) : s'.StandsFor r text hint ∧
        ∀ {r' h}, s'.handle r' = .ok h → s.handle r' = .ok h ∨ r' = r := by
  obtain ⟨rfl, hs'⟩ := addPlaceholder_eq_ok hs
  have hpush : ∀ {r' h}, s'.handle r' = .ok h ↔ s.handle r' = .ok h ∨ r' = ⟨s.number, s.handles.size⟩ ∧
      h = { name := name, externalName := externalName text, state := .unloaded none hint } :=
    handle_push (by rw [hs']) (by rw [hs'])
  refine ⟨⟨name, ?_, hpush.mpr (.inr ⟨rfl, rfl⟩)⟩, fun hr => (hpush.mp hr).imp_right And.left⟩
  rw [hs']
  exact hname

theorem Grants.isPlaceholder (hg : s.Grants text hint r s') (hshares : s.SharesPlaceholders) :
    s'.IsPlaceholder r text := by
  cases hg with
  | @shared name hname _ hr =>
      obtain ⟨h, other, hhandle, rfl, hstate⟩ := hshares name r hr
      exact ⟨⟨h, other, hhandle, hstate⟩, nameText_eq hhandle (NameTable.text?_of_find? hname)⟩
  | fresh hname _ hs => exact (standsFor_of_addPlaceholder hname hs).1.isPlaceholder

theorem Grants.keeps (hg : s.Grants text hint r s') : s.Grows s' ∧ s'.names = s.names := by
  cases hg with
  | shared => exact ⟨.refl s, rfl⟩
  | fresh _ _ hs =>
      obtain ⟨-, rfl⟩ := addPlaceholder_eq_ok hs
      exact ⟨.of_push rfl rfl rfl, rfl⟩

/-- Where no placeholders are shared, everyone gets one as wanted. -/
theorem Grants.own (hg : s.Grants text hint r s') (hshare : s.options.sharePlaceholders = false) :
    s'.StandsFor r text hint := by
  cases hg with
  | shared _ hshared =>
      rw [hshare] at hshared
      cases hshared
  | fresh hname _ hs => exact (standsFor_of_addPlaceholder hname hs).1

/-- Where they are, the first request for a name decides what all the later ones get. -/
theorem Grants.first (hg : s.Grants text hint r s') (h : s.Honours granted) (hlisted : s.Listed)
    (hshares : s.SharesPlaceholders) (hshare : s.options.sharePlaceholders = true) :
    s'.StandsFor r text ((granted.lookup text).getD hint) ∧
      ∀ {r' h}, s'.handle r' = .ok h → s.handle r' = .ok h ∨ r' = r := by
  cases hg with
  | @shared name hname _ hr =>
      obtain ⟨hd, hint', hhandle, rfl, hstate⟩ := hshares name r hr
      obtain ⟨text', hstands, hgranted⟩ := h.bears hhandle hstate
      -- Both texts have the same number.
      have htext := hstands.nameText
      rw [nameText_eq hhandle (NameTable.text?_of_find? hname)] at htext
      obtain rfl := Except.ok.inj htext
      rw [hgranted]
      exact ⟨hstands, .inl⟩
  | @fresh name _ hname hnew hs =>
      have hnone : granted.lookup text = none := by
        cases hgranted : granted.lookup text with
        | none => rfl
        | some first =>
            obtain ⟨r', hstands⟩ := h.stands hgranted
            have hr' := hstands.get?_placeholders hlisted hshare hname
            rw [hnew hshare] at hr'
            cases hr'
      rw [hnone]
      exact standsFor_of_addPlaceholder hname hs

/-! ### Requests -/

section

variable {σ : Type} [MetadataSource σ] {w : Workspace σ} {request : Request}

open Query

/-- A request that asks for a placeholder goes on as a request for just that. -/
theorem exists_asked (h : request.placeholderAsked? w = some (text, hint)) : ∃ v : Workspace σ,
    w.session.Moves v.session ∧ w.session.Apart v.session ∧
      w.serve request = v.serve (.placeholder text hint) := by
  cases request with
  | placeholder name type =>
      cases h
      exact ⟨w, .refl, .refl _, rfl⟩
  | findOrPlaceholder origin name =>
      simp only [Request.placeholderAsked?] at h
      split at h
      · rename_i missing v hmissing
        cases h
        refine ⟨v, ((find_moving origin text).of_error hmissing).1,
          (pieces_apart.find origin text).of_error hmissing, ?_⟩
        have hrun : (Request.findOrPlaceholder origin text).run w =
            (Request.placeholder text (BasicType.ofInternalName text)).run v := by
          simp only [Request.run, Functor.map, EStateM.map, findOrPlaceholder_of_missing hmissing]
        simp only [Workspace.serve, hrun]
      · cases h
  | _ => cases h

theorem serve_apart_of_not_asked (h : request.placeholderAsked? w = none) :
    w.session.Apart (w.serve request).2.session := by
  refine Workspace.serve_of_ends (P := StaysApart w) ?_
  cases request with
  | placeholder name type => cases h
  | findOrPlaceholder origin name =>
      simp only [Request.placeholderAsked?] at h
      have hfind := pieces_apart.find (w := w) origin name
      have hsearched : Ends (find origin name) w (fun _ v => StaysApart w v)
          fun e v => StaysApart w v ∧ ∀ missing, e ≠ .notFound missing := by
        unfold Ends
        split at h
        · cases h
        · rename_i hother
          cases hrun : find origin name w with
          | ok r v => exact hfind.of_ok hrun
          | error e v =>
              refine ⟨hfind.of_error hrun, ?_⟩
              rintro missing rfl
              exact hother missing v hrun
      exact Ends.map (ends_findOrPlaceholder hsearched
        (fun missing v hv => absurd rfl (hv.2 missing)) fun _ _ _ hv => hv.1)
  | _ => exact pieces_apart.request _ nofun nofun

theorem serve_placeholder_ends (v : Workspace σ) (text : String) (hint : BasicType) :
    (∃ r, (v.serve (.placeholder text hint)).1 = .ok (.type r) ∧
      v.session.Move (v.session.met text) ∧
      (v.session.met text).Grants text hint r (v.serve (.placeholder text hint)).2.session) ∨
    (v.serve (.placeholder text hint)).1.isOk = false ∧
      v.session.Apart (v.serve (.placeholder text hint)).2.session := by
  have hends := placeholder_ends (w := v) text hint
  cases hrun : placeholder text hint v with
  | ok r v' =>
      have hserve : v.serve (.placeholder text hint) = (.ok (.type r), v') :=
        Workspace.serve_of_ok (by simp only [Request.run, Functor.map, EStateM.map, hrun])
      rw [hserve]
      exact .inl ⟨r, rfl, hends.of_ok hrun⟩
  | error e v' =>
      have hserve : v.serve (.placeholder text hint) = (.error e, v') :=
        Workspace.serve_of_error (by simp only [Request.run, Functor.map, EStateM.map, hrun])
      rw [hserve]
      exact .inr ⟨rfl, (hends.of_error hrun).1⟩

theorem serve_grants (h : w.granted? request = some (text, hint)) : ∃ s r,
    w.session.Moves s ∧ w.session.Apart s ∧ (w.serve request).1 = .ok (.type r) ∧
      s.Grants text hint r (w.serve request).2.session := by
  obtain ⟨hok, hasked⟩ := Option.ite_none_right_eq_some.mp h
  obtain ⟨v, hmoves, hapart, hserve⟩ := exists_asked hasked
  rw [hserve] at hok ⊢
  rcases serve_placeholder_ends v text hint with ⟨r, hr, hmove, hgrants⟩ | ⟨hfailed, -⟩
  · exact ⟨_, r, hmoves.tail hmove, hapart.trans (.met _ text), hr, hgrants⟩
  · rw [hok] at hfailed
    cases hfailed

theorem serve_apart (h : w.granted? request = none) :
    w.session.Apart (w.serve request).2.session := by
  cases hasked : request.placeholderAsked? w with
  | none => exact serve_apart_of_not_asked hasked
  | some asked =>
      obtain ⟨text, hint⟩ := asked
      obtain ⟨v, -, hapart, hserve⟩ := exists_asked hasked
      have hfailed : (w.serve request).1.isOk = false := by simpa [Workspace.granted?, hasked] using h
      rw [hserve] at hfailed ⊢
      rcases serve_placeholder_ends v text hint with ⟨r, hr, -⟩ | ⟨-, hthen⟩
      · rw [hr] at hfailed
        cases hfailed
      · exact hapart.trans hthen

/-- A session goes on to have the placeholders that it has been asked for, and no others. -/
theorem Honours.serve {number : Nat} {options : Options} (h : w.session.Honours granted)
    (hmoves : (Session.start number options).Moves w.session)
    (hshare : options.sharePlaceholders = true) (request : Request) :
    (w.serve request).2.session.Honours (granted ++ (w.granted? request).toList) := by
  cases hgranted : w.granted? request with
  | none =>
      rw [Option.toList_none, List.append_nil]
      exact h.apart (serve_apart hgranted)
  | some asked =>
      obtain ⟨text, hint⟩ := asked
      obtain ⟨s, r, hthen, hapart, -, hgrants⟩ := serve_grants hgranted
      have hs : (Session.start number options).Moves s := hmoves.trans hthen
      have hshare' : s.options.sharePlaceholders = true := by rw [hs.grows.options]; exact hshare
      obtain ⟨hfirst, hold⟩ := hgrants.first (h.apart hapart) hs.keeps.2 hs.sharesPlaceholders hshare'
      obtain ⟨hgrows, hnames⟩ := hgrants.keeps
      exact (h.apart hapart).append hgrows (fun hname => hnames ▸ hname) hfirst fun hr _ => hold hr

theorem Honours.through {number : Nat} {options : Options} (h : s.Honours granted)
    (hmoves : (Session.start number options).Moves s) (hshare : options.sharePlaceholders = true)
    (steps : List (Heap σ × Request)) : (s.through steps).Honours (granted ++ s.granted steps) := by
  induction steps generalizing s granted with
  | nil => simpa [Session.through, Session.granted] using h
  | cons step steps ih =>
      have hserved := Honours.serve (w := ⟨s, step.1⟩) h hmoves hshare step.2
      have hthen := ih hserved (hmoves.trans (serve_moves ⟨s, step.1⟩ step.2))
      rw [List.append_assoc] at hthen
      exact hthen

/-- **What a request for a placeholder is answered**, whatever the session has been asked before.  It is
a handle of the name that stands for no class object.  Where placeholders are shared it is taken
for what the first request for the name that went well wanted, and otherwise for what this one wants. -/
theorem serve_placeholder (number : Nat) (options : Options) (earlier : List (Heap σ × Request))
    {heap : Heap σ} {request : Request} {text : String} {hint : BasicType} {r : HandleRef}
    {after : Workspace σ}
    (hasked : request.placeholderAsked? ⟨(start number options).through earlier, heap⟩
      = some (text, hint))
    (hok : Workspace.serve ⟨(start number options).through earlier, heap⟩ request
      = (.ok (.type r), after)) :
    ∃ h, after.session.handle r = .ok h ∧ h.isLoaded = false ∧ h.identity? = none ∧
      h.layout = .neutral ∧ after.session.nameText r = .ok text ∧
      h.externalName = externalName text ∧ h.basicType =
        if options.sharePlaceholders then
          (((start number options).granted earlier).lookup text).getD hint
        else hint := by
  have hmoves := through_moves (start number options) earlier
  have hgranted : Workspace.granted? ⟨(start number options).through earlier, heap⟩ request
      = some (text, hint) := by
    simp [Workspace.granted?, hok, hasked, Except.isOk, Except.toBool]
  obtain ⟨s, r', hthen, hapart, hanswer, hgrants⟩ := serve_grants hgranted
  rw [hok] at hanswer hgrants
  obtain rfl := Answer.type.inj (Except.ok.inj hanswer)
  have hs : (start number options).Moves s := hmoves.trans hthen
  have hstands : after.session.StandsFor r text (if options.sharePlaceholders then
      (((start number options).granted earlier).lookup text).getD hint else hint) := by
    cases hshare : options.sharePlaceholders with
    | true =>
        have hhonours := (Honours.start number options).through .refl hshare earlier
        exact (hgrants.first (hhonours.apart hapart) hs.keeps.2 hs.sharesPlaceholders
          (by rw [hs.grows.options]; exact hshare)).1
    | false => exact hgrants.own (by rw [hs.grows.options]; exact hshare)
  have htext := hstands.nameText
  obtain ⟨name, -, hr⟩ := hstands
  exact ⟨_, hr, rfl, rfl, rfl, htext, rfl, rfl⟩

/-- A name that has been taken for an object is asked for as an array, and goes on being an object. -/
theorem serve_placeholder_retaken :
    ∃ r after h, Workspace.serve
        ⟨(start 0 {}).through [(rootOnly, .placeholder "Foo" .object)], rootOnly⟩
        (.placeholder "Foo" .array) = (.ok (.type r), after) ∧
      after.session.handle r = .ok h ∧ h.basicType = .object := by
  obtain ⟨after, hserve⟩ : ∃ after, Workspace.serve
      ⟨(start 0 {}).through [(rootOnly, .placeholder "Foo" .object)], rootOnly⟩
      (.placeholder "Foo" .array) = (.ok (.type ⟨0, 0⟩), after) := ⟨_, by with_unfolding_all rfl⟩
  obtain ⟨h, hr, -, -, -, -, -, htype⟩ :=
    serve_placeholder 0 {} [(rootOnly, .placeholder "Foo" .object)] rfl hserve
  exact ⟨_, _, h, hserve, hr, htype⟩

end

end Session

end RuntimeTypes
