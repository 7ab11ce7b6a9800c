/-
Going along a relation, from one end of a request to the other.

A request is put together from few pieces.  Whatever a relation between workspaces is to
say, it is said of every request once it has been shown of the pieces, as long as it goes
on from one piece to the next: `Pieces.request` is the walk over all requests that needs
to know nothing else.  Building a handle counts as one piece here, for what is to be said
of the handle is only known when all of its parts have been read.

Most requests add no placeholder.  Their pieces stand apart as `CommonPieces`, for a
relation that such a request would break is still kept by all others.
-/
import RuntimeTypes.Proofs.Session.Rules

namespace RuntimeTypes

namespace Query

variable {σ α β : Type}

/-- However the query ends, what it leaves is related to what it has started from. -/
def Along (R : Workspace σ → Workspace σ → Prop) (q : Query σ α) (w : Workspace σ) : Prop :=
  Ends q w (fun _ w' => R w w') fun _ w' => R w w'

/-- The pieces of a query that adds no placeholder go along a relation. -/
structure CommonPieces [MetadataSource σ] (R : Workspace σ → Workspace σ → Prop) : Prop where
  refl : ∀ w, R w w
  trans : ∀ {w w' w''}, R w w' → R w' w'' → R w w''
  countHit : ∀ w, Along R countHit w
  entered : ∀ w gate, R w (entered w gate)
  left : ∀ w, R w (left w)
  met : ∀ text (w : Workspace σ), R w { w with session := w.session.met text }
  loadStatus : ∀ id w, Along R (read (MetadataSource.loadStatus id)) w
  find? : ∀ loader name w, Along R (read (MetadataSource.find? loader name)) w
  build : ∀ id state w, Along R (build id state) w
  /-- The handle of a primitive type is added to the session, and nothing else happens. -/
  primitive : ∀ type (h : Handle) (w : Workspace σ) r s, h.state = .primitive type →
    w.session.addPrimitive type h = .ok (r, s) → R w { w with session := s }

/-- The pieces of any query go along a relation. -/
structure Pieces [MetadataSource σ] (R : Workspace σ → Workspace σ → Prop) : Prop
    extends CommonPieces R where
  /-- A handle without a class object is added to the session, and nothing else happens. -/
  placeholder : ∀ (h : Handle) (w : Workspace σ) r s, h.identity? = none →
    w.session.addPlaceholder h = .ok (r, s) → R w { w with session := s }

namespace CommonPieces

variable [MetadataSource σ] {R : Workspace σ → Workspace σ → Prop} {w : Workspace σ}

theorem pure (h : CommonPieces R) (a : α) : Along R (Pure.pure a) w := h.refl w

theorem throw (h : CommonPieces R) (e : QueryFailure) : Along R (throw e : Query σ α) w :=
  h.refl w

theorem bind (h : CommonPieces R) {q : Query σ α} {k : α → Query σ β} (hq : Along R q w)
    (hk : ∀ a w', Along R (k a) w') : Along R (q >>= k) w := by
  refine Ends.bind hq (fun a w' hw' => ?_) fun _ _ hw' => hw'
  exact Ends.mono (hk a w') (fun _ _ hw'' => h.trans hw' hw'') fun _ _ hw'' => h.trans hw' hw''

omit [MetadataSource σ] in
theorem map {q : Query σ α} {f : α → β} (hq : Along R q w) : Along R (f <$> q) w := Ends.map hq

theorem ask (h : CommonPieces R) (f : Session → Except QueryFailure α) : Along R (ask f) w :=
  ends_ask (fun _ _ => h.refl w) fun _ _ => h.refl w

theorem learn (h : CommonPieces R) {f : Session → Except QueryFailure (α × Session)}
    (hf : ∀ a s, f w.session = .ok (a, s) → R w { w with session := s }) :
    Along R (learn f) w :=
  ends_learn hf fun _ _ => h.refl w

theorem intern (h : CommonPieces R) (text : String) : Along R (intern text) w :=
  ends_intern (fun _ => h.met text w) fun _ _ => h.refl w

theorem inScope (h : CommonPieces R) {body : Query σ α} (hbody : ∀ w', Along R body w') :
    Along R (inScope body) w := by
  refine ends_inScope (fun _ _ => h.refl w) fun gate _ => ?_
  have hclosed : ∀ after, R (Query.entered w gate) after → R w (Query.left after) :=
    fun after hafter => h.trans (h.trans (h.entered w gate) hafter) (h.left after)
  exact Ends.mono (hbody _) (fun _ after => hclosed after) fun _ after => hclosed after

/-! ### From the pieces to the requests -/

theorem remembered (h : CommonPieces R) (id : Identity) : Along R (remembered id) w := by
  refine h.bind (h.ask _) fun found w' => ?_
  split
  · exact h.bind (h.countHit w') fun _ _ => h.pure _
  · exact h.pure _

theorem resolveInside (h : CommonPieces R) (id : Identity) : Along R (resolveInside id) w := by
  refine h.bind (h.remembered id) fun r? w₁ => ?_
  cases r? with
  | some r => exact h.pure r
  | none =>
      refine h.bind (h.loadStatus id w₁) fun state w₂ => h.bind (h.ask _) fun found w₃ => ?_
      split
      · exact h.pure _
      · exact h.build id state w₃

theorem resolve (h : CommonPieces R) (id : Identity) : Along R (resolve id) w := by
  refine h.bind (h.remembered id) fun r? w' => ?_
  cases r? with
  | some r => exact h.pure r
  | none => exact h.inScope fun _ => h.resolveInside id

theorem find (h : CommonPieces R) (origin : HandleRef) (name : String) :
    Along R (find origin name) w := by
  refine h.bind (h.ask _) fun loader w₁ => h.inScope fun w₂ => ?_
  refine h.bind (h.find? loader name w₂) fun found? w₃ => ?_
  cases found? with
  | none => exact h.throw _
  | some id => exact h.resolveInside id

theorem primitiveOf (h : CommonPieces R) (type : BasicType) : Along R (Query.primitive type) w := by
  unfold Query.primitive
  split
  · exact h.throw _
  · refine h.bind (h.ask _) fun found w₁ => ?_
    split
    · exact h.pure _
    · refine h.bind (h.intern type.name) fun name w₂ => ?_
      exact h.learn fun r s hs => h.primitive type _ w₂ r s rfl hs

theorem ancestorAt (h : CommonPieces R) (r : HandleRef) (depth : Nat) :
    Along R (ancestorAt r depth) w := by
  refine h.bind (h.ask _) fun c w' => ?_
  split
  · exact map (h.resolve _)
  · exact h.pure _

theorem commonAncestor (h : CommonPieces R) (a b : HandleRef) : Along R (commonAncestor a b) w := by
  refine h.bind (h.ask _) fun first w₁ => h.bind (h.ask _) fun second w₂ => ?_
  split
  · exact h.pure _
  · split
    · exact h.pure _
    · exact h.bind (h.ask _) fun common w₃ => h.resolve common

/-- A request that asks for no placeholder. -/
theorem request (h : CommonPieces R) (r : Request)
    (hplaceholder : ∀ name hint, r ≠ .placeholder name hint)
    (hor : ∀ origin name, r ≠ .findOrPlaceholder origin name) : Along R r.run w := by
  cases r with
  | resolve id => exact map (h.resolve id)
  | placeholder name hint => exact absurd rfl (hplaceholder name hint)
  | find origin name => exact map (h.find origin name)
  | findOrPlaceholder origin name => exact absurd rfl (hor origin name)
  | primitive type => exact map (h.primitiveOf type)
  | isSubtype a b => exact map (h.ask _)
  | isSubclass a b => exact map (h.ask _)
  | ancestorAt r depth => exact map (h.ancestorAt r depth)
  | commonAncestor a b => exact map (h.commonAncestor a b)

end CommonPieces

namespace Pieces

variable [MetadataSource σ] {R : Workspace σ → Workspace σ → Prop} {w : Workspace σ}

theorem placeholderOf (h : Pieces R) (text : String) (hint : BasicType) :
    Along R (Query.placeholder text hint) w := by
  unfold Query.placeholder
  split
  · refine h.bind (h.intern text) fun name w₁ => h.bind (h.ask _) fun shared? w₂ => ?_
    split
    · exact h.pure _
    · exact h.learn fun r s hs => h.placeholder _ w₂ r s rfl hs
  · exact h.throw _

theorem findOrPlaceholder (h : Pieces R) (origin : HandleRef) (name : String) :
    Along R (findOrPlaceholder origin name) w := by
  refine ends_findOrPlaceholder (h.find origin name) ?_ fun _ _ _ hw' => hw'
  intro missing after hafter
  exact Ends.mono (h.placeholderOf name _) (fun _ _ hw' => h.trans hafter hw')
    fun _ _ hw' => h.trans hafter hw'

/-- **Every request goes along** what its pieces go along, failing ones included. -/
theorem request (h : Pieces R) (r : Request) : Along R r.run w := by
  cases r with
  | placeholder name hint => exact .map (h.placeholderOf name hint)
  | findOrPlaceholder origin name => exact .map (h.findOrPlaceholder origin name)
  | _ => exact h.toCommonPieces.request _ nofun nofun

end Pieces

end Query

end RuntimeTypes
