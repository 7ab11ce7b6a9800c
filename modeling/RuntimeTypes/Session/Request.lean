/-
Requests: everything a compilation can ask a session, as data.

`Request.run` carries a request out.  `Workspace.after` is the workspace after a
list of them, failed ones included, which is what it means for a session to have a
history.
-/
import RuntimeTypes.Session.Query

namespace RuntimeTypes

/-- What a compilation asks. -/
inductive Request
  | resolve (id : Identity)
  | placeholder (name : String) (hint : BasicType)
  | find (origin : HandleRef) (name : String)
  | findOrPlaceholder (origin : HandleRef) (name : String)
  | primitive (type : BasicType)
  | isSubtype (a b : HandleRef)
  | isSubclass (a b : HandleRef)
  | ancestorAt (r : HandleRef) (depth : Nat)
  | commonAncestor (a b : HandleRef)
  deriving DecidableEq, Repr

/-- What a request that did not fail is answered. -/
inductive Answer
  /-- A type. -/
  | type (r : HandleRef)
  /-- A type, if there is one. -/
  | type? (r? : Option HandleRef)
  /-- Yes or no. -/
  | truth (b : Bool)
  deriving DecidableEq, Repr

/-- Carry a request out. -/
def Request.run {σ : Type} [MetadataSource σ] : Request → Query σ Answer
  | resolve id => Answer.type <$> Query.resolve id
  | placeholder name hint => Answer.type <$> Query.placeholder name hint
  | find origin name => Answer.type <$> Query.find origin name
  | findOrPlaceholder origin name => Answer.type <$> Query.findOrPlaceholder origin name
  | primitive type => Answer.type <$> Query.primitive type
  | isSubtype a b => Answer.truth <$> Query.ask fun s => s.isSubtype a b
  | isSubclass a b => Answer.truth <$> Query.ask fun s => s.isSubclass a b
  | ancestorAt r depth => Answer.type? <$> Query.ancestorAt r depth
  | commonAncestor a b => Answer.type <$> Query.commonAncestor a b

namespace Workspace

variable {σ : Type} [MetadataSource σ]

/-- The outcome of a request, and the workspace it leaves behind. -/
def serve (w : Workspace σ) (request : Request) : Except QueryFailure Answer × Workspace σ :=
  match request.run w with
  | .ok answer next => (.ok answer, next)
  | .error e next => (.error e, next)

theorem serve_of_ok {w next : Workspace σ} {request : Request} {answer : Answer}
    (h : request.run w = .ok answer next) : w.serve request = (.ok answer, next) := by
  unfold serve
  rw [h]

theorem serve_of_error {w next : Workspace σ} {request : Request} {e : QueryFailure}
    (h : request.run w = .error e next) : w.serve request = (.error e, next) := by
  unfold serve
  rw [h]

/-- The workspace after a list of requests, failed ones included. -/
def after (w : Workspace σ) (requests : List Request) : Workspace σ :=
  requests.foldl (fun w request => (w.serve request).2) w

end Workspace

end RuntimeTypes
