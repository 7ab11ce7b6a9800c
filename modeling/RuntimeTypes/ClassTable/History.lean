/-
What happens to a class table, as data.

Everything that changes a table is a `ClassTable.Op`.  `Op.run` performs one and
says how it ended; `after` performs a list of them, refusals included, which is
what it means for a table to have a history.
-/
import RuntimeTypes.ClassTable.Loading
import RuntimeTypes.ClassTable.Arrays

namespace RuntimeTypes

namespace ClassTable

/-- An operation on a class table. -/
inductive Op
  | newLoader (parent : Loader)
  | define (d : ClassFile)
  | declare (loader : Loader) (name : String)
  | complete (id : Identity) (d : ClassFile)
  | arrayOf (element : ElementType) (interfaces : List Identity)
  | unload (id : Identity)
  deriving DecidableEq, Repr

/-- How an operation that was not refused ended. -/
inductive Reply
  /-- The class that was asked for or made. -/
  | made (id : Identity)
  /-- The loader that was made. -/
  | loader (loader : Loader)
  /-- The change was carried out. -/
  | done
  deriving DecidableEq, Repr

/-- The table after an operation that a refusal leaves unchanged. -/
def settle {α : Type} (t : ClassTable) (reply : α → Reply) :
    Except TableRefusal (α × ClassTable) → Except TableRefusal Reply × ClassTable
  | .ok (a, next) => (.ok (reply a), next)
  | .error e => (.error e, t)

/-- The table after a change that a refusal leaves unchanged. -/
def settleChange (t : ClassTable) :
    Except TableRefusal ClassTable → Except TableRefusal Reply × ClassTable
  | .ok next => (.ok .done, next)
  | .error e => (.error e, t)

/-- Perform an operation. -/
def Op.run (t : ClassTable) : Op → Except TableRefusal Reply × ClassTable
  | newLoader parent => t.settle .loader (t.addLoader parent)
  | define d => t.settle .made (t.define d)
  | declare loader name => t.settle .made (t.declare loader name)
  | complete id d => t.settleChange (t.complete id d)
  | arrayOf element interfaces =>
    match ClassTable.arrayOf element interfaces t with
    | .ok id next => (.ok (.made id), next)
    | .error e next => (.error e, next)
  | unload id => t.settleChange (t.remove id)

/-- The table after a list of operations, refused ones included. -/
def after (t : ClassTable) (ops : List Op) : ClassTable :=
  ops.foldl (fun t op => (op.run t).2) t

end ClassTable

end RuntimeTypes
