/-
The access flags of a class file.

A clause may replace the flags or add to them, at any place among the others, and none of
them may touch the interface bit.  `ClassFile.access` sets or clears that bit once, when the
class file is complete.  To keep the bit right from clause to clause, as `Clause.amend` does,
comes to the same: the bit is not one that a clause adds, so adding flags before or after it
has been put right makes no difference.
-/
import RuntimeTypes.ClassFile

namespace RuntimeTypes

namespace Access

theorem or_and_distrib (a b c : UInt32) : (a ||| b) &&& c = a &&& c ||| b &&& c :=
  UInt32.toBitVec_inj.mp (by simp [BitVec.and_or_distrib_right])

theorem has_or (a b flag : UInt32) : has (a ||| b) flag = (has a flag || has b flag) := by
  rw [Bool.eq_iff_iff]
  simp only [has, or_and_distrib, Bool.or_eq_true, bne_iff_ne, ne_eq, UInt32.or_eq_zero_iff]
  grind

theorem has_and_not (flags flag : UInt32) : has (flags &&& ~~~flag) flag = false := by
  simp [has, UInt32.and_assoc]

end Access

namespace ClassFile

/-- Flags that are kept right from clause to clause. -/
def Clause.amend (forInterface : Bool) (flags : UInt32) : Clause → UInt32
  | .flags given =>
    if forInterface then
      given ||| Access.isInterface ||| Access.isAbstract
    else
      given &&& ~~~Access.isInterface
  | .makeAbstract => flags ||| Access.isAbstract
  | .makeFinal => flags ||| Access.isFinal
  | _ => flags

/-- A flag can be added as well when the interface bit has been put right. -/
theorem access_marked (d : ClassFile) {flag : UInt32} (h : flag &&& ~~~Access.isInterface = flag) :
    (d.marked flag).access = d.access ||| flag := by
  unfold access marked
  cases d.isInterface with
  | true =>
      simp only [if_true]
      ac_rfl
  | false => simp [Access.or_and_distrib, h]

theorem isInterface_write (d : ClassFile) (c : Clause) :
    (d.write c).isInterface = d.isInterface := by
  cases c <;> rfl

theorem access_write (d : ClassFile) (c : Clause) :
    (d.write c).access = c.amend d.isInterface d.access := by
  cases c with
  | makeAbstract => exact d.access_marked rfl
  | makeFinal => exact d.access_marked rfl
  | _ => rfl

/-- **The flags of a class file are right from clause to clause**, in whatever order it is
written. -/
theorem access_written (isInterface : Bool) (name : String) (clauses : List Clause) :
    (written isInterface name clauses).access
      = clauses.foldl (Clause.amend isInterface)
          (if isInterface then Access.isPublic ||| Access.isInterface ||| Access.isAbstract
          else Access.isPublic ||| Access.isSuper) := by
  have hfold : ∀ d : ClassFile, d.isInterface = isInterface →
      (clauses.foldl write d).access = clauses.foldl (Clause.amend isInterface) d.access := by
    induction clauses with
    | nil => exact fun d _ => rfl
    | cons c rest ih =>
        intro d hd
        rw [List.foldl_cons, List.foldl_cons, ih _ ((d.isInterface_write c).trans hd),
          access_write, hd]
  have hordinary : (ordinary name).access = Access.isPublic ||| Access.isSuper := by
    show (Access.isPublic ||| Access.isSuper) &&& ~~~Access.isInterface = _
    decide
  unfold written
  cases isInterface with
  | true => exact hfold (interface name) rfl
  | false =>
      simp only [Bool.false_eq_true, if_false]
      rw [hfold (ordinary name) rfl, hordinary]

example : (written false "A" [.makeAbstract, .flags Access.isInterface, .makeFinal]).access
    = Access.isFinal := by decide

theorem exists_written (d : ClassFile) : ∃ clauses, written d.isInterface d.name clauses = d := by
  obtain ⟨name, isInterface, loader, superclass, interfaces, size, flags⟩ := d
  refine ⟨superclass.toList.map .superclass
    ++ [.interfaces interfaces, .loader loader, .instanceSize size, .flags flags], ?_⟩
  cases isInterface <;> cases superclass <;> rfl

/-- The interface bit says whether an interface is defined, whatever flags were given. -/
theorem has_access_isInterface (d : ClassFile) :
    Access.has d.access Access.isInterface = d.isInterface := by
  unfold access
  cases d.isInterface with
  | true =>
      simp only [if_true, Access.has_or]
      simp [Access.has, Access.isInterface, Access.isAbstract]
  | false => exact Access.has_and_not d.flags Access.isInterface

end ClassFile

end RuntimeTypes
