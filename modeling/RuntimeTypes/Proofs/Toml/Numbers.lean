/-
Whole numbers are read back from their digits.

A word is asked in turn whether it is a truth value, a date or time, a floating-point number
and a whole number.  A word of digits is none of the first three, as it has no letter, dash,
colon or point, so what remains is that the digits are read as the number they stand for.

Two things about a decimal representation are needed for that.  Its digits give the number
(`Nat.ofDigitChars_ten_toDigits`), and it does not start with a zero unless it has only one
digit, since a number with a leading zero is none in TOML.
-/
import Mathlib.Data.List.TakeWhile
import RuntimeTypes.Toml.Scalar

namespace RuntimeTypes

namespace Toml

variable {c : Char} {cs rest : List Char}

/-- A text of decimal digits only. -/
abbrev AllDigits (cs : List Char) : Prop := ∀ c ∈ cs, c.isDigit = true

theorem allDigits_toDigits (n : Nat) : AllDigits (Nat.toDigits 10 n) :=
  fun _ => Nat.isDigit_of_mem_toDigits (by decide) (by decide)

theorem AllDigits.notMem (h : AllDigits cs) (hc : c.isDigit = false) : c ∉ cs := by
  intro hmem
  rw [h c hmem] at hc
  cases hc

/-! ### What a word of digits is not -/

theorem suffix_of_readDigits {width n m : Nat} (h : readDigits width n cs = some (m, rest)) :
    rest <:+ cs := by
  induction width generalizing n cs with
  | zero =>
      obtain ⟨-, rfl⟩ := Prod.mk.inj (Option.some.inj h)
      exact List.suffix_refl cs
  | succ width ih =>
      match cs, h with
      | c :: cs, h =>
          unfold readDigits at h
          split at h
          · exact (ih h).trans (List.suffix_cons c cs)
          · cases h

theorem expect_eq_some (h : expect c cs = some rest) : cs = c :: rest := by
  match cs, h with
  | d :: cs, h =>
      by_cases hd : d = c
      · rw [expect, if_pos hd] at h
        rw [hd, Option.some.inj h]
      · rw [expect, if_neg hd] at h
        cases h

/-- What needs a character behind some digits is not there without that character. -/
theorem expect_eq_none_of_readDigits {width m : Nat} (hc : c ∉ cs)
    (h : readDigits width 0 cs = some (m, rest)) : expect c rest = none := by
  cases hrest : expect c rest with
  | none => rfl
  | some behind =>
      refine absurd ((suffix_of_readDigits h).subset ?_) hc
      rw [expect_eq_some hrest]
      exact List.mem_cons_self

theorem afterDate?_eq_none (h : '-' ∉ cs) : afterDate? cs = none := by
  unfold afterDate?
  cases hyear : readDigits 4 0 cs with
  | none => rfl
  | some year => simp [expect_eq_none_of_readDigits h hyear]

theorem afterTime?_eq_none (h : ':' ∉ cs) : afterTime? cs = none := by
  unfold afterTime?
  cases hhour : readDigits 2 0 cs with
  | none => rfl
  | some hour => simp [expect_eq_none_of_readDigits h hhour]

theorem isDateTime_eq_false (h : AllDigits cs) : isDateTime cs = false := by
  simp [isDateTime, afterDate?_eq_none (h.notMem (by decide)),
    afterTime?_eq_none (h.notMem (by decide))]

theorem splitSign_eq (h : AllDigits cs) : splitSign cs = (false, cs) := by
  unfold splitSign
  split
  · exact absurd List.mem_cons_self (h.notMem (by decide))
  · exact absurd List.mem_cons_self (h.notMem (by decide))
  · rfl

theorem split_eq_self (mark : Char → Bool) (h : ∀ c ∈ cs, mark c = false) :
    cs.takeWhile (!mark ·) = cs ∧ cs.dropWhile (!mark ·) = [] := by
  rw [List.takeWhile_eq_self_iff, List.dropWhile_eq_nil_iff]
  simpa using h

theorem isFloat_eq_false (h : AllDigits cs) : isFloat cs = false := by
  have hinf : cs ≠ ['i', 'n', 'f'] := by
    rintro rfl
    exact h.notMem (c := 'i') (by decide) (by decide)
  have hnan : cs ≠ ['n', 'a', 'n'] := by
    rintro rfl
    exact h.notMem (c := 'n') (by decide) (by decide)
  have hletter : ∀ c ∈ cs, (c = 'e' || c = 'E') = false := by
    intro c hc
    have hlower : c ≠ 'e' := fun hce => h.notMem (by decide) (hce ▸ hc)
    have hupper : c ≠ 'E' := fun hce => h.notMem (by decide) (hce ▸ hc)
    simp [hlower, hupper]
  have hmark := split_eq_self (fun c => c = 'e' || c = 'E') hletter
  have hpoint : cs.dropWhile (fun c => decide (c ≠ '.')) = [] := by
    refine List.dropWhile_eq_nil_iff.mpr ?_
    intro c hc
    exact decide_eq_true fun hce => h.notMem (by decide) (hce ▸ hc)
  unfold isFloat
  simp only [splitSign_eq h, hinf, hnan, or_self, if_false, hmark.1, hmark.2, hpoint,
    List.isEmpty_nil, Bool.and_self, if_true]

/-! ### The number -/

/-- The value of a decimal digit. -/
def digitValue (c : Char) : Nat := c.toNat - '0'.toNat

theorem digit?_eq (hc : c.isDigit = true) : ungroup?.digit? 10 c = some (digitValue c) := by
  obtain ⟨hlow, hhigh⟩ := Char.isDigit_iff_toNat.mp hc
  have hhex : hexDigit? c = some (digitValue c) := if_pos ⟨hlow, hhigh⟩
  have hsmall : digitValue c < 10 := by
    show c.toNat - 48 < 10
    have : c.toNat ≤ 57 := hhigh
    omega
  simp [ungroup?.digit?, hhex, hsmall]

theorem ungroup?_eq (h : AllDigits cs) (hne : cs ≠ []) :
    ungroup? 10 cs = some (cs.map digitValue) := by
  induction cs with
  | nil => exact absurd rfl hne
  | cons c cs ih =>
      have hc := digit?_eq (h c List.mem_cons_self)
      have hcs : AllDigits cs := fun d hd => h d (List.mem_cons_of_mem c hd)
      match cs, hcs, ih with
      | [], _, _ => simp [ungroup?, hc]
      | d :: cs, hcs, ih =>
          have hd : d ≠ '_' := by
            rintro rfl
            exact hcs.notMem (c := '_') (by decide) List.mem_cons_self
          rw [ungroup?]
          · rw [hc, ih hcs (List.cons_ne_nil d cs)]
            rfl
          · simp
          · simp [hd]

theorem ofDigits_map (cs : List Char) :
    ofDigits 10 (cs.map digitValue) = Nat.ofDigitChars 10 cs 0 := by
  simp only [ofDigits, Nat.ofDigitChars, List.foldl_map, digitValue, Nat.mul_comm]

theorem head?_toDigits {n : Nat} (hn : 0 < n) : (Nat.toDigits 10 n).head? ≠ some '0' := by
  induction n using Nat.strongRecOn with
  | ind n ih =>
      by_cases hsmall : n < 10
      · rw [Nat.toDigits_of_lt_base hsmall]
        match n, hn, hsmall with
        | 1, _, _ | 2, _, _ | 3, _, _ | 4, _, _ | 5, _, _ | 6, _, _ | 7, _, _ | 8, _, _ | 9, _, _ =>
          decide
      · -- The digits of a tenth of the number come first, and there is one at least.
        have hfirst := ih (n / 10) (by omega) (by omega)
        rw [Nat.toDigits_of_base_le (by decide) (by omega)]
        cases hdigits : Nat.toDigits 10 (n / 10) with
        | nil => exact absurd hdigits Nat.toDigits_ne_nil
        | cons c cs =>
            rw [hdigits] at hfirst
            exact hfirst

theorem decimalDigits?_toDigits (n : Nat) :
    decimalDigits? (Nat.toDigits 10 n) = some ((Nat.toDigits 10 n).map digitValue) := by
  unfold decimalDigits?
  split
  · rename_i second more hdigits
    by_cases hn : n = 0
    · rw [hn, Nat.toDigits_zero] at hdigits
      cases hdigits
    · refine absurd ?_ (head?_toDigits (Nat.pos_of_ne_zero hn))
      rw [hdigits]
      rfl
  · exact ungroup?_eq (allDigits_toDigits n) Nat.toDigits_ne_nil

theorem inRange?_natCast {n : Nat} (hn : n < integerLimit) : inRange? n = some (n : Int) :=
  if_pos ⟨by omega, Int.ofNat_lt.mpr hn⟩

theorem integer?_toDigits {n : Nat} (hn : n < integerLimit) :
    integer? (Nat.toDigits 10 n) = some (n : Int) := by
  have hdigits := allDigits_toDigits n
  unfold integer?
  split
  · rename_i rest h
    exact absurd (h ▸ by simp) (hdigits.notMem (c := 'x') (by decide))
  · rename_i rest h
    exact absurd (h ▸ by simp) (hdigits.notMem (c := 'o') (by decide))
  · rename_i rest h
    exact absurd (h ▸ by simp) (hdigits.notMem (c := 'b') (by decide))
  · rw [splitSign_eq hdigits]
    dsimp only
    rw [decimalDigits?_toDigits, Option.bind_some, if_neg Bool.false_ne_true, ofDigits_map,
      Nat.ofDigitChars_ten_toDigits]
    exact inRange?_natCast hn

/-- **A whole number that TOML holds is read back** from its digits. -/
theorem scalar?_toDigits {n : Nat} (hn : n < integerLimit) :
    scalar? (Nat.toDigits 10 n) = some (.integer n) := by
  have hdigits := allDigits_toDigits n
  have htrue : Nat.toDigits 10 n ≠ ['t', 'r', 'u', 'e'] := by
    intro h
    exact hdigits.notMem (c := 't') (by decide) (h ▸ by decide)
  have hfalse : Nat.toDigits 10 n ≠ ['f', 'a', 'l', 's', 'e'] := by
    intro h
    exact hdigits.notMem (c := 'f') (by decide) (h ▸ by decide)
  unfold scalar?
  rw [if_neg htrue, if_neg hfalse, isDateTime_eq_false hdigits, isFloat_eq_false hdigits,
    integer?_toDigits hn]
  rfl

end Toml

end RuntimeTypes
