/-
Words of a TOML document: numbers, truth values, dates and times.

All of them consist of letters, digits and a few signs, so a reader takes the whole
word and then asks what it is.  Only a date may go on behind a space, with a time.

Numbers are decimal, or whole, without a sign and with another base; underscores
stand between digits.  Whole numbers fit into 64 bits, and no positive number is too
large for a binary floating-point number of double precision.
-/
import RuntimeTypes.Toml.Value
import RuntimeTypes.Toml.Text
import RuntimeTypes.Toml.Time

namespace RuntimeTypes

namespace Toml

/-- A character of a word. -/
def isWordChar (c : Char) : Bool :=
  c.isAlphanum || c = '_' || c = '+' || c = '-' || c = '.' || c = ':'

/-! ### Numbers -/

/-- The digits of a number of this base without the underscores, each of which stands between two
digits. -/
def ungroup? (base : Nat) : List Char → Option (List Nat)
  | [] => none
  | [c] => (digit? c).map ([·])
  | c :: '_' :: rest => do
    let d ← digit? c
    let ds ← ungroup? base rest
    some (d :: ds)
  | c :: rest => do
    let d ← digit? c
    let ds ← ungroup? base rest
    some (d :: ds)
where
  /-- The value of a digit of the base. -/
  digit? (c : Char) : Option Nat := (hexDigit? c).filter (· < base)

/-- The number with these digits. -/
def ofDigits (base : Nat) (ds : List Nat) : Nat :=
  ds.foldl (fun n d => n * base + d) 0

/-- The digits of a decimal number, which does not start with a zero unless it is zero. -/
def decimalDigits? (cs : List Char) : Option (List Nat) :=
  match cs with
  | '0' :: _ :: _ => none
  | _ => ungroup? 10 cs

/-- A sign and what stands behind it; no sign is a plus. -/
def splitSign : List Char → Bool × List Char
  | '-' :: rest => (true, rest)
  | '+' :: rest => (false, rest)
  | cs => (false, cs)

/-- Whole numbers are below this limit, and not below its negative: 64 bits hold them. -/
def integerLimit : Nat := 9223372036854775808

/-- A whole number that fits into 64 bits. -/
def inRange? (n : Int) : Option Int :=
  if -(integerLimit : Int) ≤ n ∧ n < integerLimit then some n else none

/-- The whole number that a word is. -/
def integer? (word : List Char) : Option Int :=
  match word with
  | '0' :: 'x' :: rest => (ungroup? 16 rest).bind fun ds => inRange? (ofDigits 16 ds)
  | '0' :: 'o' :: rest => (ungroup? 8 rest).bind fun ds => inRange? (ofDigits 8 ds)
  | '0' :: 'b' :: rest => (ungroup? 2 rest).bind fun ds => inRange? (ofDigits 2 ds)
  | _ =>
    let (negative, digits) := splitSign word
    (decimalDigits? digits).bind fun ds =>
      inRange? (if negative then -(ofDigits 10 ds : Int) else ofDigits 10 ds)

/-- The least number too large for double precision: half a unit above the largest. -/
def doubleLimit : Nat := Nat.pow 2 1024 - Nat.pow 2 970

/-- Whether `mantissa * 10 ^ exponent` is too large for double precision. -/
def overflowsDouble (mantissa : Nat) (exponent : Int) : Bool :=
  let magnitude : Int := (Nat.toDigits 10 mantissa).length + exponent
  if mantissa = 0 ∨ magnitude < 308 then
    false
  else if 310 < magnitude then
    true
  else if 0 ≤ exponent then
    decide (doubleLimit ≤ mantissa * Nat.pow 10 exponent.toNat)
  else
    decide (doubleLimit * Nat.pow 10 (-exponent).toNat ≤ mantissa)

/-- The digits behind the point, if there is one; `none` if there are no digits. -/
def fraction? (cs : List Char) : Option (List Nat) :=
  match cs with
  | [] => some []
  | _ :: digits => ungroup? 10 digits

/-- The exponent behind its letter, if there is one. -/
def exponent? (cs : List Char) : Option Int :=
  match cs with
  | [] => some 0
  | _ :: rest =>
    let (negative, digits) := splitSign rest
    (ungroup? 10 digits).map fun ds =>
      if negative then -(ofDigits 10 ds : Int) else ofDigits 10 ds

/-- Whether a word is a floating-point number. -/
def isFloat (word : List Char) : Bool :=
  let (negative, unsigned) := splitSign word
  if unsigned = ['i', 'n', 'f'] ∨ unsigned = ['n', 'a', 'n'] then
    true
  else
    let isExponentMark := fun c => c = 'e' || c = 'E'
    let mantissa := unsigned.takeWhile (!isExponentMark ·)
    let exponent := unsigned.dropWhile (!isExponentMark ·)
    let whole := mantissa.takeWhile (· ≠ '.')
    let fraction := mantissa.dropWhile (· ≠ '.')
    if exponent.isEmpty && fraction.isEmpty then
      false
    else
      match decimalDigits? whole, fraction? fraction, exponent? exponent with
      | some ws, some fs, some e =>
        negative || !overflowsDouble (ofDigits 10 (ws ++ fs)) (e - fs.length)
      | _, _, _ => false

/-! ### Words -/

/-- The value that a word is. -/
def scalar? (word : List Char) : Option Value :=
  if word = ['t', 'r', 'u', 'e'] then some (.boolean true)
  else if word = ['f', 'a', 'l', 's', 'e'] then some (.boolean false)
  else if isDateTime word then some (.time (String.ofList word))
  else if isFloat word then some (.float (String.ofList word))
  else (integer? word).map .integer

/-- Read a word, and a second one behind a date and a space. -/
def readScalar : Reader Value := fun cs =>
  let word := cs.takeWhile isWordChar
  match cs.dropWhile isWordChar with
  | ' ' :: c :: rest =>
    if isDate word && isDigit c then
      let clock := (c :: rest).takeWhile isWordChar
      if isTimeWithOffset clock then
        some (.time (String.ofList (word ++ ' ' :: clock)), (c :: rest).dropWhile isWordChar)
      else
        none
    else
      (scalar? word).map fun v => (v, ' ' :: c :: rest)
  | rest => (scalar? word).map fun v => (v, rest)

end Toml

end RuntimeTypes
