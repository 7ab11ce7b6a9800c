/-
Strings and keys of a TOML document.

A string stands between double quotes, with escapes, or between single quotes,
without.  Between three quotes of a kind it may run over several lines and hold one
or two quotes in a row, also right before its end; a line end directly behind the
opening quotes does not count.  In a string of double quotes a backslash at the end
of a line joins it to the next text, whatever blanks and lines lie between.

A key is a word of letters, digits, dashes and underscores, or a string of one line.
Keys joined by dots are a path.
-/
import RuntimeTypes.Toml.Blank

namespace RuntimeTypes

namespace Toml

/-- The value of a hexadecimal digit. -/
def hexDigit? (c : Char) : Option Nat :=
  if '0' ≤ c ∧ c ≤ '9' then some (c.toNat - '0'.toNat)
  else if 'a' ≤ c ∧ c ≤ 'f' then some (c.toNat - 'a'.toNat + 10)
  else if 'A' ≤ c ∧ c ≤ 'F' then some (c.toNat - 'A'.toNat + 10)
  else none

/-- Read `width` hexadecimal digits that continue the number `n`. -/
def readHex : (width n : Nat) → Reader Nat
  | 0, n, cs => some (n, cs)
  | _ + 1, _, [] => none
  | width + 1, n, c :: rest => (hexDigit? c).bind fun d => readHex width (n * 16 + d) rest

/-- Read the number of a character, which has to be one. -/
def readScalarValue (width : Nat) : Reader Char := fun cs =>
  match readHex width 0 cs with
  | some (n, rest) => if n.isValidChar then some (Char.ofNat n, rest) else none
  | none => none

/-- Read what stands behind the backslash of an escape. -/
def readEscape : Reader Char
  | 'b' :: rest => some ('\x08', rest)
  | 't' :: rest => some ('\t', rest)
  | 'n' :: rest => some ('\n', rest)
  | 'f' :: rest => some ('\x0c', rest)
  | 'r' :: rest => some ('\r', rest)
  | '"' :: rest => some ('"', rest)
  | '\\' :: rest => some ('\\', rest)
  | 'u' :: rest => readScalarValue 4 rest
  | 'U' :: rest => readScalarValue 8 rest
  | _ => none

/-- Read a string of double quotes behind its opening quote; `fuel` bounds its length. -/
def readBasicIn : (fuel : Nat) → Reader (List Char)
  | 0, _ => none
  | _ + 1, [] => none
  | _ + 1, '"' :: rest => some ([], rest)
  | fuel + 1, '\\' :: rest => do
    let (c, rest) ← readEscape rest
    let (cs, rest) ← readBasicIn fuel rest
    some (c :: cs, rest)
  | fuel + 1, c :: rest =>
    if isPlain c then do
      let (cs, rest) ← readBasicIn fuel rest
      some (c :: cs, rest)
    else
      none

/-- Read a string of single quotes behind its opening quote. -/
def readLiteral : Reader (List Char) := fun cs =>
  let text := cs.takeWhile fun c => isPlain c && c ≠ '\''
  match cs.dropWhile fun c => isPlain c && c ≠ '\'' with
  | '\'' :: rest => some (text, rest)
  | _ => none

/-- What a run of quotes means inside a string between three of them. -/
inductive QuoteRun
  /-- The quotes belong to the string. -/
  | inside
  /-- The last three end the string; those before belong to it. -/
  | ends (before : Nat)
  /-- There are too many. -/
  | tooLong
  deriving DecidableEq, Repr

/-- What a run of this many quotes means. -/
def quoteRun (count : Nat) : QuoteRun :=
  if count < 3 then .inside else if count ≤ 5 then .ends (count - 3) else .tooLong

/-- The text behind blanks and line ends. -/
def skipEmptyLines : List Char → List Char
  | '\r' :: '\n' :: rest => skipEmptyLines rest
  | c :: rest => if isBlank c || c = '\n' then skipEmptyLines rest else c :: rest
  | [] => []

/-- The text behind a backslash that ends a line: what follows the blanks and line ends. -/
def joinLines? (cs : List Char) : Option (List Char) :=
  (newline? (skipBlank cs)).map skipEmptyLines

/-- Read a string between three quotes behind the opening ones; `fuel` bounds its length. -/
def readLongIn (quote : Char) (escapes : Bool) : (fuel : Nat) → Reader (List Char)
  | 0, _ => none
  | _ + 1, [] => none
  | fuel + 1, c :: rest =>
    if c = quote then
      let run := (c :: rest).takeWhile (· = quote)
      let behind := (c :: rest).dropWhile (· = quote)
      match quoteRun run.length with
      | .inside => do
        let (cs, rest) ← readLongIn quote escapes fuel behind
        some (run ++ cs, rest)
      | .ends before => some (List.replicate before quote, behind)
      | .tooLong => none
    else if c = '\\' ∧ escapes then
      match joinLines? rest with
      | some rest => readLongIn quote escapes fuel rest
      | none => do
        let (c, rest) ← readEscape rest
        let (cs, rest) ← readLongIn quote escapes fuel rest
        some (c :: cs, rest)
    else
      match newline? (c :: rest) with
      | some rest => do
        let (cs, rest) ← readLongIn quote escapes fuel rest
        some ('\n' :: cs, rest)
      | none =>
        if isPlain c then do
          let (cs, rest) ← readLongIn quote escapes fuel rest
          some (c :: cs, rest)
        else
          none

/-- Read a string between three quotes behind the opening ones. -/
def readLong (quote : Char) (escapes : Bool) : Reader (List Char) := fun cs =>
  let body := (newline? cs).getD cs
  readLongIn quote escapes (body.length + 1) body

/-- Read a string of one line. -/
def readShortString : Reader (List Char)
  | '"' :: rest => readBasicIn (rest.length + 1) rest
  | '\'' :: rest => readLiteral rest
  | _ => none

/-- Read a string. -/
def readString : Reader (List Char)
  | '"' :: '"' :: '"' :: rest => readLong '"' true rest
  | '\'' :: '\'' :: '\'' :: rest => readLong '\'' false rest
  | cs => readShortString cs

/-- A character of a key without quotes. -/
def isBareKeyChar (c : Char) : Bool := c.isAlphanum || c = '_' || c = '-'

/-- Read one part of a key. -/
def readKeyPart : Reader String := fun cs =>
  match readShortString cs with
  | some (text, rest) => some (String.ofList text, rest)
  | none =>
    let word := cs.takeWhile isBareKeyChar
    if word.isEmpty then none else some (String.ofList word, cs.dropWhile isBareKeyChar)

/-- Read the parts of a key; `fuel` bounds their number. -/
def readKeyIn : (fuel : Nat) → Reader (List String)
  | 0, _ => none
  | fuel + 1, cs => do
    let (part, rest) ← readKeyPart (skipBlank cs)
    match skipBlank rest with
    | '.' :: rest => do
      let (parts, rest) ← readKeyIn fuel rest
      some (part :: parts, rest)
    | rest => some ([part], rest)

/-- How many values stand inside each other at most, and how many parts a key has: fewer than
this. -/
def nestingLimit : Nat := 80

/-- Read a key with the blanks around it. -/
def readKey : Reader (List String) := readKeyIn (nestingLimit - 1)

end Toml

end RuntimeTypes
