/-
Blanks, line ends and comments of a TOML document.

All of TOML's readers take the characters still to be read and return what they
read with the characters behind it, or nothing.
-/

namespace RuntimeTypes

namespace Toml

/-- A reader of something at the front of a text. -/
abbrev Reader (α : Type) := List Char → Option (α × List Char)

/-- Read one character that has to be there. -/
def expect (c : Char) : List Char → Option (List Char)
  | d :: rest => if d = c then some rest else none
  | [] => none

/-- A space or a tab. -/
def isBlank (c : Char) : Bool := c = ' ' || c = '\t'

/-- A character that may stand in comments and in most strings: a tab, or anything that is no control
character. -/
def isPlain (c : Char) : Bool := c = '\t' || (' ' ≤ c && c ≠ '\x7f')

/-- The text without blanks in front. -/
def skipBlank (cs : List Char) : List Char := cs.dropWhile isBlank

/-- The text behind a line end.  A carriage return alone ends no line. -/
def newline? : List Char → Option (List Char)
  | '\n' :: rest => some rest
  | '\r' :: '\n' :: rest => some rest
  | _ => none

/-- The text behind the end of a line or of the document. -/
def lineEnd? : List Char → Option (List Char)
  | [] => some []
  | cs => newline? cs

/-- The text behind a comment, if there is one. -/
def skipComment : List Char → List Char
  | '#' :: rest => rest.dropWhile isPlain
  | cs => cs

/-- The text behind the rest of a line that may hold blanks and a comment only. -/
def restOfLine? (cs : List Char) : Option (List Char) :=
  lineEnd? (skipComment (skipBlank cs))

/-- The text behind blanks, line ends and comments, each of which ends with its line; `fuel` bounds
the number of lines. -/
def skipLinesIn : (fuel : Nat) → List Char → Option (List Char)
  | 0, _ => none
  | fuel + 1, cs =>
    match skipBlank cs with
    | '#' :: rest => (newline? (rest.dropWhile isPlain)).bind (skipLinesIn fuel)
    | '\n' :: rest => skipLinesIn fuel rest
    | '\r' :: rest => (newline? ('\r' :: rest)).bind (skipLinesIn fuel)
    | rest => some rest

/-- The text behind blanks, line ends and comments. -/
def skipLines? (cs : List Char) : Option (List Char) :=
  skipLinesIn (cs.length + 1) cs

end Toml

end RuntimeTypes
