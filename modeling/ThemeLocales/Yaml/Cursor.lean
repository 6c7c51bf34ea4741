import ThemeLocales.Failure
import ThemeLocales.Text.Digit
import ThemeLocales.Text.Search

/-!
# Places in a YAML text

A cursor is what is left of a text, with its line, its column and its distance from the start. A
text is malformed at a place; a scalar that does not spell the value that its tag promises is an
error of another kind, and a reader of documents may fail with anything else. The length of the
whole text bounds every loop over what is left.
-/

set_option autoImplicit false

namespace ThemeLocales.Yaml

/-- Why a document cannot be loaded. -/
inductive Error
  | malformed (problem : String) (line column : Nat)
  | badValue (message : String)
  | unknownWord (word : String)
  /-- A number has no characters, or none after its sign. -/
  | emptyNumber
  /-- A number lies beyond what can be held. -/
  | overflow
  /-- Anything else goes wrong. -/
  | failed (failure : Failure)
  deriving DecidableEq, Repr

/-- The text of an error. -/
def Error.message : Error → String
  | malformed problem line column =>
    problem ++ ", line " ++ toString (line + 1) ++ ", column " ++ toString (column + 1)
  | badValue text => text
  | unknownWord word => word
  | emptyNumber => "a number has no digits"
  | overflow => "a number is too large"
  | failed failure => failure.message

/-- A place in a text. The bound is greater than the length of the text. -/
structure Cursor where
  rest : List Char
  bound : Nat
  line : Nat := 0
  column : Nat := 0
  index : Nat := 0
  deriving Repr

/-- Whether a character ends a line. -/
def isBreak (c : Char) : Bool :=
  c = '\n' || c = '\r' || c = '\x85' || c = '\u2028' || c = '\u2029'

/-- Whether there is no further character on the line. -/
def isBreakOrEnd : Option Char → Bool
  | none => true
  | some c => isBreak c

/-- Whether a space, a line end or the end of the text comes next. -/
def isSpaceOrEnd : Option Char → Bool
  | none => true
  | some c => c = ' ' || isBreak c

/-- Whether a space, a tab, a line end or the end of the text comes next. -/
def isGapOrEnd : Option Char → Bool
  | none => true
  | some c => c = ' ' || c = '\t' || isBreak c

/-- The byte order mark, which takes no column. -/
def byteOrderMark : Char := '\uFEFF'

namespace Cursor

/-- The start of a text. -/
def start (text : List Char) : Cursor :=
  { rest := text, bound := text.length + 1 }

/-- The next character. -/
def peek (c : Cursor) : Option Char := c.rest.head?

/-- The character at a distance. -/
def peekAt (c : Cursor) (n : Nat) : Option Char := c.rest[n]?

/-- The place after one character. -/
def step (c : Cursor) : Cursor :=
  match c.rest with
  | [] => c
  | ch :: rest =>
    if isBreak ch && !(ch = '\r' && rest.head? = some '\n') then
      { c with rest, line := c.line + 1, column := 0, index := c.index + 1 }
    else if ch = byteOrderMark then { c with rest, index := c.index + 1 }
    else { c with rest, column := c.column + 1, index := c.index + 1 }

/-- The place after some characters. -/
def advance : Nat → Cursor → Cursor
  | 0, c => c
  | n + 1, c => advance n c.step

/-- The characters at the front of a class, and the place after them. -/
def takeWhile (p : Char → Bool) (c : Cursor) : List Char × Cursor :=
  let taken := c.rest.takeWhile p
  (taken, c.advance taken.length)

/-- The place after the characters of a class. -/
def dropWhile (p : Char → Bool) (c : Cursor) : Cursor :=
  (c.takeWhile p).2

/-- The place after spaces. -/
def dropSpaces (c : Cursor) : Cursor := c.dropWhile (· = ' ')

/-- An error at a place. -/
def fail {α : Type} (c : Cursor) (problem : String) : Except Error α :=
  .error (.malformed problem c.line c.column)

/-- The line end at a place, as the text it stands for, and the place after it. -/
def takeBreak (c : Cursor) : List Char × Cursor :=
  match c.rest with
  | '\r' :: '\n' :: _ => (['\n'], c.advance 2)
  | ch :: _ =>
    if ch = '\u2028' || ch = '\u2029' then ([ch], c.step)
    else if isBreak ch then (['\n'], c.step)
    else ([], c)
  | [] => ([], c)

/-- Whether a line begins with a mark that separates documents, followed by a gap. -/
def atSeparator (c : Cursor) : Bool :=
  let front := c.rest.take 3
  (front = ['-', '-', '-'] || front = ['.', '.', '.']) && isGapOrEnd (c.peekAt 3)

/-- The place after the spaces and a comment at the end of a line, and after the line end; anything
else is an error. -/
def endLine (c : Cursor) : Except Error Cursor :=
  let c := c.dropSpaces
  let c := if c.peek = some '#' then c.dropWhile (!isBreak ·) else c
  if isBreakOrEnd c.peek then .ok c.takeBreak.2
  else c.fail "expected a comment or a line break"

end Cursor

end ThemeLocales.Yaml
