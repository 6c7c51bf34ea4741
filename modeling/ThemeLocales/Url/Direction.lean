import ThemeLocales.Text.Mark

/-!
# Directions in host names

Which way the characters of host names run, and when those of a label agree. Only characters that
host names may hold are told apart.
-/

set_option autoImplicit false

namespace ThemeLocales.Url

open Text

/-- The ways characters run. Digits run from left to right among letters of either direction. -/
inductive Direction
  | leftToRight
  | rightToLeft
  | digit
  | arabicDigit
  | mark
  | neutral
  deriving DecidableEq, Repr

/-- Ranges of letters that run from right to left. -/
def rightToLeftRanges : List (Nat × Nat) :=
  [(0x5D0, 0x64A), (0x66E, 0x6EF), (0x6FA, 0x8C9), (0xFE73, 0xFE73), (0x10800, 0x10D23),
    (0x10E80, 0x10FF6), (0x1E800, 0x1E959)]

/-- Ranges of digits that stand among letters that run from right to left only. -/
def arabicDigitRanges : List (Nat × Nat) :=
  [(0x660, 0x669), (0x10D30, 0x10D39)]

/-- Ranges of other digits. -/
def digitRanges : List (Nat × Nat) :=
  [(0x30, 0x39), (0x6F0, 0x6F9)]

/-- Ranges of characters without a direction. -/
def neutralRanges : List (Nat × Nat) :=
  [(0x2D, 0x2D), (0xB7, 0xB7), (0x2B9, 0x2BA), (0x2C6, 0x2CF), (0x2EC, 0x2EC), (0x375, 0x375),
    (0x200C, 0x200D), (0x2E2F, 0x2E2F), (0x30FB, 0x30FB), (0xA67F, 0xA67F), (0xA717, 0xA71F),
    (0xA788, 0xA788)]

/-- The way a character runs. -/
def directionOf (c : Char) : Direction :=
  if isUndirectedMark c then .mark
  else if isWithin rightToLeftRanges c then .rightToLeft
  else if isWithin arabicDigitRanges c then .arabicDigit
  else if isWithin digitRanges c then .digit
  else if isWithin neutralRanges c then .neutral
  else .leftToRight

/-- Whether a label may end with a direction, apart from marks. -/
def endsRightToLeft : Direction → Bool
  | .rightToLeft => true
  | .digit => true
  | .arabicDigit => true
  | _ => false

/-- Whether the directions of a label agree, in which something runs from right to left: it begins
with such a letter, ends with one or with a digit, and has digits of one kind and nothing that runs
from left to right. -/
def runRightToLeft (directions : List Direction) : Bool :=
  directions.head? = some .rightToLeft &&
    !directions.contains .leftToRight &&
    !(directions.contains .digit && directions.contains .arabicDigit) &&
    ((directions.reverse.dropWhile (· = .mark)).head?.any endsRightToLeft)

/-- Whether the directions of a label's characters agree. -/
def runsOneWay (label : List Char) : Bool :=
  let directions := label.map directionOf
  if directions.contains .rightToLeft || directions.contains .arabicDigit then
    runRightToLeft directions
  else true

end ThemeLocales.Url
