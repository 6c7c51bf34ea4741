import ThemeLocales.Number.Binary64
import ThemeLocales.Text.Blank
import ThemeLocales.Text.Digit

/-!
# Reading numbers from free text

The number syntax of options and headers: blanks around the number, a sign, digits of any script,
single underscores between digits, and for doubles a fraction, an exponent, infinities and not a
number.
-/

set_option autoImplicit false

namespace ThemeLocales.Number

open Text

/-- Digits of any script as ASCII digits and wide blanks as spaces; ASCII stays as it is. -/
def plainChar (c : Char) : Char :=
  if c.toNat < 0x80 then c
  else match digitValue? c with
    | some d => Char.ofNat (48 + d)
    | none => if isBlank c then ' ' else c

/-- The blanks of ASCII that may stand around a number. The information separators are none. -/
def isMargin (c : Char) : Bool :=
  c = ' ' || (9 ≤ c.toNat && c.toNat ≤ 13)

/-- The text with plain digits and without blanks around it. -/
def plainText (s : String) : List Char :=
  (((s.toList.map plainChar).dropWhile isMargin).reverse.dropWhile isMargin).reverse

/-- Removes underscores, each of which must stand between two digits; the first argument tells
whether the character before is a digit. -/
def withoutUnderscores : Bool → List Char → Option (List Char)
  | _, [] => some []
  | afterDigit, '_' :: c :: rest =>
    if afterDigit && isAsciiDigit c then (withoutUnderscores true rest).map (c :: ·) else none
  | _, ['_'] => none
  | _, c :: rest => (withoutUnderscores (isAsciiDigit c) rest).map (c :: ·)

/-- A sign at the front: whether it is a minus, and the rest. -/
def splitSign : List Char → Bool × List Char
  | '-' :: rest => (true, rest)
  | '+' :: rest => (false, rest)
  | rest => (false, rest)

/-- An exponent part that ends the text; the empty text is the exponent zero. -/
def exponentPart? : List Char → Option Int
  | [] => some 0
  | c :: rest =>
    if c = 'e' || c = 'E' then
      let (negative, digits) := splitSign rest
      if digits.isEmpty || !digits.all isAsciiDigit then none
      else some (if negative then -(digitsValue digits : Int) else digitsValue digits)
    else none

/-- An unsigned decimal: whole digits, an optional fraction and an optional exponent. -/
def unsignedDecimal? (cs : List Char) : Option (Nat × Int) :=
  let (whole, rest) := cs.span isAsciiDigit
  let (fraction, rest) := match rest with
    | '.' :: r => r.span isAsciiDigit
    | r => ([], r)
  if whole.isEmpty && fraction.isEmpty then none
  else (exponentPart? rest).map fun e => (digitsValue (whole ++ fraction), e - fraction.length)

/-- Small ASCII letters for capital ones. -/
def asciiLower (c : Char) : Char :=
  if 'A' ≤ c && c ≤ 'Z' then Char.ofNat (c.toNat + 32) else c

/-- Reads a double. -/
def readDouble? (s : String) : Option Binary64 := do
  let cs ← withoutUnderscores false (plainText s)
  let (negative, unsigned) := splitSign cs
  let word := String.ofList (unsigned.map asciiLower)
  if word = "inf" || word = "infinity" then some (.infinity negative)
  else if word = "nan" then some .nan
  else (unsignedDecimal? unsigned).map fun (digits, e) => .ofDecimal negative digits e

/-- The most digits that an integer may be written with. -/
def longestInteger : Nat := 4300

/-- Why a text is no integer. -/
inductive IntegerError
  | notInteger
  | tooLong (digits : Nat)
  deriving DecidableEq, Repr

/-- A natural with a sign. -/
def signed (negative : Bool) (n : Nat) : Int :=
  if negative then -(n : Int) else n

/-- Reads an integer in base ten. -/
def readInteger (s : String) : Except IntegerError Int :=
  match withoutUnderscores false (plainText s) with
  | none => .error .notInteger
  | some cs =>
    let (negative, digits) := splitSign cs
    if digits.isEmpty || !digits.all isAsciiDigit then .error .notInteger
    else if longestInteger < digits.length then .error (.tooLong digits.length)
    else .ok (signed negative (digitsValue digits))

/-- The number that digits of a base spell; at least one digit. -/
def digitsIn? (base : Nat) (cs : List Char) : Option Nat :=
  if cs.isEmpty then none
  else cs.foldlM (fun n c => ((baseDigit? c).filter (· < base)).map (n * base + ·)) 0

/-- The letter that may stand after a zero in front of the digits of a base. -/
def baseLetter? : Nat → Option Char
  | 2 => some 'b'
  | 8 => some 'o'
  | 16 => some 'x'
  | _ => none

/-- Digits without the mark of their base, if they have one. -/
def withoutBaseMark (base : Nat) : List Char → List Char
  | '0' :: c :: digits =>
    if baseLetter? base = some (asciiLower c) then digits else '0' :: c :: digits
  | digits => digits

/-- Reads an integer in base two, eight or sixteen, whose digits hold no underscores. There may be
any number of them. -/
def readIntegerIn (base : Nat) (s : String) : Except IntegerError Int :=
  let (negative, digits) := splitSign (plainText s)
  match digitsIn? base (withoutBaseMark base digits) with
  | some n => .ok (signed negative n)
  | none => .error .notInteger

end ThemeLocales.Number
