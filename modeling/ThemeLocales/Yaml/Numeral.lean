import ThemeLocales.Json.Error
import ThemeLocales.Number.Reading
import ThemeLocales.Text.Quoted
import ThemeLocales.Yaml.Cursor

/-!
# Numbers that scalars spell

How a scalar with the tag of a number is read. Underscores are of no account. An integer may be
written in base two, eight, ten or sixteen, and both kinds of numbers in base sixty, as parts with
colons between them. Each part is read as free text is, so blanks may stand around it.
-/

set_option autoImplicit false

namespace ThemeLocales.Yaml.Numeral

/-- A text without its underscores. -/
def withoutLines (text : String) : List Char :=
  text.toList.filter (· != '_')

/-- A sign at the front, of which there may be one: whether it is a minus, and the rest. There must
be a character to begin with. -/
def splitSign (cs : List Char) : Except Error (Bool × List Char) :=
  if cs.isEmpty then .error .emptyNumber else .ok (Number.splitSign cs)

/-- The parts of a text between colons. -/
def parts (cs : List Char) : List String :=
  (cs.splitOn ':').map String.ofList

/-! ## Integers -/

/-- The error of a text that is no integer in a base. -/
def notInteger (base : Nat) (text : String) : Error :=
  .badValue ("invalid literal for int() with base " ++ toString base ++ ": " ++ Text.quoted text)

/-- A part that is an integer in base ten. -/
def decimal (text : String) : Except Error Int :=
  match Number.readInteger text with
  | .ok n => .ok n
  | .error .notInteger => .error (notInteger 10 text)
  | .error (.tooLong digits) => .error (.badValue (Json.longIntegerText digits))

/-- A part that is an integer in another base. -/
def inBase (base : Nat) (cs : List Char) : Except Error Int :=
  match Number.readIntegerIn base (String.ofList cs) with
  | .ok n => .ok n
  | .error _ => .error (notInteger base (String.ofList cs))

/-- The number that parts in base sixty spell. -/
def sixtieths (parts : List Int) : Int :=
  parts.foldl (fun n part => n * 60 + part) 0

/-- An integer without its sign. -/
def unsignedInteger (cs : List Char) : Except Error Int :=
  match cs with
  | [] => .error .emptyNumber
  | ['0'] => .ok 0
  | '0' :: 'b' :: digits => inBase 2 digits
  | '0' :: 'x' :: digits => inBase 16 digits
  | '0' :: digits => inBase 8 ('0' :: digits)
  | cs =>
    if cs.contains ':' then ((parts cs).mapM decimal).map sixtieths
    else decimal (String.ofList cs)

/-- Reads an integer. -/
def integer (text : String) : Except Error Int := do
  let (negative, cs) ← splitSign (withoutLines text)
  let n ← unsignedInteger cs
  return if negative then -n else n

/-! ## Doubles -/

/-- A part that is a double. -/
def decimalReal (text : String) : Except Error Binary64 :=
  match Number.readDouble? text with
  | some x => .ok x
  | none => .error (.badValue ("could not convert string to float: " ++ Text.quoted text))

/-- A power of sixty as a double. -/
def powerOfSixty (n : Nat) : Except Error Binary64 :=
  match Binary64.ofInt? (Nat.pow 60 n : Nat) with
  | some x => .ok x
  | none => .error .overflow

/-- The double that parts in base sixty spell, the last one first. They are added in this order,
each one times its power. -/
def sixtiethsReal (parts : List Binary64) : Except Error Binary64 := do
  let terms ← parts.mapIdxM fun i part => do return part.mul (← powerOfSixty i)
  return terms.foldl Binary64.add .zero

/-- A double with the opposite sign. -/
def negated : Binary64 → Binary64
  | .nan => .nan
  | .infinity negative => .infinity !negative
  | .finite negative m e => .finite (!negative) m e

/-- Reads a double; the word for not a number has none. -/
def real (text : String) : Except Error (Option Binary64) := do
  let (negative, cs) ← splitSign ((withoutLines text).map Number.asciiLower)
  if cs = ".nan".toList then return none
  let x ←
    if cs = ".inf".toList then pure (Binary64.infinity false)
    else if cs.contains ':' then do sixtiethsReal (← (parts cs).mapM decimalReal).reverse
    else decimalReal (String.ofList cs)
  return some (if negative then negated x else x)

end ThemeLocales.Yaml.Numeral
