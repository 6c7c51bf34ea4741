/-!
# Why a text is no JSON document

A text is refused for its form, for an integer of too many digits, or, by a strict reader, for one
of the three constants that the standard does not know. A malformed text is reported with the line,
the column and the offset of the place where reading stopped. A document is no document of strings
where a surrogate stands alone in it.
-/

set_option autoImplicit false

namespace ThemeLocales.Json

/-- What a reader missed or met. -/
inductive Fault
  | expectedValue
  | expectedName
  | expectedColon
  | expectedComma
  | extraData
  | unterminatedString
  | controlCharacter
  | badEscape
  | badUnicodeEscape
  | byteOrderMark
  deriving DecidableEq, Repr

/-- The wording of a fault. -/
def Fault.text : Fault → String
  | expectedValue => "Expecting value"
  | expectedName => "Expecting property name enclosed in double quotes"
  | expectedColon => "Expecting ':' delimiter"
  | expectedComma => "Expecting ',' delimiter"
  | extraData => "Extra data"
  | unterminatedString => "Unterminated string starting at"
  | controlCharacter => "Invalid control character at"
  | badEscape => "Invalid \\escape"
  | badUnicodeEscape => "Invalid \\uXXXX escape"
  | byteOrderMark => "Unexpected UTF-8 BOM (decode using utf-8-sig)"

/-- A place in a text: line and column from one, offset from zero. -/
structure Place where
  line : Nat
  column : Nat
  offset : Nat
  deriving DecidableEq, Repr

/-- The place where a suffix of a text begins. -/
def Place.ofSuffix (text suffix : List Char) : Place :=
  let before := text.take (text.length - suffix.length)
  let lineStart := (before.reverse.takeWhile (· != '\n')).length
  ⟨before.count '\n' + 1, lineStart + 1, before.length⟩

/-- Why a text was refused. -/
inductive Error
  | malformed (fault : Fault) (place : Place)
  | longInteger (digits : Nat)
  | refusedConstant (name : String)
  | unpaired
  deriving DecidableEq, Repr

/-- The wording of an integer with more digits than are converted. -/
def longIntegerText (digits : Nat) : String :=
  "Exceeds the limit (4300 digits) for integer string conversion: value has " ++
    toString digits ++ " digits; use sys.set_int_max_str_digits() to increase the limit"

/-- The text of a refusal. -/
def Error.message : Error → String
  | malformed fault place =>
    fault.text ++ ": line " ++ toString place.line ++ " column " ++ toString place.column ++
      " (char " ++ toString place.offset ++ ")"
  | longInteger digits => longIntegerText digits
  | refusedConstant name => "Non-standard JSON constant '" ++ name ++ "'"
  | unpaired => "a surrogate stands alone"

end ThemeLocales.Json
