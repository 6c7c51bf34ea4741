import ThemeLocales.Text.Digit

/-!
# Escapes in addresses

A character that a part of an address cannot hold is written as the percent escapes of its UTF-8
bytes. A percent sign is kept everywhere, so escaping a text twice is escaping it once. The fields
of a form are escaped by rules of their own.
-/

set_option autoImplicit false

namespace ThemeLocales.Url

open Text

/-- The percent escape of a byte. -/
def escapedByte (b : UInt8) : List Char :=
  '%' :: (padded 16 2 b.toNat).toList.map Char.toUpper

/-- The percent escapes of the bytes of a character. -/
def escapedChar (c : Char) : List Char :=
  c.toString.toUTF8.toList.flatMap escapedByte

/-- A text with escapes for the characters that are not kept. -/
def escaped (keeps : Char → Bool) (s : String) : String :=
  String.ofList (s.toList.flatMap fun c => if keeps c then [c] else escapedChar c)

/-- Whether a character is a letter or a digit of ASCII. -/
def isAsciiAlphanumeric (c : Char) : Bool :=
  (baseDigit? c).isSome

/-- Whether a character may stand anywhere in an address. -/
def isUnreserved (c : Char) : Bool :=
  isAsciiAlphanumeric c || ['-', '.', '_', '~'].contains c

/-- Whether a character is a visible one of ASCII and none of those given. -/
def isVisibleExcept (refused : List Char) (c : Char) : Bool :=
  0x20 < c.toNat && c.toNat < 0x7F && !refused.contains c

/-- Whether a fragment holds a character as it is. -/
def isFragmentChar : Char → Bool :=
  isVisibleExcept "\"<>`".toList

/-- Whether a query holds a character as it is. -/
def isQueryChar : Char → Bool :=
  isVisibleExcept "\"#<>".toList

/-- Whether a path holds a character as it is. -/
def isPathChar : Char → Bool :=
  isVisibleExcept "\"#<>?`\x7b\x7d".toList

/-- Whether the part before the host holds a character as it is. -/
def isUserChar (c : Char) : Bool :=
  isPathChar c && !"/;=@[\\]^|".toList.contains c

/-- Whether a host name holds a character as it is. -/
def isHostChar (c : Char) : Bool :=
  isUnreserved c || "!$&'()*+,;=\"`\x7b\x7d%|\\".toList.contains c

/-! ## Forms -/

/-- A text as a form writes it: a plus sign for a blank, escapes for what is not unreserved. -/
def formText (s : String) : String :=
  String.ofList (s.toList.flatMap fun c =>
    if isUnreserved c then [c] else if c = ' ' then ['+'] else escapedChar c)

/-- The fields of a form, in order. -/
def formQuery (fields : List (String × String)) : String :=
  "&".intercalate (fields.map fun (name, value) => formText name ++ "=" ++ formText value)

end ThemeLocales.Url
