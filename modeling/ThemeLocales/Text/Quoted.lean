import ThemeLocales.Text.Digit
import ThemeLocales.Text.Printable

/-!
# Quoted display of a text

How a text is shown inside a message: between quotes, with escapes for what cannot be printed. A
text with an apostrophe and no double quote stands between double quotes, any other between
apostrophes.
-/

set_option autoImplicit false

namespace ThemeLocales.Text

/-- The quote that a text is shown in. -/
def quoteFor (cs : List Char) : Char :=
  if cs.contains '\'' && !cs.contains '"' then '"' else '\''

/-- How one character is shown between the given quotes. -/
def shownChar (quote c : Char) : List Char :=
  let n := c.toNat
  if c = quote || c = '\\' then ['\\', c]
  else if c = '\n' then ['\\', 'n']
  else if c = '\r' then ['\\', 'r']
  else if c = '\t' then ['\\', 't']
  else if isPrintable c then [c]
  else if n < 0x100 then '\\' :: 'x' :: (padded 16 2 n).toList
  else if n < 0x10000 then '\\' :: 'u' :: (padded 16 4 n).toList
  else '\\' :: 'U' :: (padded 16 8 n).toList

/-- The quoted display of a text. -/
def quoted (s : String) : String :=
  let quote := quoteFor s.toList
  String.ofList (quote :: s.toList.flatMap (shownChar quote) ++ [quote])

/-- How one byte is shown between the given quotes: as the ASCII character that it is, else by its
number. -/
def shownByte (quote : Char) (b : UInt8) : List Char :=
  if b < 0x80 then shownChar quote (Char.ofNat b.toNat)
  else '\\' :: 'x' :: (padded 16 2 b.toNat).toList

/-- The quoted display of bytes, with a letter in front that tells them from a text. -/
def quotedBytes (bytes : List UInt8) : String :=
  let quote := quoteFor (bytes.map fun b => Char.ofNat b.toNat)
  String.ofList ('b' :: quote :: bytes.flatMap (shownByte quote) ++ [quote])

end ThemeLocales.Text
