import ThemeLocales.Text.Composition
import ThemeLocales.Text.LowerCase
import ThemeLocales.Url.Direction
import ThemeLocales.Url.Joining
import ThemeLocales.Url.NameTable
import ThemeLocales.Url.Punycode

/-!
# International host names

A host name with characters beyond ASCII is a row of labels, each of which must be a word that such
names may hold; it is written in ASCII, label by label. A label that is in Punycode already must
write such a word.
-/

set_option autoImplicit false

namespace ThemeLocales.Url

open Text

/-! ## Scripts -/

/-- Whether a character of host names is Greek. -/
def isGreek : Char → Bool :=
  isWithin [(0x371, 0x3E1), (0x3F3, 0x3FC), (0x1D26, 0x1D2A), (0x1F00, 0x1FF6), (0xAB65, 0xAB65)]

/-- Whether a character of host names is Hebrew. -/
def isHebrew : Char → Bool :=
  isWithin [(0x591, 0x5F4), (0xFB1E, 0xFB1E)]

/-- Whether a character of host names is kana or a Chinese one. -/
def isJapanese : Char → Bool :=
  isWithin
    [(0x3005, 0x3005), (0x3007, 0x3007), (0x3041, 0x3096), (0x309D, 0x30FA), (0x30FD, 0x30FE),
      (0x31F0, 0x9FFF), (0xFA0E, 0xFA29), (0x16FE3, 0x16FE3), (0x16FF0, 0x16FF1),
      (0x1AFF0, 0x1B167), (0x20000, 0x3134A)]

/-- Whether a character is one of the Arabic digits, or one of their eastern forms. -/
def isArabicDigit (eastern : Bool) : Char → Bool :=
  isWithin [if eastern then (0x6F0, 0x6F9) else (0x660, 0x669)]

/-! ## Words -/

/-- Whether a character may stand in a label between two parts of it. What stands before is given
the last character first. -/
def holdsBetween (label before after : List Char) (c : Char) : Bool :=
  match c.toNat with
  | 0xB7 => before.head? = some 'l' && after.head? = some 'l'
  | 0x375 => after.head?.any isGreek
  | 0x5F3 => before.head?.any isHebrew
  | 0x5F4 => before.head?.any isHebrew
  | 0x200C => endsVowelless before || wouldJoin before after
  | 0x200D => endsVowelless before
  | 0x30FB => label.any isJapanese
  | _ =>
    if isArabicDigit false c then !label.any (isArabicDigit true)
    else if isArabicDigit true c then !label.any (isArabicDigit false)
    else isNameChar c

/-- Whether all characters of the rest of a label may stand where they are. -/
def holdsAll (label before : List Char) : List Char → Bool
  | [] => true
  | c :: cs => holdsBetween label before cs c && holdsAll label (c :: before) cs

/-- Whether a label has hyphens only where they mean nothing. -/
def hasPlainHyphens (label : List Char) : Bool :=
  label.head? ≠ some '-' && label.getLast? ≠ some '-' && (label.drop 2).take 2 ≠ ['-', '-']

/-- Whether a label is a word of a host name. -/
def isWord (label : List Char) : Bool :=
  !label.isEmpty && hasPlainHyphens label && !label.head?.any isMark && isComposed label &&
    holdsAll label [] label && runsOneWay label

/-! ## Labels -/

/-- The front of a label that is written in Punycode. -/
def punycodeMark : List Char := ['x', 'n', '-', '-']

/-- The longest label. -/
def longestLabel : Nat := 63

/-- Whether a text after the mark for Punycode writes a word. -/
def writesWord (cs : List Char) : Bool :=
  !cs.isEmpty && cs.getLast? ≠ some '-' && (Punycode.decode? cs).any isWord

/-- A label in ASCII, if it may stand in a host name. -/
def asciiLabel? (label : List Char) : Option (List Char) :=
  let isPlain := label.all fun c => c.toNat < 0x80
  let isValid :=
    match if isPlain then punycodeMark.isPrefixOf? label else none with
    | some rest => writesWord rest
    | none => isWord label
  let written := if isPlain then label else punycodeMark ++ Punycode.encode label
  if isValid && written.length ≤ longestLabel then some written else none

/-! ## Names -/

/-- The points that labels have between them. -/
def isLabelPoint (c : Char) : Bool :=
  ['.', '\u3002', '\uFF0E', '\uFF61'].contains c

/-- The labels of a name, and whether a point stands at its end. -/
def labels (name : List Char) : List (List Char) × Bool :=
  let all := name.splitOnP isLabelPoint
  if 1 < all.length && all.getLast? = some [] then (all.dropLast, true) else (all, false)

/-- The longest name, without the point at its end. -/
def longestName : Nat := 253

/-- A host name in ASCII, if all its labels are words. -/
def asciiName? (name : String) : Option String := do
  let (words, isClosed) := labels (lowered name.toList)
  let written := ['.'].intercalate (← words.mapM asciiLabel?)
  if written.length ≤ longestName then
    return String.ofList (if isClosed then written ++ ['.'] else written)
  else none

end ThemeLocales.Url
