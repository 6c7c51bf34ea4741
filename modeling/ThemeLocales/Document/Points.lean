import ThemeLocales.Document.Basic
import ThemeLocales.Text.Points

/-!
# Documents whose texts are code points

A document may come from a text in which surrogates stand alone. It is a document of strings where
there is none of them in its texts and keys (`isPaired`). What can be read of any other one is
`legible`.
-/

set_option autoImplicit false

namespace ThemeLocales.Document

open Text

/-- The value at a name of a map. -/
def valueAt? (name : String) : Document Points → Option (Document Points)
  | .map es => Assoc.get? (points name) es
  | _ => none

mutual

/-- Whether no surrogate stands alone in a text or a key. -/
def isPaired : Document Points → Bool
  | .string s => Text.isPaired s
  | .list ds => isPairedItems ds
  | .map es => isPairedEntries es
  | _ => true

/-- `isPaired` for every item. -/
def isPairedItems : List (Document Points) → Bool
  | [] => true
  | d :: ds => isPaired d && isPairedItems ds

/-- `isPaired` for every key and every value. -/
def isPairedEntries : List (Points × Document Points) → Bool
  | [] => true
  | (key, d) :: es => Text.isPaired key && isPaired d && isPairedEntries es

end

/-- The entries that can be read of a map. If there are none, an entry without a name stands for the
others, so that only an empty map reads as one. -/
def named (es : List (Points × Document Points)) (read : List (String × Document)) :
    List (String × Document) :=
  if read.isEmpty && !es.isEmpty then [("\uFFFD", .null)] else read

mutual

/-- What can be read of a document: its texts as they are shown, and the entries that a string is
the key of. -/
def legible : Document Points → Document
  | .null => .null
  | .bool b => .bool b
  | .int n => .int n
  | .real x => .real x
  | .string s => .string (ofPoints s)
  | .list ds => .list (legibleItems ds)
  | .map es => .map (named es (legibleEntries es))

/-- What can be read of items. -/
def legibleItems : List (Document Points) → List Document
  | [] => []
  | d :: ds => legible d :: legibleItems ds

/-- What can be read of entries. -/
def legibleEntries : List (Points × Document Points) → List (String × Document)
  | [] => []
  | (key, d) :: es =>
    if Text.isPaired key then (ofPoints key, legible d) :: legibleEntries es
    else legibleEntries es

end

end ThemeLocales.Document
