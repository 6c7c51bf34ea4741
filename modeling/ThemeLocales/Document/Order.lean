import ThemeLocales.Document.Basic
import ThemeLocales.Number.Shortest
import ThemeLocales.Text.Units

/-!
# Order of list items

Items of a list are ordered by a text form of each, compared by UTF-16 code units. All maps share
one text form, so a sort keeps them in their relative order.
-/

set_option autoImplicit false

namespace ThemeLocales.Document

/-- Texts with commas between them. -/
def joinCommas : List String → String
  | [] => ""
  | [s] => s
  | s :: rest => s ++ "," ++ joinCommas rest

mutual

/-- The text form by which an item is ordered. An integral double has the form of the integer, and
null is empty inside a list. -/
def sortText : Document → String
  | .null => "null"
  | .bool b => if b then "true" else "false"
  | .int n => toString n
  | .real x =>
    match x.toInt? with
    | some n => toString n
    | none => x.text
  | .string s => s
  | .list ds => joinCommas (sortTexts ds)
  | .map _ => "[object Object]"

/-- The text forms of the items inside a list. -/
def sortTexts : List Document → List String
  | [] => []
  | .null :: ds => "" :: sortTexts ds
  | d :: ds => sortText d :: sortTexts ds

end

/-- The code units by which an item is ordered. -/
def sortUnits (d : Document) : List Nat :=
  Text.units (sortText d)

/-- Whether an item does not come after another. -/
def sortsBefore (a b : Document) : Bool :=
  Text.unitsLE (sortUnits a) (sortUnits b)

/-- The items in order; items of equal form keep their relative order. -/
def sorted (ds : List Document) : List Document :=
  ds.mergeSort sortsBefore

end ThemeLocales.Document
