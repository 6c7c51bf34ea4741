import ThemeLocales.Document.Basic
import ThemeLocales.Number.Shortest
import ThemeLocales.Text.Quoted

/-!
# Documents inside messages

How a document is shown in the text of a message. `display` quotes texts; `shown` leaves a document
that is a text alone as it is.
-/

set_option autoImplicit false

namespace ThemeLocales.Document

/-- Texts with a comma and a space between them. -/
def joinSpaced : List String → String
  | [] => ""
  | [s] => s
  | s :: rest => s ++ ", " ++ joinSpaced rest

mutual

/-- A document in a message. -/
def display : Document → String
  | .null => "None"
  | .bool b => if b then "True" else "False"
  | .int n => toString n
  | .real x => x.text
  | .string s => Text.quoted s
  | .list ds => "[" ++ joinSpaced (displayItems ds) ++ "]"
  | .map es => "\x7b" ++ joinSpaced (displayEntries es) ++ "\x7d"

/-- The items of a list in a message. -/
def displayItems : List Document → List String
  | [] => []
  | d :: ds => display d :: displayItems ds

/-- The entries of a map in a message. -/
def displayEntries : List (String × Document) → List String
  | [] => []
  | (key, d) :: es => (Text.quoted key ++ ": " ++ display d) :: displayEntries es

end

/-- A document in a message, a text without quotes. -/
def shown : Document → String
  | .string s => s
  | d => d.display

end ThemeLocales.Document
