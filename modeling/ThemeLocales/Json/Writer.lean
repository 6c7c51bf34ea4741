import ThemeLocales.Document.Basic
import ThemeLocales.Number.Shortest
import ThemeLocales.Text.Digit

/-!
# Writing JSON

Two layouts of one text: `compact` has no blanks, `indented` puts each item and each entry on a line
of its own, two spaces deeper than its container. Strings are written with the least escaping: a
quote, a backslash and the control characters below U+0020.
-/

set_option autoImplicit false

namespace ThemeLocales.Json

/-- A character inside a string. -/
def charText (c : Char) : List Char :=
  if c = '"' then ['\\', '"']
  else if c = '\\' then ['\\', '\\']
  else if c = '\n' then ['\\', 'n']
  else if c = '\r' then ['\\', 'r']
  else if c = '\t' then ['\\', 't']
  else if c = '\x08' then ['\\', 'b']
  else if c = '\x0c' then ['\\', 'f']
  else if c.toNat < 0x20 then '\\' :: 'u' :: (Text.padded 16 4 c.toNat).toList
  else [c]

/-- A string between quotes. -/
def stringText (s : String) : List Char :=
  '"' :: s.toList.flatMap charText ++ ['"']

/-- The spelling of the numbers that have no digits. -/
def constantTexts : Binary64.SpecialTexts := ⟨"NaN", "Infinity"⟩

/-- A scalar; containers have no text here. -/
def scalarText : Document → List Char
  | .null => "null".toList
  | .bool b => if b then "true".toList else "false".toList
  | .int n => (toString n).toList
  | .real x => (x.textWith constantTexts).toList
  | .string s => stringText s
  | .list _ => []
  | .map _ => []

mutual

/-- The characters of a document without blanks. -/
def compactChars : Document → List Char
  | .list ds => '[' :: compactItems ds ++ [']']
  | .map es => '{' :: compactEntries es ++ ['}']
  | d => scalarText d

/-- Items with commas between them. -/
def compactItems : List Document → List Char
  | [] => []
  | [d] => compactChars d
  | d :: ds => compactChars d ++ ',' :: compactItems ds

/-- Entries with commas between them. -/
def compactEntries : List (String × Document) → List Char
  | [] => []
  | [(k, d)] => stringText k ++ ':' :: compactChars d
  | (k, d) :: es => stringText k ++ ':' :: compactChars d ++ ',' :: compactEntries es

end

/-- A line feed and the indentation of a level. -/
def newLine (level : Nat) : List Char :=
  '\n' :: List.replicate (2 * level) ' '

mutual

/-- The characters of a document whose own line is indented by a level. -/
def indentedChars (level : Nat) : Document → List Char
  | .list [] => ['[', ']']
  | .list (d :: ds) => '[' :: indentedItems (level + 1) (d :: ds) ++ newLine level ++ [']']
  | .map [] => ['{', '}']
  | .map (e :: es) => '{' :: indentedEntries (level + 1) (e :: es) ++ newLine level ++ ['}']
  | d => scalarText d

/-- Items on lines of their own. -/
def indentedItems (level : Nat) : List Document → List Char
  | [] => []
  | [d] => newLine level ++ indentedChars level d
  | d :: ds => newLine level ++ indentedChars level d ++ ',' :: indentedItems level ds

/-- Entries on lines of their own. -/
def indentedEntries (level : Nat) : List (String × Document) → List Char
  | [] => []
  | [(k, d)] => newLine level ++ stringText k ++ ':' :: ' ' :: indentedChars level d
  | (k, d) :: es =>
    newLine level ++ stringText k ++ ':' :: ' ' :: indentedChars level d ++
      ',' :: indentedEntries level es

end

/-- A document on one line. -/
def compact (d : Document) : String :=
  String.ofList (compactChars d)

/-- A document with one item or entry a line. -/
def indented (d : Document) : String :=
  String.ofList (indentedChars 0 d)

end ThemeLocales.Json
