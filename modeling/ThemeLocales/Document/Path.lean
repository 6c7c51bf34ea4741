import ThemeLocales.Document.Basic
import ThemeLocales.Text.Search

/-!
# Key paths

A dotted key names a position below a map, one key for each part between dots. `setAt` assigns a
value at a position and creates the maps on the way; what stands on the way and is no map gives
place to one.
-/

set_option autoImplicit false

namespace ThemeLocales.Document

/-- The keys that a dotted key passes through. There is always at least one. -/
def keyPath (dotted : String) : List String :=
  Text.pieces '.' dotted

/-- Assigns a value at a path below entries. -/
def setAt (value : Document) : List String → List (String × Document) → List (String × Document)
  | [], es => es
  | [key], es => Assoc.set key value es
  | key :: rest, es =>
    Assoc.set key (.map (setAt value rest (orNull (Assoc.get? key es)).entries)) es

/-- Assigns a value at the position that a dotted key names. -/
def setDotted (dotted : String) (value : Document) (es : List (String × Document)) :
    List (String × Document) :=
  setAt value (keyPath dotted) es

/-- The value at a path, reached through maps only. -/
def at? : List String → Document → Option Document
  | [], d => some d
  | key :: rest, d => (d.get? key).bind (at? rest)

/-- The document that assigning all entries of a table builds from nothing. -/
def expand (table : List (String × Document)) : Document :=
  .map (table.foldl (fun es (key, value) => setDotted key value es) [])

end ThemeLocales.Document
