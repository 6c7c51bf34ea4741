import ThemeLocales.Document.Path
import ThemeLocales.Failure

/-!
# Documents of a kind that is asked for

Most functions on documents read a value of the wrong kind as the empty container. The ones below do
not: they fail on a document that has no members, holds nothing, or has no positions to assign to.
-/

set_option autoImplicit false

namespace ThemeLocales.Document

/-- The entries of a document, which must be a map. -/
def members : Document → Except Failure (List (String × Document))
  | map es => .ok es
  | _ => .error .noMember

/-- What a document holds, one by one: the items of a list, the keys of a map, the characters of a
text. -/
def elements : Document → Except Failure (List Document)
  | list ds => .ok ds
  | map es => .ok (es.map fun (key, _) => string key)
  | string s => .ok (s.toList.map fun c => string c.toString)
  | _ => .error .wrongType

/-- Whether a document is a given text. -/
def isText (text : String) : Document → Bool
  | string s => s = text
  | _ => false

/-- Whether a document holds a text: as a key of a map, an item of a list or a fragment of a
text. -/
def holds (text : String) : Document → Except Failure Bool
  | map es => .ok (Assoc.contains text es)
  | list ds => .ok (ds.any (isText text))
  | string s => .ok (Text.occursIn text s)
  | _ => .error .wrongType

/-- Assigns a value at the position that a dotted key names. Only a map has positions. -/
def assign (dotted : String) (value : Document) : Document → Except Failure Document
  | map es => .ok (map (setDotted dotted value es))
  | _ => .error (if (keyPath dotted).length = 1 then .wrongType else .noMember)

end ThemeLocales.Document
