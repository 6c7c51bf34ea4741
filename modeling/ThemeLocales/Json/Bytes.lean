import ThemeLocales.Json.Reader
import ThemeLocales.Text.Wide

/-!
# JSON as bytes

A JSON document that comes as bytes does not say how its text is encoded. A mark at its front says
it; without one the zero bytes at the front do, since every document begins with two ASCII
characters or is a single one.
-/

set_option autoImplicit false

namespace ThemeLocales.Json

open Text

/-- How the text of a document is encoded. -/
inductive Coding
  | narrow
  | paired (order : ByteOrder)
  | quadruple (order : ByteOrder)
  deriving DecidableEq, Repr

/-- The marks that the bytes of a document may begin with, longer ones before shorter ones. -/
def Coding.marks : List (List UInt8 × Coding) :=
  [([0, 0, 0xFE, 0xFF], .quadruple .bigEndian), ([0xFF, 0xFE, 0, 0], .quadruple .littleEndian),
    ([0xFE, 0xFF], .paired .bigEndian), ([0xFF, 0xFE], .paired .littleEndian),
    ([0xEF, 0xBB, 0xBF], .narrow)]

/-- The encoding that a mark at the front stands for, and the bytes after the mark. -/
def Coding.marked? (bytes : List UInt8) : Option (Coding × List UInt8) :=
  marks.findSome? fun (mark, coding) => (mark.isPrefixOf? bytes).map fun rest => (coding, rest)

/-- The encoding that the zero bytes at the front stand for. -/
def Coding.unmarked (bytes : List UInt8) : Coding :=
  match (bytes.take 4).map (· == 0) with
  | [true, true, _, _] => .quadruple .bigEndian
  | [true, false, _, _] => .paired .bigEndian
  | [false, true, true, true] => .quadruple .littleEndian
  | [false, true, _, _] => .paired .littleEndian
  | [true, _] => .paired .bigEndian
  | [false, true] => .paired .littleEndian
  | _ => .narrow

/-- The text of bytes in an encoding. -/
def Coding.text? (coding : Coding) (bytes : List UInt8) : Option String :=
  match coding with
  | narrow => String.fromUTF8? bytes.toByteArray
  | paired order => ofPairs? order bytes
  | quadruple order => ofQuads? order bytes

/-- The text of a document that comes as bytes. -/
def textOfBytes? (bytes : ByteArray) : Option String :=
  match Coding.marked? bytes.toList with
  | some (coding, rest) => coding.text? rest
  | none => (Coding.unmarked bytes.toList).text? bytes.toList

/-- The document that bytes hold. -/
def parseBytes? (bytes : ByteArray) : Option Document :=
  (textOfBytes? bytes).bind fun s => (parse s).toOption

end ThemeLocales.Json
