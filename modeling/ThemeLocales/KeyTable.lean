import ThemeLocales.Document.Access
import ThemeLocales.Document.Merge
import ThemeLocales.Template.SchemaBlock

/-!
# Key tables

The keys of one source text, and the two documents that keys go to. A key with the prefix `schema.`
belongs to the schema document and loses the prefix there; every other key belongs to the normal
document.
-/

set_option autoImplicit false

namespace ThemeLocales.KeyTable

/-- The first part of the keys of the schema document. -/
def schemaFront : List Char := "schema.".toList

/-- The keys of a source text. Where a template and a schema block both have a key, the template
decides its default. -/
def ofContent (text : String) : KeyTable :=
  (Document.merge .preserve (.map (Template.scanKeys text))
    (.map (Template.scanSchemaKeys text))).entries

/-- The part of a key that names it in the schema document. -/
def schemaPart? (key : String) : Option String :=
  (Text.after? schemaFront key.toList).map String.ofList

/-- The keys of the normal document. -/
def normalKeys (table : KeyTable) : KeyTable :=
  table.filter fun (key, _) => (schemaPart? key).isNone

/-- The keys of the schema document, without their prefix. -/
def schemaKeys (table : KeyTable) : KeyTable :=
  table.filterMap fun (key, value) => (schemaPart? key).map fun part => (part, value)

/-- Adds the keys of a further source; a key keeps the first default that is content. -/
def add (table more : KeyTable) : KeyTable :=
  (Document.merge .preserve (.map table) (.map more)).entries

/-- Adds the keys of one region to a document. A document that is no table may hold a key, but takes
none. -/
def scanInto (region : String) : Document → Except Failure Document
  | .map es => .ok (.map (Template.scanRegion es region))
  | d => do
    for (key, _) in Template.scanRegion [] region do
      if !(← d.holds key) then throw .wrongType
    return d

end ThemeLocales.KeyTable
