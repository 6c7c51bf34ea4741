import ThemeLocales.Document.Access
import ThemeLocales.Document.Display
import ThemeLocales.Provider.Language
import ThemeLocales.World

/-!
# Translations

What a provider answers: a text, its translation and the two languages. The fields are documents,
because an answer may come from a cache file or a service that does not keep to texts.
-/

set_option autoImplicit false

namespace ThemeLocales.Provider

/-- A translation of one text. -/
structure Translation where
  sourceLanguage : Document
  targetLanguage : Document
  sourceText : Document
  translatedText : Document
  deriving Repr

namespace Translation

/-- The translation of a text between two languages. -/
def ofText (source target text : String) (translated : Document) : Translation :=
  ⟨.string source, .string target, .string text, translated⟩

/-- A translation as a document. -/
def toDocument (t : Translation) : Document :=
  .map [("source_lang", t.sourceLanguage), ("target_lang", t.targetLanguage),
    ("source_text", t.sourceText), ("translated_text", t.translatedText)]

/-- A field of an entry; an absent one is the empty text. -/
def field (entry : Document) (name : String) : Document :=
  (entry.get? name).getD (.string "")

/-- The translation that an entry holds. -/
def ofEntry (entry : Document) : Translation :=
  ⟨field entry "source_lang", field entry "target_lang", field entry "source_text",
    field entry "translated_text"⟩

/-- The translation that a document is, which must be an entry. -/
def ofDocument (d : Document) : Except Failure Translation :=
  d.members.map fun _ => ofEntry d

end Translation

/-- A provider: how it translates a text from one language to another. -/
structure Adapter where
  translate : (text source target : String) → LanguageMap → Operation Translation

end ThemeLocales.Provider
