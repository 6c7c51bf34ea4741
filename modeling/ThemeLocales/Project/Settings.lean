import ThemeLocales.Document.Basic
import ThemeLocales.Provider.Language

/-!
# Settings of a project

Where a project keeps its sources and its locale files, and which languages and provider it uses.
-/

set_option autoImplicit false

namespace ThemeLocales

/-- The settings of a project. The language map and the options of the provider are writable when
they can be put down in full as documents; the options are plain when they are documents as they
are. -/
structure Settings where
  projectRoot : String := ""
  configFile : Option String := none
  sourcePaths : List String := []
  localesPath : String
  schemaPath : String
  defaultLanguage : Option String := none
  targetLanguages : List String := []
  languageMap : Provider.LanguageMap := []
  adapterName : Option String := none
  adapterPath : Option String := none
  adapterOptions : List (String × Document) := []
  cleanUnused : Bool := false
  dryRun : Bool := false
  isWritable : Bool := true
  isPlain : Bool := true

end ThemeLocales
