import ThemeLocales.Json.Writer
import ThemeLocales.Project.Languages

/-!
# Locale files

Each language has two locale files, a normal one and one for the settings schema. A locale file that
is missing or cannot be read counts as an empty document. One in which a surrogate stands alone can
be read, but its document is none of strings, and no run is followed further than to it.
-/

set_option autoImplicit false

namespace ThemeLocales.Project

open Operation

/-- The two kinds of locale files. -/
inductive LocaleKind
  | normal
  | schema
  deriving DecidableEq, Repr

/-- What the name of a locale file has after the language and a dot. -/
def LocaleKind.suffix : LocaleKind → String
  | normal => "json"
  | schema => "schema.json"

/-- The kinds in the order in which they are worked on. -/
def LocaleKind.all : List LocaleKind := [normal, schema]

/-- The path of a locale file. -/
def localePath (localesPath language : String) (kind : LocaleKind) : String :=
  Path.join localesPath (language ++ "." ++ kind.suffix)

/-- The text of a locale file: the indented document and a line feed. -/
def localeText (d : Document) : String :=
  Json.indented d ++ "\n"

/-- Reads a locale file; one that is missing or unreadable is an empty document. -/
def readLocale (path : String) : Operation Document := do
  match ← attempt (readPoints path) with
  | .ok d => strings d
  | .error (.disk ⟨.notFound, _⟩) =>
    logMessage .debug
      ("Locale file '" ++ path ++ "' does not exist yet. Starting from an empty document.")
    return .map []
  | .error e =>
    logMessage .debug
      ("Could not load locale file '" ++ path ++ "': " ++ e.message ++
        ". Starting from an empty document.")
    return .map []

/-- Writes a locale file and makes its directory. -/
def writeLocale (path : String) (d : Document) : Operation Unit := do
  let directory := Path.directory path
  if directory ≠ "" then makeDirectories directory
  writeText path (localeText d)

end ThemeLocales.Project
