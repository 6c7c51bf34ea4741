import ThemeLocales.Document.Access
import ThemeLocales.Json.Reader
import ThemeLocales.Project.Settings
import ThemeLocales.World

/-!
# Languages of a project

The languages that a settings schema declares, all languages of a project and its main language.
The main language is the configured one, or else the first of all.
-/

set_option autoImplicit false

namespace ThemeLocales.Project

open Operation Text

/-- The group of settings that describes the theme: the first group of that name in a list of
groups, or the schema itself. -/
def themeInfo (schema : Document Points) : Document Points :=
  match schema with
  | .list groups =>
    (groups.find? fun group =>
      match group.valueAt? "name" with
      | some (.string name) => name = points "theme_info"
      | _ => false).getD .null
  | d => d

/-- The entries that a value holds: the items of a list, the keys of a map, the characters of a
text. Of other values only one that is not present can be gone through, and it holds none. -/
def languageEntries : Document Points → Except Failure (List (Document Points))
  | .list ds => .ok ds
  | .map es => .ok (es.map fun (key, _) => .string key)
  | .string s => .ok (s.map fun n => .string [n])
  | d => if d.legible.isPresent then .error .wrongType else .ok []

/-- The codes of the entries that have one. -/
def entryCodes (entries : List (Document Points)) : List (Document Points) :=
  entries.filterMap fun entry => (entry.valueAt? "value").filter fun code => code.legible.isPresent

/-- A code that is a text. -/
def codeText : Document Points → Except Failure Points
  | .string s => .ok s
  | _ => .error .wrongType

/-- The languages that a schema declares, as code points. -/
def declaredLanguages (schema : Document Points) : Except Failure (List Points) := do
  let entries ← languageEntries (((themeInfo schema).valueAt? "theme_languages").getD .null)
  (entryCodes entries).mapM codeText

/-- The languages that a schema declares. Whether they can be told is seen first, and then whether a
surrogate stands alone in one of them. -/
def schemaLanguages (schema : Document Points) : Except Failure (List String) := do
  let languages ← declaredLanguages schema
  if languages.all isPaired then pure (languages.map ofPoints) else throw (.json .unpaired)

/-- Reads a file as a JSON document of code points. -/
def readPoints (path : String) : Operation (Document Points) := do
  match Json.parseChars false (← readText path).toList with
  | .ok d => pure d
  | .error e => throw (.json e)

/-- The document of strings that a document of code points is. -/
def strings (d : Document Points) : Operation Document :=
  match Json.asStrings d with
  | .ok d => pure d
  | .error e => throw (.json e)

/-- Reads a file as a JSON document of strings. -/
def readJson (path : String) : Operation Document := do
  strings (← readPoints path)

/-- Reads the languages that a settings schema declares. A missing schema declares none. -/
def extractLanguages (schemaPath : String) : Operation (List String) := do
  if !(← isThere schemaPath) then
    logMessage .error ("Settings schema file '" ++ schemaPath ++ "' not found.")
    return []
  let languages ← ofResult (schemaLanguages (← readPoints schemaPath))
  if languages.isEmpty then
    logMessage .info "No languages declared in the settings schema."
  else
    logMessage .info ("Extracted languages: " ++ String.intercalate ", " languages)
  return languages

/-- Languages without empty codes and without repetitions, in order of first occurrence. -/
def distinctLanguages (languages : List String) : List String :=
  (languages.filter (· ≠ "")).foldl
    (fun found language => if language ∈ found then found else found ++ [language]) []

/-- The main language and all target languages. Without configured targets the schema decides. -/
def allLanguages (settings : Settings) : Operation (List String) := do
  let targets ← if settings.targetLanguages.isEmpty then extractLanguages settings.schemaPath
    else pure settings.targetLanguages
  return distinctLanguages (settings.defaultLanguage.toList ++ targets)

/-- The main language, if there is one. -/
def mainLanguage (settings : Settings) : Operation (Option String) := do
  match settings.defaultLanguage with
  | some language => if language ≠ "" then return some language
  | none => pure ()
  return (← allLanguages settings).head?

end ThemeLocales.Project
