import ThemeLocales.Document.Fill
import ThemeLocales.Project.LocaleFile
import ThemeLocales.Provider.Translation

/-!
# Translating locale files

Every document of a target language is walked along the document of the main language, and what has
no translation yet goes to the provider, one text at a time. A document is written after its walk is
complete, so a provider that fails leaves the document as it was.
-/

set_option autoImplicit false

namespace ThemeLocales.Project

open Operation

/-- Adds a document to those whose walk was begun. -/
def beginProgress (total : Nat) (description : String) : Operation Unit :=
  modify fun w => { w with progress := w.progress ++ [⟨total, description, 0⟩] }

/-- Counts one translation for the document whose walk was begun last. -/
def advance : List Progress → List Progress
  | [] => []
  | [p] => [{ p with updates := p.updates + 1 }]
  | p :: ps => p :: advance ps

/-- Asks a provider for one text, counts the answer and keeps it on record. -/
def translateText (adapter : Provider.Adapter) (settings : Settings) (main language : String)
    (text : String) : Operation Document := do
  let result ← adapter.translate text main language settings.languageMap
  modify fun w =>
    { w with
      progress := advance w.progress
      answers := w.answers ++ [⟨language, text, result.translatedText⟩] }
  return result.translatedText

/-- Translates what a target document lacks. -/
def translateDocument (adapter : Provider.Adapter) (settings : Settings) (main language : String)
    (mainDocument target : Document) (name : String) : Operation Document := do
  let count := Document.pending mainDocument target
  logMessage .info (toString count ++ " untranslated value(s) in '" ++ name ++ "'.")
  beginProgress count ("Translating " ++ name)
  Document.fill (translateText adapter settings main language) mainDocument target

/-- Translates and writes one locale file of a language; the paths written. -/
def translateFile (adapter : Provider.Adapter) (settings : Settings) (main : String)
    (kind : LocaleKind) (mainDocument : Document) (language : String) :
    Operation (List String) := do
  let path := localePath settings.localesPath language kind
  let target ← readLocale path
  let translated ← translateDocument adapter settings main language mainDocument target
    (Path.baseName path)
  if settings.dryRun then
    logMessage .info ("[Dry Run] Would write translated content to '" ++ path ++ "'.")
    return []
  writeLocale path translated
  logMessage .info ("Translated file saved to '" ++ path ++ "'.")
  return [path]

/-- Translates the locale files of one kind for all target languages. -/
def translateKind (adapter : Provider.Adapter) (settings : Settings) (main : String)
    (targets : List String) (kind : LocaleKind) : Operation (List String) := do
  let path := localePath settings.localesPath main kind
  if !(← isThere path) then
    logMessage .info
      ("Main locale file '" ++ path ++ "' not found. Skipping '" ++ kind.suffix ++ "' files.")
    return []
  let mainDocument ← readJson path
  let written ← targets.mapM (translateFile adapter settings main kind mainDocument)
  return written.flatten

/-- Translates the locale files of every target language; the paths written. -/
def translateLocales (settings : Settings) (adapter : Provider.Adapter) :
    Operation (List String) := do
  let main ← mainLanguage settings
  let targets := (← allLanguages settings).filter fun language => some language ≠ main
  let written ← LocaleKind.all.mapM
    (translateKind adapter settings (main.getD "None") targets)
  return written.flatten

end ThemeLocales.Project
