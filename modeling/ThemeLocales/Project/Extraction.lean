import ThemeLocales.Document.Prune
import ThemeLocales.Project.Collect
import ThemeLocales.Project.LocaleFile

/-!
# Extracting keys into locale files

The keys found in the sources are merged into the documents of the main language, and the shape of
those documents is forced onto every other language. Text of the main language never goes into
another language's document. Documents have strings for keys, so no run is followed further than to
keys in which a surrogate stands alone.
-/

set_option autoImplicit false

namespace ThemeLocales.Project

open Operation

/-- Merges extracted keys into a document of the main language. -/
def reconcileMain (origin extracted : Document) (cleanUnused : Bool) : Document :=
  let merged := Document.merge .preserve origin extracted
  if cleanUnused then merged.prune extracted else merged

/-- Forces the shape of the main document onto a target document. -/
def reconcileTarget (origin main extracted : Document) (cleanUnused : Bool) : Document :=
  let merged := Document.merge .structureOnly origin main
  if cleanUnused then merged.prune extracted else merged

/-- Writes a document, unless the run is a dry one; the paths written. -/
def saveLocale (dryRun : Bool) (path : String) (d : Document) : Operation (List String) := do
  if dryRun then
    logMessage .info ("[Dry Run] Would write locale file '" ++ path ++ "'.")
    return []
  writeLocale path d
  logMessage .info ("Locale file saved to '" ++ path ++ "'.")
  return [path]

/-- One extracted document with its kind. -/
structure Extracted where
  kind : LocaleKind
  document : Document

/-- Updates one document of the main language; its new content and the paths written. -/
def updateMain (settings : Settings) (cleanUnused : Bool) (main : String) (e : Extracted) :
    Operation (Document × List String) := do
  let path := localePath settings.localesPath main e.kind
  let merged := reconcileMain (← readLocale path) e.document cleanUnused
  return (merged, ← saveLocale settings.dryRun path merged)

/-- Updates one document of another language; the paths written. -/
def updateTarget (settings : Settings) (cleanUnused : Bool) (language : String)
    (e : Extracted) (main : Document) : Operation (List String) := do
  let path := localePath settings.localesPath language e.kind
  let merged := reconcileTarget (← readLocale path) main e.document cleanUnused
  saveLocale settings.dryRun path merged

/-- Updates both documents of one language. -/
def updateLanguage (settings : Settings) (cleanUnused : Bool) (normal schema : Extracted)
    (mainNormal mainSchema : Document) (language : String) : Operation (List String) := do
  let first ← updateTarget settings cleanUnused language normal mainNormal
  let second ← updateTarget settings cleanUnused language schema mainSchema
  return first ++ second

/-- The message of a project without a main language. -/
def noMainLanguage : String :=
  "No default language configured and none could be extracted from the settings schema."

/-- Extracts the keys of a project's sources into all its locale files; the paths written, those of
the main language first. -/
def extractKeys (settings : Settings) (clean : Option Bool) : Operation (List String) := do
  let cleanUnused := clean.getD settings.cleanUnused
  let languages ← allLanguages settings
  let main ← match ← mainLanguage settings with
    | some language => pure language
    | none => throw (.badValue noMainLanguage)
  let keys ← collectKeys settings.sourcePaths sourceExtensions
  keys.requireStrings
  logMessage .info
    ("Extracted " ++ toString keys.normal.length ++ " key(s) and " ++
      toString keys.schema.length ++ " schema key(s).")
  let normal : Extracted := ⟨.normal, Document.expand keys.normal⟩
  let schema : Extracted := ⟨.schema, Document.expand keys.schema⟩
  if !settings.dryRun then makeDirectories settings.localesPath
  let (mainNormal, normalPaths) ← updateMain settings cleanUnused main normal
  let (mainSchema, schemaPaths) ← updateMain settings cleanUnused main schema
  let others ← (languages.filter (· ≠ main)).mapM
    (updateLanguage settings cleanUnused normal schema mainNormal mainSchema)
  logMessage .info
    ((if cleanUnused then "Cleaned unused keys and extracted" else "Extracted") ++
      " translation keys into '" ++ settings.localesPath ++ "'.")
  return normalPaths ++ schemaPaths ++ others.flatten

end ThemeLocales.Project
