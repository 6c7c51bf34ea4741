import ThemeLocales.Json.Writer
import ThemeLocales.Provider.Translation
import ThemeLocales.Project.LocaleFile

/-!
# The translation cache

A cache is a file with one member `cache`, which holds translations by key; further members are
kept. The file is read on the first access and written after each translation that is stored. A file
that holds no cache counts as an empty one. A cache in which a surrogate stands alone can be read,
but not written.
-/

set_option autoImplicit false

namespace ThemeLocales.Provider.Cache

open Operation

/-- The members of a cache file. -/
abbrev Members := List (String × Document)

/-- An empty cache. -/
def empty : CacheImage := { members := [("cache", .map [])] }

/-- The key of a text between two languages. -/
def key (text source target : String) : String :=
  source ++ "_" ++ target ++ "_" ++ text

/-- The members that a document holds, if it is a cache. -/
def members? (d : Document) : Option Members :=
  match d with
  | .map es =>
    match Assoc.get? "cache" es with
    | some (.map _) => some es
    | _ => none
  | _ => none

/-- What is read of a document, if it is a cache. -/
def image? (d : Document Text.Points) : Option CacheImage :=
  (members? d.legible).map fun members => ⟨members, d.isPaired⟩

/-- The translations of a cache by key. -/
def entries (members : Members) : List (String × Document) :=
  (Document.orNull (Assoc.get? "cache" members)).entries

/-- The translation that an entry holds, if it has one. -/
def entryTranslation (entry : Document) : Except Failure (Option Translation) :=
  if !entry.isPresent then .ok none
  else match entry with
    | .map _ =>
      if (Document.orNull (entry.get? "translated_text")).isPresent then
        .ok (some (.ofEntry entry))
      else .ok none
    | _ => .error .noMember

/-- The cached translation of a text. -/
def lookup (members : Members) (text source target : String) :
    Except Failure (Option Translation) :=
  entryTranslation (Document.orNull (Assoc.get? (key text source target) (entries members)))

/-- The members with one more translation. -/
def insert (members : Members) (t : Translation) : Members :=
  let name := key t.sourceText.shown t.sourceLanguage.shown t.targetLanguage.shown
  Assoc.set "cache" (.map (Assoc.set name t.toDocument (entries members))) members

/-- Reads a cache file. -/
def readFile (path : String) : Operation CacheImage := do
  if !(← isThere path) then return empty
  match ← attempt (Project.readPoints path) with
  | .ok d =>
    match image? d with
    | some image => return image
    | none =>
      logMessage .warning ("Ignoring malformed translation cache '" ++ path ++ "'.")
      return empty
  | .error e =>
    logMessage .warning
      ("Could not read translation cache '" ++ path ++ "': " ++ e.message)
    return empty

/-- The cache, read from its file on the first access. -/
def load (path : String) : Operation CacheImage := do
  match (← getThe World).cache with
  | some image => return image
  | none =>
    let image ← readFile path
    modify fun w => { w with cache := some image }
    return image

/-- Forgets what was read, so that the next access reads the file again. -/
def reopen : Operation Unit :=
  modify fun w => { w with cache := none }

/-- The cached translation of a text. -/
def get (path text source target : String) : Operation (Option Translation) := do
  ofResult (lookup (← load path).members text source target)

/-- Stores a translation and writes the file. A translation without a text is not stored. -/
def store (path : String) (t : Translation) : Operation Unit := do
  if !t.translatedText.isPresent then return ()
  let image ← load path
  let members := insert image.members t
  modify fun w => { w with cache := some { image with members } }
  let directory := Path.directory path
  if directory ≠ "" then makeDirectories directory
  if !image.isPaired then throw (.json .unpaired)
  writeText path (Json.indented (.map members))

end ThemeLocales.Provider.Cache
