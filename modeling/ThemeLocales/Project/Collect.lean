import ThemeLocales.KeyTable
import ThemeLocales.World

/-!
# Collecting keys

The keys of all source files below a list of directories. Files are visited in the order in which
the directories list them, and a key keeps the first default that is content. The keys in which a
surrogate stands alone are kept apart.
-/

set_option autoImplicit false

namespace ThemeLocales.Project

open Operation

/-- The extensions of source files. -/
def sourceExtensions : List String := [".liquid", ".json"]

/-- The files below a directory that have one of some extensions. -/
def sourceFiles (directory : String) (extensions : List String) : Operation (List String) := do
  let paths ← ofDisk ((← disk).walk directory)
  return paths.filter fun path => Path.extension path ∈ extensions

/-- The keys of the normal and of the schema document. -/
structure Collected where
  normal : KeyTable := []
  schema : KeyTable := []
  /-- The keys that are no strings. -/
  unpaired : List Text.Points := []
  deriving Repr

/-- Adds the keys of one source text. -/
def Collected.addContent (c : Collected) (content : String) : Collected :=
  let table := KeyTable.ofContent content
  { normal := KeyTable.add c.normal (KeyTable.normalKeys table)
    schema := KeyTable.add c.schema (KeyTable.schemaKeys table)
    unpaired := c.unpaired ++ (Template.unpairedKeys content).filter (· ∉ c.unpaired) }

/-- Adds the keys of one source file, whose ill-formed bytes are replaced. -/
def collectFile (c : Collected) (path : String) : Operation Collected := do
  let content := Text.readTextLossy (← readBytes path)
  logTimes .debug "Skipping schema block that is not valid JSON." (Template.skippedBlocks content)
  return c.addContent content

/-- Adds the keys of all source files below one directory. A missing directory is passed over. -/
def collectDirectory (extensions : List String) (c : Collected) (directory : String) :
    Operation Collected := do
  if !(← isThere directory) then
    logMessage .warning ("Source directory '" ++ directory ++ "' not found. Skipping.")
    return c
  let files ← sourceFiles directory extensions
  logMessage .info
    ("Scanning " ++ toString files.length ++ " file(s) in '" ++ directory ++ "'...")
  files.foldlM collectFile c

/-- The keys of all source files below some directories. -/
def collectKeys (directories extensions : List String) : Operation Collected :=
  directories.foldlM (collectDirectory extensions) {}

/-- Refuses keys that are no strings. -/
def Collected.requireStrings (c : Collected) : Operation Unit :=
  if c.unpaired.isEmpty then pure () else throw (.json .unpaired)

end ThemeLocales.Project
