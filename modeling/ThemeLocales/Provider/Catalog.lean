import ThemeLocales.Provider.Baidu
import ThemeLocales.Provider.Chat
import ThemeLocales.Scaffold

/-!
# The catalog of adapters

An adapter is chosen by the path of a module or by the name of a built-in one; a path counts before
a name. A module at a path is run by an importer, and may do anything then and later. Modules of the
package that hold no adapter are known by name as well, since choosing one of them is a failure of
its own.
-/

set_option autoImplicit false

namespace ThemeLocales.Provider

open Operation

/-- A provider that is set up, with what ends its use. -/
structure Service extends Adapter where
  close : Operation Unit := pure ()

/-- An adapter before it has options: the name of its class, and how it is set up. -/
structure AdapterClass where
  name : String
  create : Options → Operation Service

namespace AdapterClass

/-- The adapter of the Baidu provider. -/
def baidu : AdapterClass where
  name := "BaiduAdapter"
  create := fun options => return { toAdapter := (← Baidu.connect options).adapter }

/-- The adapter of the chat provider. -/
def chat : AdapterClass where
  name := "OpenAIAdapter"
  create := fun options => do
    let (client, _) ← Chat.connectWithKey options
    return { toAdapter := client.adapter }

/-- A generated adapter, which puts the target language in front of the text. -/
def generated (name : String) : AdapterClass where
  name := name
  create := fun _ => return {
    translate := fun text source target _ =>
      return .ofText source target text (.string ("[" ++ target ++ "] " ++ text)) }

end AdapterClass

/-- How the module at a path is run. What this comes to is the search for an adapter in the
module. -/
abbrev Importer := (path : String) → Operation (Operation (Option AdapterClass))

namespace Catalog

/-- The package of the built-in modules. -/
def package : String := "theme_i18n.adapters"

/-- The modules of the package, with the adapter that each holds. -/
def modules : List (String × Option AdapterClass) :=
  [("baidu", some .baidu), ("openai_adapter", some .chat), ("base_adapter", none),
    ("cache", none), ("loader", none), ("retry", none)]

/-- The failure of a module without an adapter. -/
def noAdapterIn (name : String) : Failure :=
  .adapter ("No TranslationAdapter subclass found in module '" ++ name ++ "'.")

/-- Why a name leads to no module. -/
def unknownModule (name : String) : String :=
  match Text.pieces '.' name with
  | first :: second :: _ =>
    let outer := package ++ "." ++ first
    if Assoc.contains first modules then
      "No module named " ++ Text.quoted (outer ++ "." ++ second) ++ "; " ++ Text.quoted outer ++
        " is not a package"
    else "No module named " ++ Text.quoted outer
  | _ => "No module named " ++ Text.quoted (package ++ "." ++ name)

/-- The built-in adapter with a name. -/
def byName (name : String) : Except Failure AdapterClass :=
  match Assoc.get? name modules with
  | some (some c) => .ok c
  | some none => .error (noAdapterIn (package ++ "." ++ name))
  | none =>
    .error (.adapter
      ("Failed to load built-in adapter: " ++ name ++ "\n" ++ unknownModule name))

/-- The name of the module that a path is loaded as. -/
def moduleName (path : String) : String :=
  "theme_i18n_custom_adapter_" ++ Path.stem path

/-- The failure of a path that cannot be loaded. -/
def unloadable (path reason : String) : Failure :=
  .adapter ("Failed to load adapter from path: " ++ path ++ reason)

/-- Where a path is loaded from: as it is when it is absolute, else below the working directory. It
is not normalised. -/
def locationOf (workingDirectory path : String) : String :=
  if Path.isAbsolute path then path
  else Path.withoutFinalSlashes workingDirectory ++ "/" ++ Path.withoutFinalSlashes path

/-- The forms in which a module can be stored, as the end of its location tells. -/
inductive Form
  | library
  | text
  | compiled
  deriving DecidableEq, Repr

/-- The form of what is stored at a location. -/
def form? (location : String) : Option Form :=
  if Text.endsIn ".so" location then some .library
  else if Text.endsIn ".py" location then some .text
  else if Text.endsIn ".pyc" location then some .compiled
  else none

/-- The least size of a library. -/
def libraryHeaderSize : Nat := 64

/-- Why a file is no library; a library that is one is beyond the catalog. -/
def libraryProblem (location : String) : Except Failure ByteArray → String
  | .error (.disk ⟨.isDirectory, _⟩) => location ++ ": cannot read file data: Is a directory"
  | .error e => e.message
  | .ok bytes =>
    if bytes.size < libraryHeaderSize then location ++ ": file too short"
    else location ++ ": invalid ELF header"

/-- Why a file is no compiled module: its first bytes are not the mark of one. -/
def compiledProblem (path : String) : Except Failure ByteArray → String
  | .error e => e.message
  | .ok bytes =>
    "bad magic number in " ++ Text.quoted (moduleName path) ++ ": " ++
      Text.quotedBytes (bytes.toList.take 4)

/-- The importer of generated modules; no other module can be run by it. -/
def importGenerated : Importer := fun path => do
  let location := locationOf (← workingPath) path
  match form? location with
  | some .library => throw (.badValue (libraryProblem location (← attempt (readBytes location))))
  | some .compiled => throw (.badValue (compiledProblem path (← attempt (readBytes location))))
  | _ =>
    let text ← readText location
    return (return (Scaffold.adapterClass? text).map AdapterClass.generated)

/-- Runs the module at a path. A module that fails cannot be loaded, unless it ends the run. -/
def runModule (importer : Importer) (path : String) :
    Operation (Operation (Option AdapterClass)) := do
  match ← attempt (importer path) with
  | .ok search => return search
  | .error (.exit code) => throw (.exit code)
  | .error (.adapter message) => throw (.adapter message)
  | .error e => throw (unloadable path ("\n" ++ e.message))

/-- The adapter in the module at a path that leads to something. -/
def inModule (importer : Importer) (path : String) : Operation AdapterClass := do
  let search ← runModule importer path
  logMessage .info ("Loaded adapter module from '" ++ path ++ "'.")
  match ← search with
  | some c => return c
  | none => throw (noAdapterIn (moduleName path))

/-- The adapter in the module at a path. -/
def byPath (importer : Importer) (path : String) : Operation AdapterClass := do
  if ← isThere path then
    match form? (locationOf (← workingPath) path) with
    | some _ => inModule importer path
    | none => throw (unloadable path "")
  else throw (.adapter ("Adapter file not found: " ++ path))

/-- The failure of a choice that names nothing. -/
def nothingChosen : Failure :=
  .adapter "No adapter_path or adapter_name was specified in the options or configuration file."

/-- The adapter that a path or else a name chooses; empty texts choose nothing. -/
def choose (path name : Option String) (importer : Importer := importGenerated) :
    Operation AdapterClass :=
  match path.filter (· ≠ ""), name.filter (· ≠ "") with
  | some path, _ => byPath importer path
  | none, some name => ofResult (byName name)
  | none, none => throw nothingChosen

end Catalog

end ThemeLocales.Provider
