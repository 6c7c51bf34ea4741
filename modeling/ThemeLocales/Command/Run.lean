import ThemeLocales.Command.Invocation
import ThemeLocales.Config.Load
import ThemeLocales.Project.Extraction
import ThemeLocales.Project.Translation
import ThemeLocales.Provider.Catalog

/-!
# Running commands

A command ends with an exit code: 0 when it did its work, 1 when a provider or a file stood in its
way, which is logged. Misused arguments and a configuration of the wrong shape end the run with a
code of their own. Every other failure is one that the command does not expect.

Two things are left to a host: how configuration files are read, and how modules with adapters are
run.
-/

set_option autoImplicit false

namespace ThemeLocales.Command

open Operation

/-- What a command leaves to others. -/
structure Host where
  reader : Yaml.Reader := Yaml.read
  importer : Provider.Importer := Provider.Catalog.importGenerated

/-- The adapter that a translation uses: what the arguments name, else what the settings name. -/
def chooseAdapter (host : Host) (settings : Settings) (name path : Option String) :
    Operation Provider.AdapterClass :=
  let given := fun (text : Option String) => text.filter (· ≠ "")
  Provider.Catalog.choose ((given path).or settings.adapterPath)
    ((given name).or settings.adapterName) host.importer

/-- Translates with a service, whose use ends in any case. -/
def translateWith (settings : Settings) (service : Provider.Service) : Operation (List String) := do
  let outcome ← attempt (Project.translateLocales settings service.toAdapter)
  service.close
  ofResult outcome

/-- The work of a task. -/
def work (host : Host) (settings : Settings) (task : Task) : Operation Unit := do
  match task with
  | .listLanguages =>
    let languages ← Project.extractLanguages settings.schemaPath
    print (String.intercalate "\n" languages ++ "\n")
  | .extractKeys clean =>
    let written ← Project.extractKeys settings clean
    logMessage .info ("Updated " ++ toString written.length ++ " locale file(s).")
  | .translate name path =>
    let service ← (← chooseAdapter host settings name path).create settings.adapterOptions
    let written ← translateWith settings service
    logMessage .info ("Completed translations for " ++ toString written.length ++ " file(s).")

/-- Sets something up in the working directory. -/
def prepare (setup : Setup) : Operation Unit := do
  match setup with
  | .createConfig => discard (Scaffold.createConfig (← workingPath))
  | .generateAdapter name => discard (Scaffold.generateAdapter (← workingPath) name)

/-- Does the work of a task and reports the failures that are expected. -/
def guarded (host : Host) (settings : Settings) (task : Task) : Operation Nat := do
  match ← attempt (work host settings task) with
  | .ok () => return 0
  | .error e =>
    if e.isProvider then
      logMessage .error e.message
      return 1
    else if e.isUnreadable then
      logMessage .error ("An unexpected error occurred during execution: " ++ e.message)
      return 1
    else throw e

/-- Carries out an invocation. -/
def perform (host : Host) (invocation : Invocation) : Operation Nat := do
  match invocation.request with
  | .setup setup =>
    Journal.start .consoleOnly
    prepare setup
    return 0
  | .task task => guarded host (← Config.load invocation.configFile none host.reader) task

/-- Runs the program on its arguments, up to its exit code. -/
def run (arguments : List String) (host : Host := {}) : Operation Nat := do
  match parse arguments with
  | .ok invocation => perform host invocation
  | .error .help => throw (.exit 0)
  | .error (.misuse program message) =>
    notice (program ++ ": error: " ++ message)
    throw (.exit 2)

end ThemeLocales.Command
