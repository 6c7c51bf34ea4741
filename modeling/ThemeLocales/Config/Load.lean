import ThemeLocales.Config.Defaults
import ThemeLocales.Config.EnvFile
import ThemeLocales.Config.Shape
import ThemeLocales.Journal
import ThemeLocales.Project.Settings

/-!
# Loading the configuration

The settings of a project come from its configuration file, which is checked against its shape, and
from the environment, to which the project's environment file adds. Where the configuration file is
missing, empty or unreadable, the default configuration counts; a file of the wrong shape ends the
run. What the bytes of the file hold is told by a reader, which may be any.
-/

set_option autoImplicit false

namespace ThemeLocales.Config

open Operation
open Yaml (Loaded Reader Value)

/-! ## Names -/

/-- The name of a project's environment file. -/
def envFileName : String := ".env"

/-- The variable that names the configuration file. -/
def fileVariable : String := "THEME_I18N_CONFIG_FILE"

/-- The variable that names the default language. -/
def languageVariable : String := "THEME_I18N_DEFAULT_LANGUAGE"

/-- The variable that asks for a dry run. -/
def dryRunVariable : String := "THEME_I18N_DRY_RUN"

/-! ## The configuration file -/

/-- The default configuration. -/
def defaults : Loaded :=
  match Yaml.load defaultText with
  | .ok loaded => loaded
  | .error _ => { root := .null, store := #[] }

/-- The failure of a value that the file's syntax allows and that has no meaning. -/
def valueFailure : Yaml.Error → Failure
  | .malformed problem _ _ => .badValue problem
  | .badValue message => .badValue message
  | .unknownWord _ => .missingKey
  | .emptyNumber => .emptyNumber
  | .overflow => .overflow
  | .failed failure => failure

/-- The configuration in a file's bytes, or the default one with a notice of the reason. -/
def parse (reader : Reader) (path : String) (bytes : ByteArray) : Operation Loaded := do
  match reader bytes with
  | .ok loaded =>
    match loaded.root with
    | .map _ =>
      notice ("Successfully loaded configuration from: " ++ path)
      return loaded
    | .null =>
      notice ("Warning: Configuration file '" ++ path ++
        "' is empty. Using default configuration.")
      return defaults
    | _ =>
      notice ("Error: Configuration file '" ++ path ++
        "' must contain a mapping. Using defaults.")
      return defaults
  | .error (.malformed problem line column) =>
    notice ("Error: Invalid YAML in configuration file '" ++ path ++ "': " ++ problem ++
      ", line " ++ toString (line + 1) ++ ", column " ++ toString (column + 1))
    notice "Please check your YAML syntax. Using default configuration."
    return defaults
  | .error e => throw (valueFailure e)

/-- The configuration in a file, or the default one with a notice of the reason. -/
def readFile (reader : Reader) (path : String) : Operation Loaded := do
  if !(← isThere path) then
    notice ("Warning: Configuration file '" ++ path ++
      "' not found. Using default configuration.")
    notice ("Tip: Run 'theme-i18n init' to create one, or set the " ++ fileVariable ++
      " environment variable.")
    return defaults
  match ← attempt (readBytes path) with
  | .ok bytes => parse reader path bytes
  | .error (.disk refusal) =>
    notice ("Error: Could not read configuration file '" ++ path ++ "': " ++ refusal.message)
    notice "Using default configuration."
    return defaults
  | .error e => throw e

/-- Ends the run when a configuration has the wrong shape. -/
def validate (path : String) (config : Loaded) : Operation Unit := do
  match ← ofResult (Violation.report? (Shape.configuration.check config.store config.root)) with
  | none => return ()
  | some (place, message) =>
    Journal.start .consoleOnly
    logMessage .critical ("CRITICAL: Invalid configuration in '" ++ path ++ "' at '" ++ place ++
      "': " ++ message)
    throw (.exit 1)

/-! ## Members -/

/-- A part of a configuration, with what its collections hold. -/
abbrev Part := Loaded

/-- A member of a mapping, null when it is not there. -/
def member (part : Part) (name : String) : Part :=
  { part with root := (part.store.get? name part.root).getD .null }

/-- A member that is a text. -/
def textMember? (part : Part) (name : String) : Option String :=
  match (member part name).root with
  | .string s => some s
  | _ => none

/-- A member that is a truth value. -/
def truthMember (part : Part) (name : String) (fallback : Bool) : Bool :=
  match (member part name).root with
  | .bool b => b
  | _ => fallback

/-- A member that is a list of texts. -/
def textsMember (part : Part) (name : String) : List String :=
  (part.store.items (member part name).root).filterMap fun v =>
    match v with
    | .string s => some s
    | _ => none

/-- A key of a language map. -/
def languageKey : Value → Provider.LanguageKey
  | .string s => .code s
  | .null => .empty "null"
  | v => if v.rational? = some 0 then .empty v.keyText else .other v.keyText

/-- A member that is a language map. -/
def languageMapMember (part : Part) (name : String) : Provider.LanguageMap :=
  (part.store.entries (member part name).root).filterMap fun (key, v) =>
    match v with
    | .string s => some (languageKey key, s)
    | _ => none

/-! ## The journal -/

/-- The failure of a word that is reserved and names no threshold. -/
def reservedWord? (word : String) : Option Failure :=
  match Threshold.inCapitals word with
  | "BASIC_FORMAT" => some (.badValue "Unknown level")
  | "_STYLES" => some .wrongType
  | _ => none

/-- The journal that a configuration asks for. -/
def journalOf (root : String) (config : Loaded) : Except Failure Journal :=
  let logging := member config "logging"
  let word := (textMember? logging "log_level").getD "INFO"
  let path := if (logging.store.get? "log_file_path" logging.root).isNone then
      some "logs/theme_i18n.log"
    else textMember? logging "log_file_path"
  match reservedWord? word with
  | some e => .error e
  | none => .ok
    { threshold := .ofWord word
      file := (path.filter (· ≠ "")).map (Path.resolveIn root)
      console := truthMember logging "log_to_console" true }

/-! ## The settings -/

/-- What the environment says about settings. -/
structure Overrides where
  language : Option String := none
  dryRun : Option String := none

/-- Whether a text asks for something. -/
def isYes (text : String) : Bool :=
  ["1", "true", "yes", "on"].contains ((Text.trimmed text).map Number.asciiLower)

/-- The settings that a configuration and the environment make. -/
def settingsOf (root path : String) (overrides : Overrides) (config : Loaded) : Settings :=
  let paths := member config "paths"
  let resolved := Path.resolveIn root
  { projectRoot := root
    configFile := some path
    sourcePaths := (textsMember paths "source").map resolved
    localesPath := resolved ((textMember? paths "locales").getD "locales")
    schemaPath := resolved ((textMember? paths "schema").getD "config/settings_schema.json")
    defaultLanguage :=
      (overrides.language.or (textMember? config "default_language")).filter (· ≠ "")
    targetLanguages := textsMember config "target_languages"
    languageMap := languageMapMember config "lang_map"
    adapterName := textMember? config "adapter_name"
    adapterPath := ((textMember? config "adapter_path").filter (· ≠ "")).map resolved
    adapterOptions := config.store.documentEntries (member config "adapter_options").root
    cleanUnused := truthMember config "clean_unused" false
    dryRun := match overrides.dryRun with
      | some text => isYes text
      | none => truthMember config "dry_run" false
    isWritable := ["lang_map", "adapter_options"].all fun name =>
      config.store.isWritable (member config name).root
    isPlain := config.store.isPlain (member config "adapter_options").root }

/-! ## Loading -/

/-- The absolute path of a project's root. -/
def rootPath (given : Option String) : Operation String := do
  let here ← workingPath
  return Path.absolute here ((given.filter (· ≠ "")).getD here)

/-- The path of the configuration file: the one that is given, else the one that the environment
names, else the one in the root. -/
def filePath (root : String) (given : Option String) : Operation String := do
  let named ← environmentValue? fileVariable
  let path := (given.filter (· ≠ "")).getD (named.getD (Path.join root fileName))
  return Path.resolveIn root path

/-- Loads the settings of a project and opens its journal. -/
def load (file root : Option String) (reader : Reader := Yaml.read) : Operation Settings := do
  let root ← rootPath root
  let envFile := Path.join root envFileName
  let hasEnvFile ← isThere envFile
  if hasEnvFile then EnvFile.load envFile
  let path ← filePath root file
  let config ← readFile reader path
  validate path config
  Journal.start (← ofResult (journalOf root config))
  if hasEnvFile then logMessage .info ("Loaded environment variables from: " ++ envFile)
  else
    logMessage .debug ("No .env file found in '" ++ root ++
      "'. Relying on system environment variables if any.")
  let overrides :=
    { language := ← environmentValue? languageVariable
      dryRun := ← environmentValue? dryRunVariable }
  return settingsOf root path overrides config

end ThemeLocales.Config
