import ThemeLocales.Command.Grammar

/-!
# Commands and their arguments

The commands of the program, and how its arguments name them.
-/

set_option autoImplicit false

namespace ThemeLocales.Command

/-- What to set up in a project, configured or not. -/
inductive Setup
  | createConfig
  | generateAdapter (name : String)
  deriving DecidableEq, Repr

/-- What to do in a configured project. -/
inductive Task
  | listLanguages
  | extractKeys (clean : Option Bool)
  | translate (adapterName adapterPath : Option String)
  deriving DecidableEq, Repr

/-- What the program is asked to do. -/
inductive Request
  | setup (setup : Setup)
  | task (task : Task)
  deriving DecidableEq, Repr

/-- A request and the configuration file that is to be used. -/
structure Invocation where
  configFile : Option String
  request : Request
  deriving DecidableEq, Repr

/-- The name of the program. -/
def programName : String := "theme-i18n"

/-- The arguments of the program itself. -/
def mainGrammar : Grammar :=
  { program := programName
    flags := [helpFlag, ⟨["--config"], .value⟩]
    operand := .command "command" }

/-- One command: its arguments and the request that they make. -/
structure Entry where
  flags : List Flag
  operand : Operand
  request : Reading → Request

/-- The value of an option, if it was set. -/
def Reading.setting? (reading : Reading) (name : String) : Option String :=
  Assoc.get? name reading.settings

/-- The commands, by name. -/
def commands : List (String × Entry) :=
  [("init", ⟨[], .nothing, fun _ => .setup .createConfig⟩),
    ("gen-adapter", ⟨[], .word "name", fun r =>
      .setup (.generateAdapter (r.operand.headD ""))⟩),
    ("extract-langs", ⟨[], .nothing, fun _ => .task .listLanguages⟩),
    ("extract-keys", ⟨[⟨["--clean-unused"], .switch⟩], .nothing, fun r =>
      .task (.extractKeys ((r.setting? "--clean-unused").map fun _ => true))⟩),
    ("translate", ⟨[⟨["--adapter-name"], .value⟩, ⟨["--adapter-path"], .value⟩], .nothing, fun r =>
      .task (.translate (r.setting? "--adapter-name") (r.setting? "--adapter-path"))⟩)]

/-- The grammar of a command. -/
def Entry.grammar (entry : Entry) (name : String) : Grammar :=
  { program := programName ++ " " ++ name
    flags := helpFlag :: entry.flags
    operand := entry.operand }

/-- The complaint about a command that there is not. -/
def unknownCommand (name : String) : Stop :=
  .misuse programName
    ("argument command: invalid choice: " ++ Text.quoted name ++ " (choose from " ++
      String.intercalate ", " ((Assoc.keys commands).map Text.quoted) ++ ")")

/-- The invocation that arguments make. -/
def parse (arguments : List String) : Except Stop Invocation := do
  let main ← mainGrammar.read arguments
  let name := main.operand.headD ""
  match Assoc.get? name commands with
  | none => throw (unknownCommand name)
  | some entry =>
    let reading ← (entry.grammar name).read main.operand.tail
    let unused := main.unused ++ reading.unused
    if unused.isEmpty then
      return { configFile := main.setting? "--config", request := entry.request reading }
    else
      throw (.misuse programName
        ("unrecognized arguments: " ++ String.intercalate " " unused))

end ThemeLocales.Command
