/-!
# Log records

What a run has to say about itself, as records with a level and a message, and the journal that says
which records are written and where.
-/

set_option autoImplicit false

namespace ThemeLocales

/-- How grave a record is. -/
inductive Level
  | debug
  | info
  | warning
  | error
  | critical
  deriving DecidableEq, Repr

namespace Level

/-- The name of a level. -/
def name : Level → String
  | debug => "DEBUG"
  | info => "INFO"
  | warning => "WARNING"
  | error => "ERROR"
  | critical => "CRITICAL"

/-- The rank of a level; a graver one ranks higher. -/
def rank : Level → Nat
  | debug => 10
  | info => 20
  | warning => 30
  | error => 40
  | critical => 50

end Level

/-- One record. -/
structure LogRecord where
  level : Level
  message : String
  deriving DecidableEq, Repr

/-- The line that a record is written as. -/
def LogRecord.line (r : LogRecord) : String :=
  r.level.name ++ " - " ++ r.message

/-- From which level on records are written. -/
inductive Threshold
  | unset
  | atLeast (level : Level)
  deriving DecidableEq, Repr

namespace Threshold

/-- The name of a threshold. -/
def name : Threshold → String
  | unset => "NOTSET"
  | atLeast level => level.name

/-- Whether records of a level are written. Where no threshold is set, warnings are. -/
def admits : Threshold → Level → Bool
  | unset, level => Level.warning.rank ≤ level.rank
  | atLeast lowest, level => lowest.rank ≤ level.rank

/-- A letter in capitals. Two letters and two ligatures beyond ASCII have capitals in it. -/
def capitals : Char → List Char
  | 'ı' => ['I']
  | 'ſ' => ['S']
  | 'ﬅ' => ['S', 'T']
  | 'ﬆ' => ['S', 'T']
  | c => [c.toUpper]

/-- A word in capitals. -/
def inCapitals (word : String) : String :=
  String.ofList (word.toList.flatMap capitals)

/-- The threshold that a word names, in letters of any case; any other word means `INFO`. -/
def ofWord (word : String) : Threshold :=
  match inCapitals word with
  | "NOTSET" => unset
  | "DEBUG" => atLeast .debug
  | "WARNING" => atLeast .warning
  | "WARN" => atLeast .warning
  | "ERROR" => atLeast .error
  | "CRITICAL" => atLeast .critical
  | "FATAL" => atLeast .critical
  | _ => atLeast .info

end Threshold

/-- Which records are written, and where: to a file, to the console, to both or to neither. -/
structure Journal where
  threshold : Threshold := .unset
  file : Option String := none
  console : Bool := false
  deriving DecidableEq, Repr

namespace Journal

/-- The line that a journal writes of a record on the console. A journal that has neither a file nor
the console still tells the mere messages of warnings and graver records there. -/
def consoleLine? (journal : Journal) (r : LogRecord) : Option String :=
  if !journal.threshold.admits r.level then none
  else if journal.console then some r.line
  else if journal.file.isNone && Level.warning.rank ≤ r.level.rank then some r.message
  else none

/-- The file that a journal writes a record to, and the line that it writes. -/
def fileLine? (journal : Journal) (r : LogRecord) : Option (String × String) :=
  if journal.threshold.admits r.level then journal.file.map fun path => (path, r.line) else none

end Journal

end ThemeLocales
