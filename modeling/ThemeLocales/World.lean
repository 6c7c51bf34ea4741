import ThemeLocales.Draws
import ThemeLocales.Log
import ThemeLocales.Provider.Rehearsal

/-!
# Worlds and operations

A world holds what a run can see and change: the disk, the environment, what was logged and printed,
and the exchanges with translation services. The client of web requests and the draws of chance are
parts of a world as well, so what is proved of all worlds holds for any of them. An operation turns
a world into a result or a failure and a new world; a failure keeps what was done before it.

Left out: what a run does behind a document, languages or keys in which a surrogate stands alone,
which end it here; how requests are scheduled, and the time that delays take; links and modes of
files, and writers beside the run; and the limits of a system on depth and memory.
-/

set_option autoImplicit false

namespace ThemeLocales

/-- The progress of one document's translation. -/
structure Progress where
  total : Nat
  description : String
  updates : Nat
  deriving DecidableEq, Repr

/-- What was read of the file of a translation cache: its members, and whether they can be written
again. They cannot where a surrogate stands alone. -/
structure CacheImage where
  members : List (String × Document)
  isPaired : Bool := true
  deriving Repr

/-- Everything that a run can see and change. -/
structure World where
  disk : Disk
  environment : List (String × String) := []
  log : List LogRecord := []
  /-- Where the records of the log are written. -/
  journal : Journal := {}
  /-- Text written to standard output. -/
  output : String := ""
  /-- Lines written to standard error. -/
  notices : List String := []
  progress : List Progress := []
  /-- What providers answered so far in the translation of documents. -/
  answers : List Provider.Answer := []
  /-- The client of web requests, and the requests that were asked of it so far. Unless another one
  is named, it answers from a script. -/
  webAnswers : List Provider.WebAnswer := []
  webClient : Provider.WebClient := Provider.Rehearsal.client webAnswers
  webCalls : List Provider.WebCall := []
  /-- Answers that chat requests have not yet taken, and the requests made so far. -/
  chatAnswers : List Provider.ChatAnswer := []
  chatRequests : List Provider.ChatRequest := []
  /-- The delays waited so far. -/
  sleeps : List Document := []
  /-- The draws of chance: the jitter of each delay and the salt of each signature. -/
  jitter : Draws Binary64 := .half
  salt : Draws Nat := 0
  /-- The translation cache, once its file was read. -/
  cache : Option CacheImage := none
  /-- How many unique tokens were made. -/
  tokens : Nat := 0
  /-- The rates set up so far, and the one that all web clients share. -/
  rates : List Provider.Rate := []
  sharedRate : Option Provider.Rate := none

/-- The world after one more record, which its journal writes at once. -/
def World.logged (w : World) (r : LogRecord) : World :=
  { w with
    log := w.log ++ [r]
    disk := match w.journal.fileLine? r with
      | some (path, line) => w.disk.appendLine path line
      | none => w.disk
    notices := w.notices ++ (w.journal.consoleLine? r).toList }

/-- The web requests that had an address to go to. -/
def World.webRequests (w : World) : List Provider.WebRequest :=
  w.webCalls.filterMap Provider.Rehearsal.request?

/-- An operation on a world, which may fail. -/
abbrev Operation := ExceptT Failure (StateM World)

namespace Operation

variable {α : Type}

/-- Runs an operation. -/
def runIn (operation : Operation α) (w : World) : Except Failure α × World :=
  operation w

/-- A result of a pure computation, as an operation. -/
def ofResult (result : Except Failure α) : Operation α :=
  match result with
  | .ok a => pure a
  | .error e => throw e

/-- Logs a message, which goes at once where the journal says. -/
def logMessage (level : Level) (message : String) : Operation Unit :=
  modify fun w => w.logged ⟨level, message⟩

/-- Logs one message several times. -/
def logTimes (level : Level) (message : String) : Nat → Operation Unit
  | 0 => pure ()
  | n + 1 => do
    logMessage level message
    logTimes level message n

/-- Writes a line to standard error. -/
def notice (line : String) : Operation Unit :=
  modify fun w => { w with notices := w.notices ++ [line] }

/-- Writes text to standard output. -/
def print (text : String) : Operation Unit :=
  modify fun w => { w with output := w.output ++ text }

/-- The disk as it is now. -/
def disk : Operation Disk :=
  return (← get).disk

/-- Whether a path names something. -/
def isThere (path : String) : Operation Bool :=
  return (← disk).isThere path

/-- A result of the disk, as an operation. -/
def ofDisk (result : Except Disk.Refusal α) : Operation α :=
  match result with
  | .ok a => pure a
  | .error refusal => throw (.disk refusal)

/-- Replaces the disk by the one that a change of it gives. -/
def changeDisk (change : Disk → Except Disk.Refusal Disk) : Operation Unit := do
  let d ← ofDisk (change (← disk))
  modify fun w => { w with disk := d }

/-- The bytes of a file. -/
def readBytes (path : String) : Operation ByteArray := do
  ofDisk ((← disk).read path)

/-- The text of a file, which must be UTF-8. -/
def readText (path : String) : Operation String := do
  match Text.readText (← readBytes path) with
  | .ok s => pure s
  | .error e => throw (.undecodable e)

/-- Writes a text file. -/
def writeText (path text : String) : Operation Unit :=
  changeDisk fun d => d.write path text.toUTF8

/-- Makes a directory and those above it. -/
def makeDirectories (path : String) : Operation Unit :=
  changeDisk fun d => d.makeDirectories path

/-- The path of the working directory. -/
def workingPath : Operation String :=
  return (← disk).workingPath

/-- The value of an environment variable. -/
def environmentValue? (name : String) : Operation (Option String) :=
  return Assoc.get? name (← get).environment

/-- The outcome of an operation, whose failure does not fail the whole. -/
def attempt (operation : Operation α) : Operation (Except Failure α) :=
  fun w =>
    let (outcome, w') := operation w
    (.ok outcome, w')

end Operation

end ThemeLocales
