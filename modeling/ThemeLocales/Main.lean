import ThemeLocales.Command.Run

/-!
# The program

Runs a command in the working directory: the files below it are read into a world, the command acts
on the world, and what it changed is written back. Services are out of reach from here, so every
request to one of them fails.
-/

set_option autoImplicit false

namespace ThemeLocales.Program

/-- The environment variables that commands read. -/
def variableNames : List String :=
  [Config.fileVariable, Config.languageVariable, Config.dryRunVariable,
    Config.EnvFile.disabledVariable, "BAIDU_APPID", "BAIDU_SECRET_KEY", "OPENAI_API_KEY"]

/-- The variables that are set. -/
def readEnvironment : IO (List (String × String)) := do
  let values ← variableNames.mapM fun name => do return (← IO.getEnv name).map fun s => (name, s)
  return values.filterMap id

/-- The files and directories of a listing and below it. -/
partial def readTree (place : List String) (listing : Array IO.FS.DirEntry) :
    IO (List (List String × DiskEntry)) := do
  let parts ← listing.toList.mapM fun entry => do
    let here := place ++ [entry.fileName]
    if ← entry.path.isDir then
      let below ← readTree here (← entry.path.readDir)
      return (here, DiskEntry.directory) :: below
    else return [(here, DiskEntry.file (← IO.FS.readBinFile entry.path))]
  return parts.flatten

/-- Draws of salts, from a seed of the system. -/
def drawSalts : IO (Draws Nat) := do
  let seed ← IO.rand 0 2147483647
  return ⟨fun n => (randNat (mkStdGen (seed + n)) 32768 65536).1⟩

/-- The working directory and all below it. -/
def readDisk : IO Disk := do
  let current ← IO.currentDir
  let place := (Text.pieces '/' current.toString).filter (· ≠ "")
  let above := (List.range place.length).map fun n => place.take (n + 1)
  let below ← readTree place (← current.readDir)
  return { entries := above.map (fun names => (names, .directory)) ++ below
           workingDirectory := place }

/-- Whether an entry is already on a disk as it is. -/
def isUnchanged (d : Disk) (place : List String) (entry : DiskEntry) : Bool :=
  match d.entryAt? place, entry with
  | some .directory, .directory => true
  | some (.file old), .file new => old == new
  | _, _ => false

/-- Writes what is on one disk and not on another. -/
def saveChanges (before after : Disk) : IO Unit :=
  after.entries.forM fun (place, entry) => do
    if isUnchanged before place entry then return ()
    let path := "/" ++ Path.joinNames place
    match entry with
    | .directory => IO.FS.createDirAll path
    | .file bytes =>
      IO.FS.createDirAll ("/" ++ Path.joinNames place.dropLast)
      IO.FS.writeBinFile path bytes

/-- The exit code of a run. -/
def exitCode (outcome : Except Failure Nat) : UInt32 :=
  match outcome with
  | .ok code => code.toUInt32
  | .error (.exit code) => code.toUInt32
  | .error _ => 1

/-- Runs the program on its arguments. -/
def run (arguments : List String) : IO UInt32 := do
  let disk ← readDisk
  let world : World :=
    { disk, environment := ← readEnvironment, salt := ← drawSalts }
  let (outcome, after) := (Command.run arguments).runIn world
  saveChanges disk after.disk
  IO.print after.output
  after.notices.forM IO.eprintln
  match outcome with
  | .ok _ => pure ()
  | .error (.exit _) => pure ()
  | .error failure => IO.eprintln failure.message
  return exitCode outcome

end ThemeLocales.Program

/-- Runs the program on its arguments. -/
def main (arguments : List String) : IO UInt32 :=
  ThemeLocales.Program.run arguments
