import ThemeLocales.Assoc
import ThemeLocales.Disk.Path
import ThemeLocales.Text.Quoted

/-!
# A disk

A disk is a table of files and directories, keyed by the names on the way from the root, with a
working directory. Path texts are looked up name by name, as an operating system does: every name
but the last must be an existing directory, and each failure says which rule was broken.
-/

set_option autoImplicit false

namespace ThemeLocales

/-- What stands at a place of a disk. -/
inductive DiskEntry
  | file (bytes : ByteArray)
  | directory

/-- Files and directories by their names from the root; the root itself is always there. A directory
lists its names in an order that is up to the system: by the rank of the place of each, and names of
one rank in code point order. -/
structure Disk where
  entries : List (List String × DiskEntry)
  workingDirectory : List String
  rank : List String → Nat := fun _ => 0

namespace Disk

/-- Why the operating system refuses a path. -/
inductive Cause
  | notFound
  | alreadyThere
  | notDirectory
  | isDirectory
  | nameTooLong
  /-- The path holds a null character, which ends a path for the system. -/
  | nullByte
  deriving DecidableEq, Repr

/-- The error number of a cause, if the system has one for it. -/
def Cause.number? : Cause → Option Nat
  | notFound => some 2
  | alreadyThere => some 17
  | notDirectory => some 20
  | isDirectory => some 21
  | nameTooLong => some 36
  | nullByte => none

/-- The wording of a cause. -/
def Cause.text : Cause → String
  | notFound => "No such file or directory"
  | alreadyThere => "File exists"
  | notDirectory => "Not a directory"
  | isDirectory => "Is a directory"
  | nameTooLong => "File name too long"
  | nullByte => "embedded null byte"

/-- A refusal and the path that was asked for. -/
structure Refusal where
  cause : Cause
  path : String
  deriving DecidableEq, Repr

/-- The text of a refusal. -/
def Refusal.message (r : Refusal) : String :=
  match r.cause.number? with
  | some n => "[Errno " ++ toString n ++ "] " ++ r.cause.text ++ ": " ++ Text.quoted r.path
  | none => r.cause.text

/-- What stands at a place. -/
def entryAt? (d : Disk) (place : List String) : Option DiskEntry :=
  if place = [] then some .directory else Assoc.get? place d.entries

/-- Whether a directory stands at a place. -/
def isDirectoryAt (d : Disk) (place : List String) : Bool :=
  match d.entryAt? place with
  | some .directory => true
  | _ => false

/-- The place that one name leads to, from a place that must be a directory. -/
def stepTo (d : Disk) (place : List String) (name : String) : Except Cause (List String) :=
  match d.entryAt? place with
  | none => .error .notFound
  | some (.file _) => .error .notDirectory
  | some .directory =>
    if name = "" || name = "." then .ok place
    else if name = ".." then .ok place.dropLast
    else if 255 < name.utf8ByteSize then .error .nameTooLong
    else .ok (place ++ [name])

/-- The place that a path text names. Its last name need not exist. -/
def locate (d : Disk) (path : String) : Except Cause (List String) :=
  if path = "" then .error .notFound
  else if path.toList.contains '\x00' then .error .nullByte
  else if 4095 < path.utf8ByteSize then .error .nameTooLong
  else
    let start := if Path.isAbsolute path then [] else d.workingDirectory
    (Text.pieces '/' path).foldlM d.stepTo start

/-- What a path text names, if it exists. -/
def lookup (d : Disk) (path : String) : Except Cause (List String × DiskEntry) := do
  let place ← d.locate path
  match d.entryAt? place with
  | some entry => .ok (place, entry)
  | none => .error .notFound

/-- Whether a path names something. -/
def isThere (d : Disk) (path : String) : Bool :=
  (d.lookup path).isOk

/-- Whether a path names a directory. -/
def isDirectory (d : Disk) (path : String) : Bool :=
  match d.lookup path with
  | .ok (_, .directory) => true
  | _ => false

/-- The text of the working directory. -/
def workingPath (d : Disk) : String :=
  "/" ++ Path.joinNames d.workingDirectory

/-- The bytes of a file. -/
def read (d : Disk) (path : String) : Except Refusal ByteArray :=
  match d.lookup path with
  | .ok (_, .file bytes) => .ok bytes
  | .ok (_, .directory) => .error ⟨.isDirectory, path⟩
  | .error cause => .error ⟨cause, path⟩

/-- The place of a file that is to be written: it may be new, but its directory may not. -/
def writablePlace (d : Disk) (path : String) : Except Cause (List String) := do
  let place ← d.locate path
  match d.entryAt? place with
  | some .directory => .error .isDirectory
  | _ => .ok place

/-- Writes a file. -/
def write (d : Disk) (path : String) (bytes : ByteArray) : Except Refusal Disk :=
  match d.writablePlace path with
  | .ok place => .ok { d with entries := Assoc.set place (.file bytes) d.entries }
  | .error cause => .error ⟨cause, path⟩

/-- Adds a line to a text file, if it can be written. -/
def appendLine (d : Disk) (path line : String) : Disk :=
  match d.read path with
  | .error _ => d
  | .ok bytes => (d.write path (bytes ++ (line ++ "\n").toUTF8)).toOption.getD d

/-- Makes a new directory in an existing one. Slashes at the end of its path are of no account. -/
def makeDirectory (d : Disk) (path : String) : Except Refusal Disk :=
  match d.locate (Path.withoutFinalSlashes path) with
  | .error cause => .error ⟨cause, path⟩
  | .ok place =>
    match d.entryAt? place with
    | some _ => .error ⟨.alreadyThere, path⟩
    | none => .ok { d with entries := Assoc.set place .directory d.entries }

/-- Makes a directory unless something has its path. -/
def makeMissing (d : Disk) (path : String) : Except Refusal Disk :=
  if d.isThere path then .ok d else d.makeDirectory path

/-- Makes a directory and those above it; one that is there already is fine. -/
def makeDirectories (d : Disk) (path : String) : Except Refusal Disk := do
  let above ← (Path.ancestors path).foldlM makeMissing d
  if above.isDirectory path then .ok above else above.makeDirectory path

/-- Whether a place lies strictly below another; its names from there. -/
def below? : List String → List String → Option (List String)
  | [], [] => none
  | [], names => some names
  | _ :: _, [] => none
  | a :: as, b :: bs => if a = b then below? as bs else none

/-- Whether a directory lists one name before another, by the ranks of their places. -/
def listsBefore (rank : List String → Nat) (place : List String) (a b : String) : Bool :=
  rank (place ++ [a]) < rank (place ++ [b]) ||
    (rank (place ++ [a]) = rank (place ++ [b]) && a < b)

/-- Whether a walk from a place comes to the first of two places below it no later than to the
second: it goes into a directory where it finds its name. -/
def walksFirst (rank : List String → Nat) (place : List String) :
    List String → List String → Bool
  | [], _ => true
  | _ :: _, [] => false
  | a :: as, b :: bs =>
    if a = b then walksFirst rank (place ++ [a]) as bs else listsBefore rank place a b

/-- The files below a place, as their names from there, in the order in which a walk comes to
them. -/
def filesBelow (d : Disk) (place : List String) : List (List String) :=
  (d.entries.filterMap fun (names, entry) =>
    match entry with
    | .file _ => below? place names
    | .directory => none).mergeSort (walksFirst d.rank place)

/-- The paths of all files below a directory, in the order in which the directories list them. -/
def walk (d : Disk) (path : String) : Except Refusal (List String) :=
  match d.lookup path with
  | .ok (place, .directory) =>
    .ok ((d.filesBelow place).map fun names => Path.join path (Path.joinNames names))
  | .ok (_, .file _) => .error ⟨.notDirectory, path⟩
  | .error cause => .error ⟨cause, path⟩

end Disk

end ThemeLocales
