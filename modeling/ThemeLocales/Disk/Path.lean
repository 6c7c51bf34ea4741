import ThemeLocales.Text.Search

/-!
# Path texts

Paths as texts with slashes between their names. Nothing here looks at a disk: joining, splitting
and normalising are operations on the text alone.
-/

set_option autoImplicit false

namespace ThemeLocales.Path

/-- The path without slashes at its end. -/
def withoutFinalSlashes (path : String) : String :=
  String.ofList (path.toList.reverse.dropWhile (· == '/')).reverse

/-- Whether a path begins at the root. -/
def isAbsolute (path : String) : Bool :=
  path.toList.head? = some '/'

/-- Where a path begins does not depend on what follows. -/
theorem isAbsolute_append {path : String} (h : path ≠ "") (rest : String) :
    isAbsolute (path ++ rest) = isAbsolute path := by
  rw [isAbsolute, isAbsolute, String.toList_append]
  cases hchars : path.toList with
  | nil => exact absurd (String.toList_eq_nil_iff.1 hchars) h
  | cons c cs => rfl

theorem isAbsolute_of_not_mem {path : String} (h : '/' ∉ path.toList) :
    isAbsolute path = false := by
  rw [isAbsolute, decide_eq_false_iff_not]
  exact fun hhead => h (List.mem_of_head? hhead)

/-- A path read from inside another; an absolute path stays as it is. -/
def join (base path : String) : String :=
  if isAbsolute path then path
  else if base = "" || base.toList.getLast? = some '/' then base ++ path
  else base ++ "/" ++ path

/-- The text up to and including the last slash, and the text after it. -/
def splitLast (path : String) : List Char × List Char :=
  let name := (path.toList.reverse.takeWhile (· != '/')).reverse
  (path.toList.take (path.toList.length - name.length), name)

/-- The last name of a path. -/
def baseName (path : String) : String :=
  String.ofList (splitLast path).2

/-- The path without its last name. -/
def directory (path : String) : String :=
  let front := (splitLast path).1
  if front.all (· == '/') then String.ofList front
  else String.ofList (front.reverse.dropWhile (· == '/')).reverse

/-- A file name cut before its last dot; dots at the front do not count. -/
def splitExtension (path : String) : String × String :=
  let (front, name) := splitLast path
  let reversed := name.reverse.takeWhile (· != '.')
  let stem := name.take (name.length - reversed.length - 1)
  if reversed.length = name.length || stem.all (· == '.') then (path, "")
  else (String.ofList (front ++ stem), String.ofList ('.' :: reversed.reverse))

/-- The extension of a file name with its dot; empty when there is none. -/
def extension (path : String) : String :=
  (splitExtension path).2

/-- The base name of a path without its extension. -/
def stem (path : String) : String :=
  (splitExtension (baseName path)).1

/-- One step of a normalisation: names so far, in reverse, and the next name. -/
def normalStep (rooted : Bool) (names : List String) (name : String) : List String :=
  if name = "" || name = "." then names
  else if name ≠ ".." then name :: names
  else match names with
    | [] => if rooted then [] else [".."]
    | last :: rest => if last = ".." then ".." :: last :: rest else rest

/-- The slashes that a normalised path begins with. Two slashes are a root of their own. -/
def rootText (path : String) : String :=
  match path.toList with
  | '/' :: '/' :: '/' :: _ => "/"
  | '/' :: '/' :: _ => "//"
  | '/' :: _ => "/"
  | _ => ""

/-- Texts with slashes between them. -/
def joinNames (names : List String) : String :=
  String.intercalate "/" names

/-- The path without empty names, without names for the same directory, and with each step up taken
together with the name before it. -/
def normalize (path : String) : String :=
  let root := rootText path
  let names := (Text.pieces '/' path).foldl (normalStep (root ≠ "")) []
  let text := root ++ joinNames names.reverse
  if text = "" then "." else text

/-- The normalised path seen from a working directory. -/
def absolute (workingDirectory path : String) : String :=
  normalize (join workingDirectory path)

/-- A path of the project: an absolute one stays as it is. -/
def resolveIn (root path : String) : String :=
  if isAbsolute path then path else absolute root path

/-- The paths of the directories above a path, outermost first. -/
def ancestorsOf : List Char → List Char → List String
  | _, [] => []
  | before, '/' :: rest =>
    let further := ancestorsOf (before ++ ['/']) rest
    if before.all (· == '/') || before.getLast? = some '/' || rest.all (· == '/') then further
    else String.ofList before :: further
  | before, c :: rest => ancestorsOf (before ++ [c]) rest

/-- The paths of the directories above a path, outermost first. -/
def ancestors (path : String) : List String :=
  ancestorsOf [] path.toList

end ThemeLocales.Path
