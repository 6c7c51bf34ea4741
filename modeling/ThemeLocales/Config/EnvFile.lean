import ThemeLocales.Text.Blank
import ThemeLocales.World

/-!
# Environment files

A file of statements `NAME=value`, one a line, that adds variables to the environment. A value may
stand between quotes and then runs over several lines; a reference `$\x7bNAME:-default\x7d` inside a
value stands for another variable. A line that is no statement is reported and skipped. Variables
that the environment already has keep their values.
-/

set_option autoImplicit false

namespace ThemeLocales.Config.EnvFile

open Operation

/-! ## Statements -/

/-- Whether a character is a blank inside a line. -/
def isSpace (c : Char) : Bool :=
  Text.isBlank c && c ≠ '\n'

/-- A part of a statement and the text after it. Where the part is not as it should be, the text
from which the rest of the line is to be skipped. -/
abbrev Part (α : Type) := Except (List Char) (α × List Char)

/-- The text after `export` and the blanks that must follow it, if they are there. -/
def afterExport (cs : List Char) : List Char :=
  match Text.after? "export".toList cs with
  | some (c :: rest) => if isSpace c then rest.dropWhile isSpace else cs
  | _ => cs

/-- Whether a character may belong to a name without quotes. -/
def isNameChar (c : Char) : Bool :=
  c ≠ '=' && c ≠ '#' && !Text.isBlank c

/-- The name at the front; a comment has none. -/
def name (cs : List Char) : Part (Option String) :=
  match cs with
  | '#' :: _ => .ok (none, cs)
  | '\'' :: inside =>
    match inside.span (· ≠ '\'') with
    | (c :: word, _ :: rest) => .ok (some (String.ofList (c :: word)), rest)
    | _ => .error cs
  | _ =>
    match cs.span isNameChar with
    | ([], _) => .error cs
    | (word, rest) => .ok (some (String.ofList word), rest)

/-- The text up to the closing quote, and the text after it. A character after a backslash closes
nothing. -/
def upToQuote? (quote : Char) : List Char → Option (List Char × List Char)
  | [] => none
  | '\\' :: c :: rest =>
    (upToQuote? quote rest).map fun (inside, after) => ('\\' :: c :: inside, after)
  | c :: rest =>
    if c = quote then some ([], rest)
    else if c = '\\' then none
    else (upToQuote? quote rest).map fun (inside, after) => (c :: inside, after)

/-- The character that an escape between apostrophes stands for. -/
def plainEscape? (c : Char) : Option Char :=
  if c = '\\' || c = '\'' then some c else none

/-- The character that an escape between double quotes stands for. -/
def richEscape? (c : Char) : Option Char :=
  match c with
  | '\\' => some '\\'
  | '\'' => some '\''
  | '"' => some '"'
  | 'a' => some '\x07'
  | 'b' => some '\x08'
  | 'f' => some '\x0c'
  | 'n' => some '\n'
  | 'r' => some '\r'
  | 't' => some '\t'
  | 'v' => some '\x0b'
  | _ => none

/-- A text with its escapes replaced. -/
def unescape (escape? : Char → Option Char) : List Char → List Char
  | [] => []
  | [c] => [c]
  | c :: d :: rest =>
    match if c = '\\' then escape? d else none with
    | some e => e :: unescape escape? rest
    | none => c :: unescape escape? (d :: rest)

/-- A value between quotes, from after the opening one. -/
def quotedValue (quote : Char) (escape? : Char → Option Char) (inside : List Char) : Part String :=
  match upToQuote? quote inside with
  | some (text, rest) => .ok (String.ofList (unescape escape? text), rest)
  | none => .error (quote :: inside)

/-- A line up to a number sign that follows a blank. The first argument tells whether a blank stands
before the line. -/
def beforeComment : Bool → List Char → List Char
  | _, [] => []
  | afterBlank, c :: cs =>
    if c = '#' && afterBlank then [] else c :: beforeComment (Text.isBlank c) cs

/-- The value that follows an equals sign, and blanks. -/
def value (cs : List Char) : Part String :=
  match cs.dropWhile isSpace with
  | '\'' :: inside => quotedValue '\'' plainEscape? inside
  | '"' :: inside => quotedValue '"' richEscape? inside
  | front =>
    let (line, rest) := front.span (· ≠ '\n')
    .ok (String.ofList (Text.trimEnd (beforeComment (front.length < cs.length) line)), rest)

/-- The value after an equals sign, if there is one. -/
def assigned (cs : List Char) : Part (Option String) :=
  match cs with
  | '=' :: rest => (value rest).map fun (text, after) => (some text, after)
  | _ => .ok (none, cs)

/-- The text after the end of a line, before which only a comment may stand. -/
def lineEnd (cs : List Char) : Part Unit :=
  match cs.dropWhile isSpace with
  | [] => .ok ((), [])
  | '\n' :: rest => .ok ((), rest)
  | '#' :: rest => .ok ((), (rest.dropWhile (· ≠ '\n')).drop 1)
  | _ => .error cs

/-- What a line says about a variable. -/
abbrev Assignment := String × Option String

/-- The statement at the front; blank lines and comments say nothing. -/
def statement (text : List Char) :
    Except (List Char) (Option Assignment × List Char) := do
  let cs := Text.trimStart text
  if cs.isEmpty then return (none, [])
  let (variableName, cs) ← name (afterExport cs)
  let (content, cs) ← assigned (cs.dropWhile isSpace)
  let ((), cs) ← lineEnd cs
  return (variableName.map fun word => (word, content), cs)

/-- How many lines end in a text. -/
def lineCount (cs : List Char) : Nat :=
  cs.count '\n'

/-- What a file says: its assignments, and the numbers of the lines where it cannot be read. -/
structure Content where
  assignments : List Assignment := []
  unreadable : List Nat := []
  deriving DecidableEq, Repr

/-- Reads statements from a line on, with fuel for their number. -/
def readFrom : Nat → Nat → List Char → Content → Content
  | 0, _, _, content => content
  | _ + 1, _, [], content => content
  | fuel + 1, line, cs, content =>
    let (rest, further) := match statement cs with
      | .ok (some assignment, rest) =>
        (rest, { content with assignments := content.assignments ++ [assignment] })
      | .ok (none, rest) => (rest, content)
      | .error stop =>
        ((stop.dropWhile (· ≠ '\n')).drop 1,
          { content with unreadable := content.unreadable ++ [line] })
    readFrom fuel (line + (lineCount cs - lineCount rest)) rest further

/-- A text without a byte order mark at its front. -/
def withoutMark : List Char → List Char
  | '\uFEFF' :: cs => cs
  | cs => cs

/-- Reads a file's text, whose lines end in line feeds. -/
def read (text : String) : Content :=
  readFrom (text.length + 1) 1 (withoutMark text.toList) {}

/-! ## References -/

/-- The reference at the front: the name, the default, and the text after it. -/
def reference? (cs : List Char) : Option (String × String × List Char) := do
  let inside ← Text.after? ['$', '{'] cs
  let (word, rest) := inside.span fun c => c ≠ '}' && c ≠ ':'
  match rest with
  | '}' :: after => some (String.ofList word, "", after)
  | ':' :: '-' :: rest =>
    match rest.span (· ≠ '}') with
    | (fallback, _ :: after) => some (String.ofList word, String.ofList fallback, after)
    | _ => none
  | _ => none

/-- A text with its references replaced; the number counts characters of a reference still to
skip. -/
def expandFrom (look : String → Option String) : Nat → List Char → List Char
  | _, [] => []
  | skip + 1, _ :: cs => expandFrom look skip cs
  | 0, c :: cs =>
    match reference? (c :: cs) with
    | some (word, fallback, after) =>
      ((look word).getD fallback).toList ++ expandFrom look (cs.length - after.length) cs
    | none => c :: expandFrom look 0 cs

/-- What a name stands for: its value in the environment, else the one that the file gave it, where
a name without a value stands for the empty text. -/
def meaning? (environment : List (String × String)) (earlier : List Assignment) (word : String) :
    Option String :=
  match Assoc.get? word environment with
  | some text => some text
  | none => (Assoc.get? word earlier).map fun content => content.getD ""

/-- The variables of a file in order, with their references replaced. -/
def resolve (environment : List (String × String)) (assignments : List Assignment) :
    List Assignment :=
  assignments.foldl (fun earlier (word, content) =>
    let expanded := content.map fun text =>
      String.ofList (expandFrom (meaning? environment earlier) 0 text.toList)
    Assoc.set word expanded earlier) []

/-! ## Loading -/

/-- Whether the environment can hold a variable. -/
def isStorable (word text : String) : Bool :=
  !word.toList.contains '=' && !word.toList.contains '\x00' && !text.toList.contains '\x00'

/-- Adds a variable to the environment, unless it is there or has no value. -/
def define (assignment : Assignment) : Operation Unit := do
  match assignment with
  | (_, none) => return ()
  | (word, some text) =>
    if (← environmentValue? word).isSome then return ()
    if !isStorable word text then throw (.badValue "the environment cannot hold this variable")
    modify fun w => { w with environment := Assoc.set word text w.environment }

/-- The line that reports an unreadable statement. -/
def complaint (line : Nat) : String :=
  "python-dotenv could not parse statement starting at line " ++ toString line

/-- The variable that says whether environment files are to be left unread. -/
def disabledVariable : String := "PYTHON_DOTENV_DISABLED"

/-- A letter without regard to case. One letter beyond ASCII stands for one in it. -/
def folded (c : Char) : Char :=
  if c = 'ſ' then 's' else c.toLower

/-- Whether a text says that something is so. -/
def isAffirmed (text : String) : Bool :=
  ["1", "true", "t", "yes", "y"].contains (text.map folded)

/-- Adds the variables of a file to the environment, unless the environment forbids it; a directory
has none. -/
def load (path : String) : Operation Unit := do
  if ((← environmentValue? disabledVariable).map isAffirmed).getD false then return ()
  if (← disk).isDirectory path then return ()
  let content := read (← readText path)
  content.unreadable.forM fun line => notice (complaint line)
  (resolve (← get).environment content.assignments).forM define

end ThemeLocales.Config.EnvFile
