import ThemeLocales.Assoc
import ThemeLocales.Text.Digit
import ThemeLocales.Text.Quoted
import ThemeLocales.Text.Search

/-!
# Reading command line arguments

A grammar names the options of a program and what else it takes. Options may be shortened as long as
they stay unambiguous, may have their value after an equals sign, and end at `--`. Reading sorts the
arguments into pieces first and then takes them one after the other.
-/

set_option autoImplicit false

namespace ThemeLocales.Command

/-! ## Grammars -/

/-- What an option does. -/
inductive Effect
  | help
  | switch
  | value
  deriving DecidableEq, Repr

/-- An option by its names. -/
structure Flag where
  names : List String
  effect : Effect
  deriving DecidableEq, Repr

/-- What a program takes besides options: nothing, one word, or a command and all that follows. -/
inductive Operand
  | nothing
  | word (name : String)
  | command (name : String)
  deriving DecidableEq, Repr

/-- The arguments of a program. -/
structure Grammar where
  program : String
  flags : List Flag
  operand : Operand
  deriving DecidableEq, Repr

/-- The option that asks for help. -/
def helpFlag : Flag := ⟨["-h", "--help"], .help⟩

/-- Why arguments lead to no command. -/
inductive Stop
  | help
  | misuse (program message : String)
  deriving DecidableEq, Repr

namespace Flag

/-- An option in a message. -/
def title (flag : Flag) : String :=
  String.intercalate "/" flag.names

/-- What is wrong with an option, in a message. -/
def complaint (flag : Flag) (problem : String) : String :=
  "argument " ++ flag.title ++ ": " ++ problem

/-- The complaint about a value that an option does not take. -/
def ignoredValue (flag : Flag) (value : List Char) : String :=
  flag.complaint ("ignored explicit argument " ++ Text.quoted (String.ofList value))

end Flag

namespace Grammar

/-- The options of a grammar under each of their names, in order. -/
def names (grammar : Grammar) : List (String × Flag) :=
  grammar.flags.flatMap fun flag => flag.names.map fun name => (name, flag)

/-- The option with a name. -/
def flag? (grammar : Grammar) (name : String) : Option Flag :=
  (grammar.names.find? fun (n, _) => n = name).map Prod.snd

end Grammar

/-! ## Pieces -/

/-- The way in which an argument gives an option its value. -/
inductive Attached
  | nothing
  | joined (value : List Char)
  | afterEquals (value : List Char)
  deriving DecidableEq, Repr

/-- An option as an argument names it. -/
structure Mention where
  name : String
  flag : Flag
  attached : Attached
  deriving DecidableEq, Repr

/-- What an argument is. -/
inductive Piece
  | word (text : String)
  | dashes
  | known (text : String) (mention : Mention)
  | unknown (text : String)
  deriving DecidableEq, Repr

namespace Piece

/-- The argument that a piece was made of. -/
def text : Piece → String
  | word s => s
  | dashes => "--"
  | known s _ => s
  | unknown s => s

/-- Whether a piece has the form of an option. -/
def isOption : Piece → Bool
  | known _ _ => true
  | unknown _ => true
  | _ => false

end Piece

/-- Whether a text is a number with a minus sign in front. -/
def isNegativeNumber (cs : List Char) : Bool :=
  match Text.withoutFinalNewline cs with
  | '-' :: rest =>
    let isDigit := fun c => (Text.digitValue? c).isSome
    match rest.span isDigit with
    | (digits, []) => !digits.isEmpty
    | (_, '.' :: fraction) => !fraction.isEmpty && fraction.all isDigit
    | _ => false
  | _ => false

/-- The text before the first equals sign, and the value after it. -/
def splitEquals (cs : List Char) : List Char × Attached :=
  match cs.span (· ≠ '=') with
  | (front, _ :: value) => (front, .afterEquals value)
  | (front, []) => (front, .nothing)

/-- The options that an argument may be short for. -/
def Grammar.candidates (grammar : Grammar) (cs : List Char) : List Mention :=
  match cs with
  | '-' :: '-' :: _ =>
    let (front, attached) := splitEquals cs
    (grammar.names.filter fun (name, _) => (Text.after? front name.toList).isSome).map
      fun (name, flag) => ⟨name, flag, attached⟩
  | _ =>
    grammar.names.filterMap fun (name, flag) =>
      if name.toList = cs.take 2 then some ⟨name, flag, .joined (cs.drop 2)⟩
      else if (Text.after? cs name.toList).isSome then some ⟨name, flag, .nothing⟩
      else none

/-- The complaint about an argument that is short for several options. -/
def ambiguity (text : String) (mentions : List Mention) : String :=
  "ambiguous option: " ++ text ++ " could match " ++
    String.intercalate ", " (mentions.map Mention.name)

/-- Sorts an argument that begins with a dash and is no full option. -/
def Grammar.sortShort (grammar : Grammar) (text : String) : Except Stop Piece :=
  match grammar.candidates text.toList with
  | [mention] => .ok (.known text mention)
  | [] =>
    if isNegativeNumber text.toList || text.toList.contains ' ' then .ok (.word text)
    else .ok (.unknown text)
  | mentions => .error (.misuse grammar.program (ambiguity text mentions))

/-- Sorts an argument. -/
def Grammar.sort (grammar : Grammar) (text : String) : Except Stop Piece :=
  if text.toList.head? ≠ some '-' then .ok (.word text)
  else
    match grammar.flag? text with
    | some flag => .ok (.known text ⟨text, flag, .nothing⟩)
    | none =>
      if text = "-" then .ok (.word text)
      else
        let (front, attached) := splitEquals text.toList
        match attached, grammar.flag? (String.ofList front) with
        | .afterEquals value, some flag =>
          .ok (.known text ⟨String.ofList front, flag, .afterEquals value⟩)
        | _, _ => grammar.sortShort text

/-- Sorts arguments; after `--` all are words. -/
def Grammar.sortAll (grammar : Grammar) : List String → Except Stop (List Piece)
  | [] => .ok []
  | "--" :: rest => .ok (.dashes :: rest.map Piece.word)
  | text :: rest => do
    let piece ← grammar.sort text
    return piece :: (← grammar.sortAll rest)

/-! ## Taking pieces -/

/-- What has been read so far. -/
structure Reading where
  /-- The options that were set, by their last names, with their values. -/
  settings : List (String × String) := []
  /-- The operand, once it has been read: the word, or the command and what follows. -/
  operand : List String := []
  /-- Arguments that the grammar has no use for. -/
  unused : List String := []
  deriving DecidableEq, Repr

/-- The reading with one more option set. -/
def Reading.withSetting (reading : Reading) (flag : Flag) (value : String) : Reading :=
  { reading with settings := Assoc.set ((flag.names.getLast?).getD "") value reading.settings }

/-- The operand at the front and the pieces after it. -/
def takeOperand? (operand : Operand) (pieces : List Piece) : Option (List String × List Piece) :=
  match operand with
  | .nothing => none
  | .word _ =>
    match pieces with
    | .word s :: .dashes :: rest => some ([s], rest)
    | .word s :: rest => some ([s], rest)
    | .dashes :: .word s :: rest => some ([s], rest)
    | _ => none
  | .command _ =>
    match pieces with
    | .word _ :: _ => some (pieces.map Piece.text, [])
    | .dashes :: .word _ :: _ => some (pieces.map Piece.text, [])
    | _ => none

/-- What is wrong with the text after an option for help. The short option may be written several
times in one, as `-hh`; any other text is a value, which the option does not take. -/
def helpProblem? (mention : Mention) (value : List Char) : Option String :=
  let isShort := !Text.beginsWith "--" mention.name
  let left := if isShort then value.dropWhile (· = 'h') else value
  if isShort && left.isEmpty && !value.isEmpty then none
  else some (mention.flag.ignoredValue left)

/-- What taking an option gives: the reading and the pieces that are left. -/
def takeOption (program : String) (mention : Mention) (rest : List Piece) (reading : Reading) :
    Except Stop (Reading × List Piece) :=
  let flag := mention.flag
  let misuse := fun message => Except.error (Stop.misuse program message)
  match flag.effect, mention.attached with
  | .value, .nothing =>
    match rest with
    | .word s :: rest => .ok (reading.withSetting flag s, rest)
    | _ => misuse (flag.complaint "expected one argument")
  | .value, .joined value => .ok (reading.withSetting flag (String.ofList value), rest)
  | .value, .afterEquals value => .ok (reading.withSetting flag (String.ofList value), rest)
  | .switch, .nothing => .ok (reading.withSetting flag "", rest)
  | .switch, .joined value => misuse (flag.ignoredValue value)
  | .switch, .afterEquals value => misuse (flag.ignoredValue value)
  | .help, .nothing => .error .help
  | .help, .joined value =>
    (helpProblem? mention value).elim (.error .help) misuse
  | .help, .afterEquals value =>
    (helpProblem? mention value).elim (.error .help) misuse

/-- Reads pieces, with fuel for their number. -/
def Grammar.readPieces (grammar : Grammar) :
    Nat → Operand → List Piece → Reading → Except Stop Reading
  | 0, _, _, reading => .ok reading
  | _ + 1, _, [], reading => .ok reading
  | fuel + 1, operand, .known _ mention :: rest, reading => do
    let (reading, rest) ← takeOption grammar.program mention rest reading
    grammar.readPieces fuel operand rest reading
  | fuel + 1, operand, .unknown s :: rest, reading =>
    grammar.readPieces fuel operand rest { reading with unused := reading.unused ++ [s] }
  | fuel + 1, operand, pieces, reading =>
    match takeOperand? operand pieces with
    | some (taken, rest) =>
      grammar.readPieces fuel .nothing rest { reading with operand := taken }
    | none =>
      let (words, rest) := pieces.span fun piece => !piece.isOption
      grammar.readPieces fuel operand rest
        { reading with unused := reading.unused ++ words.map Piece.text }

/-- The name of an operand that must be there. -/
def Operand.required? : Operand → Option String
  | nothing => none
  | word name => some name
  | command name => some name

/-- Reads arguments. -/
def Grammar.read (grammar : Grammar) (arguments : List String) : Except Stop Reading := do
  let pieces ← grammar.sortAll arguments
  let reading ← grammar.readPieces (pieces.length + 1) grammar.operand pieces {}
  match grammar.operand.required?, reading.operand with
  | some name, [] =>
    throw (.misuse grammar.program ("the following arguments are required: " ++ name))
  | _, _ => return reading

end ThemeLocales.Command
