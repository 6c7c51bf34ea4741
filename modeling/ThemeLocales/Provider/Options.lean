import ThemeLocales.Document.Access
import ThemeLocales.Document.Display
import ThemeLocales.Failure
import ThemeLocales.Number.Reading

/-!
# Options of a provider

Options come from a configuration file, so an option that should be a number may be a text. Each
reader below says what it takes; anything else is a value of the wrong type.
-/

set_option autoImplicit false

namespace ThemeLocales.Provider

/-- Options by name. -/
abbrev Options := List (String × Document)

namespace Options

/-- An option, or a fallback where there is none. -/
def getD (options : Options) (name : String) (fallback : Document) : Document :=
  (Assoc.get? name options).getD fallback

/-- An option that is present as a value. -/
def present? (options : Options) (name : String) : Option Document :=
  (Assoc.get? name options).filter Document.isPresent

/-- Adds an option that is given as a pair of its name and its value. A name that is no text names
no option. -/
def addPair (options : Options) (pair : Document) : Except Failure Options := do
  match ← pair.elements with
  | [.string name, value] => return Assoc.set name value options
  | [.list _, _] => throw .wrongType
  | [.map _, _] => throw .wrongType
  | [_, _] => return options
  | _ => throw (.badValue "an option is no pair")

/-- The options that a document holds: a map, or pairs one by one. A value that is not present holds
none. -/
def ofDocument (d : Document) : Except Failure Options :=
  if !d.isPresent then .ok []
  else match d with
    | .map es => .ok es
    | d => do (← d.elements).foldlM addPair []

/-- A number, a truth value or a text, as a double. -/
def toDouble : Document → Except Failure Binary64
  | .real x => .ok x
  | .bool b => .ok (if b then .one else .zero)
  | .int n =>
    match Binary64.ofInt? n with
    | some x => .ok x
    | none => .error .overflow
  | .string s =>
    match Number.readDouble? s with
    | some x => .ok x
    | none => .error (.badValue ("could not convert string to float: " ++ Text.quoted s))
  | _ => .error .wrongType

/-- A number, a truth value or a text, as an integer. A fraction is dropped. -/
def toInteger : Document → Except Failure Int
  | .int n => .ok n
  | .bool b => .ok (if b then 1 else 0)
  | .real .nan => .error (.badValue "cannot convert float NaN to integer")
  | .real x =>
    match x.truncate? with
    | some n => .ok n
    | none => .error .overflow
  | .string s =>
    match Number.readInteger s with
    | .ok n => .ok n
    | .error (.tooLong digits) => .error (.badValue (Json.longIntegerText digits))
    | .error .notInteger =>
      .error (.badValue ("invalid literal for int() with base 10: " ++ Text.quoted s))
  | _ => .error .wrongType

/-- The absolute path of a file named by an option; an empty value names none. -/
def toPath? (workingDirectory : String) (value : Document) : Except Failure (Option String) :=
  if !value.isPresent then .ok none
  else match value with
    | .string s => .ok (some (Path.absolute workingDirectory s))
    | _ => .error .wrongType

end Options

end ThemeLocales.Provider
