import ThemeLocales.Json.Token

/-!
# Reading JSON

A reader is a machine over tokens: a stack of containers that are still open, and a focus that says
what may come next. It takes one step per token, so it ends with the text. A key that comes twice in
a map keeps its first place and takes its last value. What is read is a document of code points; a
document of strings is had where no surrogate stands alone.
-/

set_option autoImplicit false

namespace ThemeLocales.Json

open Text

/-- A container that is still open: a list with its items so far, or a map with its entries so far
and the key whose value is being read. -/
inductive Frame
  | list (items : List (Document Points))
  | entry (entries : List (Points × Document Points)) (key : Points)
  deriving Repr

/-- What may come next. -/
inductive Focus
  | value
  | firstItem
  | firstKey
  | nextKey (entries : List (Points × Document Points))
  | colon (entries : List (Points × Document Points)) (key : Points)
  | settled (value : Document Points)
  deriving Repr

/-- A reader between two tokens. -/
structure Machine where
  stack : List Frame
  focus : Focus
  deriving Repr

/-- A reader before the first token. -/
def Machine.start : Machine := ⟨[], .value⟩

/-- Why a token is refused. -/
inductive Refusal
  | fault (cause : Fault)
  | longInteger (digits : Nat)
  | constant (name : String)
  deriving DecidableEq, Repr

/-- A token where a value is expected. A strict reader refuses the constants. -/
def Machine.onValue (strict : Bool) (stack : List Frame) : Token → Except Refusal Machine
  | .openMap => .ok ⟨stack, .firstKey⟩
  | .openList => .ok ⟨stack, .firstItem⟩
  | .text s => .ok ⟨stack, .settled (.string s)⟩
  | .scalar d => .ok ⟨stack, .settled d⟩
  | .constant name x =>
    if strict then .error (.constant name) else .ok ⟨stack, .settled (.real x)⟩
  | .longInteger digits => .error (.longInteger digits)
  | .fault cause => .error (.fault cause)
  | _ => .error (.fault .expectedValue)

/-- A token where the key of an entry is expected. -/
def Machine.onKey (stack : List Frame) (entries : List (Points × Document Points)) :
    Token → Except Refusal Machine
  | .text key => .ok ⟨stack, .colon entries key⟩
  | .fault .expectedValue => .error (.fault .expectedName)
  | .fault cause => .error (.fault cause)
  | _ => .error (.fault .expectedName)

/-- A token after a complete value. -/
def Machine.onSettled (value : Document Points) : List Frame → Token → Except Refusal Machine
  | .list items :: stack, .comma => .ok ⟨.list (items ++ [value]) :: stack, .value⟩
  | .list items :: stack, .closeList => .ok ⟨stack, .settled (.list (items ++ [value]))⟩
  | .entry entries key :: stack, .comma => .ok ⟨stack, .nextKey (Assoc.set key value entries)⟩
  | .entry entries key :: stack, .closeMap =>
    .ok ⟨stack, .settled (.map (Assoc.set key value entries))⟩
  | _ :: _, _ => .error (.fault .expectedComma)
  | [], _ => .error (.fault .extraData)

/-- One step of a reader. -/
def Machine.step (strict : Bool) (m : Machine) (t : Token) : Except Refusal Machine :=
  match m.focus with
  | .value => onValue strict m.stack t
  | .firstItem =>
    match t with
    | .closeList => .ok ⟨m.stack, .settled (.list [])⟩
    | t => onValue strict (.list [] :: m.stack) t
  | .firstKey =>
    match t with
    | .closeMap => .ok ⟨m.stack, .settled (.map [])⟩
    | t => onKey m.stack [] t
  | .nextKey entries => onKey m.stack entries t
  | .colon entries key =>
    match t with
    | .colon => .ok ⟨.entry entries key :: m.stack, .value⟩
    | _ => .error (.fault .expectedColon)
  | .settled value => onSettled value m.stack t

/-- The document of a reader that met the end of the text. -/
def Machine.result? (m : Machine) : Option (Document Points) :=
  match m.stack, m.focus with
  | [], .settled value => some value
  | _, _ => none

/-- A refusal with its place. -/
def Refusal.toError (text start : List Char) : Refusal → Error
  | .fault cause => .malformed cause (.ofSuffix text start)
  | .longInteger digits => .longInteger digits
  | .constant name => .refusedConstant name

/-- Runs a reader over tokens. The end of the text is accepted once a value is complete. -/
def run (strict : Bool) (text : List Char) :
    Machine → List Lexeme → Except Error (Document Points)
  | _, [] => .error (.malformed .expectedValue (.ofSuffix text []))
  | m, ⟨t, start⟩ :: rest =>
    match t, m.result? with
    | .finish, some d => .ok d
    | t, _ =>
      match m.step strict t with
      | .ok m' => run strict text m' rest
      | .error e => .error (e.toError text start)

/-- Reads a text as one document. A byte order mark at its start is refused. -/
def parseChars (strict : Bool) (text : List Char) : Except Error (Document Points) :=
  match text with
  | '\uFEFF' :: _ => .error (.malformed .byteOrderMark (.ofSuffix text text))
  | _ => run strict text .start (lexemes text)

/-- The document of strings that a document of code points is. -/
def asStrings (d : Document Points) : Except Error Document :=
  if d.isPaired then .ok d.legible else .error .unpaired

/-- Reads a text as one document, with the constants for not a number and the infinities. -/
def parse (text : String) : Except Error Document := do
  asStrings (← parseChars false text.toList)

/-- Reads a text as one document of the standard, without the constants. -/
def parseStrict (text : String) : Except Error Document := do
  asStrings (← parseChars true text.toList)

end ThemeLocales.Json
