import ThemeLocales.Text.Digit
import ThemeLocales.Text.Search

/-!
# Tags of YAML nodes

A tag says what a node is. A plain scalar without a tag gets one by its form: the empty text and a
few words are null, some words are truth values, and numbers may be written in several bases, in
base sixty and with underscores.
-/

set_option autoImplicit false

namespace ThemeLocales.Yaml

/-- What a node is. -/
inductive Tag
  | null
  | bool
  | int
  | real
  | string
  | sequence
  | mapping
  | pairs
  | merge
  | default
  | other (name : String)
  deriving DecidableEq, Repr

namespace Tag

/-- The front that the names of the standard tags share. -/
def standardFront : String := "tag:yaml.org,2002:"

/-- The standard tags by the last part of their names. -/
def standard : List (String × Tag) :=
  [("null", .null), ("bool", .bool), ("int", .int), ("float", .real), ("str", .string),
    ("seq", .sequence), ("map", .mapping), ("omap", .pairs), ("pairs", .pairs),
    ("merge", .merge), ("value", .default)]

/-- The tag with a name. -/
def ofName (name : String) : Tag :=
  match standard.find? fun (last, _) => standardFront ++ last = name with
  | some (_, tag) => tag
  | none => other name

/-! ## Words -/

/-- The words for null. -/
def nullWords : List String := ["", "~", "null", "Null", "NULL"]

/-- The words for true. -/
def trueWords : List String :=
  ["yes", "Yes", "YES", "true", "True", "TRUE", "on", "On", "ON"]

/-- The words for false. -/
def falseWords : List String :=
  ["no", "No", "NO", "false", "False", "FALSE", "off", "Off", "OFF"]

/-! ## Numbers -/

/-- A text without one sign at its front. -/
def unsigned : List Char → List Char
  | '+' :: cs => cs
  | '-' :: cs => cs
  | cs => cs

/-- Whether a text is not empty and all its characters are of a class. -/
def isRun (p : Char → Bool) (cs : List Char) : Bool :=
  !cs.isEmpty && cs.all p

/-- A digit or an underscore. -/
def isDigitOrLine (c : Char) : Bool :=
  Text.isAsciiDigit c || c = '_'

/-- A digit and further digits or underscores. -/
def isDigits : List Char → Bool
  | c :: cs => Text.isAsciiDigit c && cs.all isDigitOrLine
  | [] => false

/-- A part of a number in base sixty after the first: one digit, or two below sixty. -/
def isSixtieth : List Char → Bool
  | [a] => Text.isAsciiDigit a
  | [a, b] => '0' ≤ a && a ≤ '5' && Text.isAsciiDigit b
  | _ => false

/-- A number that does not begin with zero. -/
def isNonzeroDigits (cs : List Char) : Bool :=
  isDigits cs && cs.head? != some '0'

/-- Whether a text is an integer. -/
def isInteger (cs : List Char) : Bool :=
  let body := unsigned cs
  match body with
  | '0' :: 'b' :: digits => isRun (fun c => c = '0' || c = '1' || c = '_') digits
  | '0' :: 'x' :: digits => isRun (fun c => (Text.hexDigit? c).isSome || c = '_') digits
  | ['0'] => true
  | '0' :: digits => isRun (fun c => ('0' ≤ c && c ≤ '7') || c = '_') digits
  | _ =>
    match body.splitOn ':' with
    | [whole] => isNonzeroDigits whole
    | whole :: parts => isNonzeroDigits whole && parts.all isSixtieth
    | [] => false

/-- Whether a text is an exponent with its mark and its sign, or empty. -/
def isExponent : List Char → Bool
  | [] => true
  | e :: sign :: digits =>
    (e = 'e' || e = 'E') && (sign = '-' || sign = '+') && isRun Text.isAsciiDigit digits
  | _ => false

/-- Whether a text is digits with a point, and perhaps an exponent. -/
def isPointNumber (cs : List Char) : Bool :=
  let whole := cs.takeWhile isDigitOrLine
  match cs.drop whole.length with
  | '.' :: rest =>
    let fraction := rest.takeWhile isDigitOrLine
    isDigits whole && isExponent (rest.drop fraction.length)
  | _ => false

/-- Whether a text is a point with digits after it, and perhaps an exponent. -/
def isFraction : List Char → Bool
  | '.' :: rest =>
    let fraction := rest.takeWhile isDigitOrLine
    isDigits fraction && isExponent (rest.drop fraction.length)
  | _ => false

/-- Whether a text is a number in base sixty with a point in its last part. -/
def isSixtyNumber (cs : List Char) : Bool :=
  let whole := cs.takeWhile (· != '.')
  match cs.drop whole.length with
  | '.' :: fraction =>
    match whole.splitOn ':' with
    | first :: part :: parts =>
      isDigits first && (part :: parts).all isSixtieth && fraction.all isDigitOrLine
    | _ => false
  | _ => false

/-- The words for infinity, after the sign. -/
def infinityWords : List String := [".inf", ".Inf", ".INF"]

/-- The words for not a number. -/
def nanWords : List String := [".nan", ".NaN", ".NAN"]

/-- Whether a text is a double. -/
def isReal (cs : List Char) : Bool :=
  isPointNumber (unsigned cs) || isFraction cs || isSixtyNumber (unsigned cs) ||
    infinityWords.contains (String.ofList (unsigned cs)) ||
    nanWords.contains (String.ofList cs)

/-! ## Dates -/

/-- Digits at the front of a text, at least and at most so many, and what follows. -/
def takeDigits? (least most : Nat) (cs : List Char) : Option (List Char) :=
  let count := (cs.take most |>.takeWhile Text.isAsciiDigit).length
  if least ≤ count then some (cs.drop count) else none

/-- A character at the front of a text, and what follows. -/
def takeChar? (c : Char) : List Char → Option (List Char)
  | d :: cs => if c = d then some cs else none
  | [] => none

/-- A date with a two-digit month and day. -/
def isPlainDate (cs : List Char) : Bool :=
  (do
    let cs ← takeDigits? 4 4 cs
    let cs ← takeChar? '-' cs
    let cs ← takeDigits? 2 2 cs
    let cs ← takeChar? '-' cs
    takeDigits? 2 2 cs) = some []

/-- A zone after a time: none, `Z`, or an offset. -/
def isZone (cs : List Char) : Bool :=
  let cs := cs.dropWhile fun c => c = ' ' || c = '\t'
  match cs with
  | [] => true
  | ['Z'] => true
  | sign :: rest =>
    (sign = '+' || sign = '-') &&
      match takeDigits? 1 2 rest with
      | some [] => true
      | some (':' :: minutes) => takeDigits? 2 2 minutes = some []
      | _ => false

/-- What follows a time of day at the front of a text. -/
def afterTime? (cs : List Char) : Option (List Char) := do
  let cs ← takeDigits? 1 2 cs
  let cs ← takeChar? ':' cs
  let cs ← takeDigits? 2 2 cs
  let cs ← takeChar? ':' cs
  let cs ← takeDigits? 2 2 cs
  match cs with
  | '.' :: fraction => return fraction.dropWhile Text.isAsciiDigit
  | cs => return cs

/-- A time of day after the mark between date and time. -/
def afterMark? : List Char → Option (List Char)
  | c :: cs =>
    if c = 'T' || c = 't' then some cs
    else if c = ' ' || c = '\t' then some (cs.dropWhile fun c => c = ' ' || c = '\t')
    else none
  | [] => none

/-- A date with a time. -/
def isTimedDate (cs : List Char) : Bool :=
  (do
    let cs ← takeDigits? 4 4 cs
    let cs ← takeChar? '-' cs
    let cs ← takeDigits? 1 2 cs
    let cs ← takeChar? '-' cs
    let cs ← takeDigits? 1 2 cs
    let cs ← afterMark? cs
    afterTime? cs).any isZone

/-! ## Plain scalars -/

/-- The tag of the marks of tags, anchors and aliases, for which there are no values. -/
def mark : Tag := other (standardFront ++ "yaml")

/-- The tag of dates, for which there are no values either. -/
def date : Tag := other (standardFront ++ "timestamp")

/-- The marks of tags, anchors and aliases. -/
def markWords : List String := ["!", "&", "*"]

/-- The tag of a plain scalar, by its form. A line feed at its end is of no account, unless there is
nothing else. -/
def ofPlain (s : String) : Tag :=
  let cs := if s = "\n" then s.toList else Text.withoutFinalNewline s.toList
  let word := String.ofList cs
  if nullWords.contains word then .null
  else if trueWords.contains word || falseWords.contains word then .bool
  else if isReal cs then .real
  else if isInteger cs then .int
  else if word = "<<" then .merge
  else if word = "=" then .default
  else if markWords.contains word then mark
  else if isPlainDate cs || isTimedDate cs then date
  else .string

end Tag

end ThemeLocales.Yaml
