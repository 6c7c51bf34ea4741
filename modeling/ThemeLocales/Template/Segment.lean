import ThemeLocales.Document.Basic
import ThemeLocales.Text.Blank
import ThemeLocales.Text.Digit
import ThemeLocales.Text.Search

/-!
# Segments of a filter chain

A region is a chain of segments with bars between them. Three questions are asked of a segment:
whether it is the translation filter `t` behind a quoted literal, which key a literal spells, and
which default the filter carries.
-/

set_option autoImplicit false

namespace ThemeLocales.Template

open Text

/-- Whether a character is one of the two quotes. -/
def isQuote (c : Char) : Bool :=
  c = '"' || c = '\''

/-- The segments of a region, trimmed. -/
def segments (region : String) : List String :=
  (pieces '|' region).map trimmed

/-- Whether a text is the letter of the filter alone, or before a blank or a colon. -/
def isFilterCall : List Char → Bool
  | ['t'] => true
  | 't' :: c :: _ => isBlank c || c = ':'
  | _ => false

/-- Whether a text ends in a quote with another quote before it on the same line. A line feed at
the end does not count. -/
def endsInQuoted (cs : List Char) : Bool :=
  match (withoutFinalNewline cs).reverse with
  | [] => false
  | c :: before => isQuote c && (before.takeWhile (· != '\n')).any isQuote

/-- Whether a segment is a translation filter for the segment before it. -/
def isTranslationFilter (segment before : String) : Bool :=
  isFilterCall segment.toList && endsInQuoted before.toList

/-- The key that a segment ends in: what stands between two equal quotes, without quotes and
backslashes inside. -/
def keyLiteral? (segment : String) : Option String :=
  match (withoutFinalNewline segment.toList).reverse with
  | [] => none
  | quote :: before =>
    if isQuote quote then
      let body := before.takeWhile fun c => !isQuote c && c != '\\'
      if (before.drop body.length).head? = some quote then some (String.ofList body.reverse)
      else none
    else none

/-- The argument of a filter call at the front of a text: the rest of its only line. -/
def argumentAt? (cs : List Char) : Option (List Char) :=
  match after? ['t', ':'] cs with
  | none => none
  | some rest =>
    let line := withoutFinalNewline (trimStart rest)
    if line.contains '\n' then none else some (trim line)

/-- The argument of the first filter call that has one. -/
def argument? : List Char → Option (List Char)
  | [] => none
  | c :: cs =>
    match argumentAt? (c :: cs) with
    | some value => some value
    | none => argument? cs

/-- The text between two quotes at the ends, of either kind. -/
def quotedInside? : List Char → Option (List Char)
  | [] => none
  | c :: rest =>
    match rest.reverse with
    | [] => none
    | last :: inner => if isQuote c && isQuote last then some inner.reverse else none

/-- The digits of a number: whether it is negative, the whole digits, and the fraction digits. -/
def numberParts? (cs : List Char) : Option (Bool × List Char × List Char) :=
  let (negative, unsigned) := match cs with
    | '-' :: rest => (true, rest)
    | rest => (false, rest)
  let whole := unsigned.takeWhile isAsciiDigit
  if whole.isEmpty then none
  else match unsigned.drop whole.length with
    | [] => some (negative, whole, [])
    | '.' :: fraction =>
      if fraction.isEmpty || !fraction.all isAsciiDigit then none
      else some (negative, whole, fraction)
    | _ => none

/-- The default that a bare number gives: the nearest double, written as an integer when it is
one. -/
def numberDefault (negative : Bool) (whole fraction : List Char) : Document :=
  let x := Binary64.ofDecimal negative (digitsValue (whole ++ fraction)) (-(fraction.length : Int))
  match x.toInt? with
  | some n => .int n
  | none => .real x

/-- The default that an argument spells; the empty text when it is no literal. -/
def literalDefault (value : List Char) : Document :=
  match quotedInside? value with
  | some inner => .string (String.ofList inner)
  | none =>
    match numberParts? value with
    | some (negative, whole, fraction) => numberDefault negative whole fraction
    | none => .string ""

/-- The default that a filter segment carries. -/
def filterDefault (segment : String) : Document :=
  match argument? segment.toList with
  | some value => literalDefault value
  | none => .string ""

end ThemeLocales.Template
