import ThemeLocales.Number.Reading
import ThemeLocales.Number.Shortest
import ThemeLocales.Text.Quoted
import ThemeLocales.World

/-!
# Trying again

A request that failed is made again after a delay: the one that the service asks for, or else one
that doubles with every attempt, with some jitter on top.
-/

set_option autoImplicit false

namespace ThemeLocales.Provider.Retry

open Operation

/-- The seconds of a delay header, which is a number of seconds or, with the ending `ms`, of
milliseconds. -/
def headerSeconds? (header : String) : Option Binary64 :=
  if Text.endsIn "ms" header then
    (Number.readDouble? (String.ofList (header.toList.take (header.toList.length - 2)))).bind
      fun x => x.div? (.ofRatio false 1000 1)
  else Number.readDouble? header

/-- Reads a delay header. One that cannot be read is logged and does not count. -/
def readHeader (header : Option String) : Operation (Option Binary64) := do
  match header with
  | none => return none
  | some "" => return none
  | some text =>
    let text := Text.trimmed text
    match headerSeconds? text with
    | some seconds => return some seconds
    | none =>
      logMessage .warning
        ("Failed to parse Retry-After header '" ++ text ++
          "'. Falling back to exponential backoff.")
      return none

/-- An integer as a double. -/
def doubleOf (n : Int) : Except Failure Binary64 :=
  match Binary64.ofInt? n with
  | some x => .ok x
  | none => .error .overflow

/-- Two to an integer power, as a double. -/
def powerOfTwo (exponent : Int) : Except Failure Binary64 :=
  if 0 ≤ exponent then doubleOf (Nat.pow 2 exponent.toNat)
  else .ok (.ofRatio false 1 (Nat.pow 2 (-exponent).toNat))

/-- Why a base delay that can be repeated and is no number has no multiple: it would not fit, or is
of the wrong type. -/
def repeated (attempt : Int) : Failure :=
  if 63 < attempt then .overflow else .wrongType

/-- The base delay doubled once for each attempt after the first. -/
def scaled (base : Document) (attempt : Int) : Except Failure Binary64 :=
  match base with
  | .int n =>
    if 1 ≤ attempt then doubleOf (n * (Nat.pow 2 (attempt - 1).toNat : Nat))
    else return (← doubleOf n).mul (← powerOfTwo (attempt - 1))
  | .bool b =>
    if 1 ≤ attempt then doubleOf ((if b then 1 else 0) * (Nat.pow 2 (attempt - 1).toNat : Nat))
    else return (if b then Binary64.one else .zero).mul (← powerOfTwo (attempt - 1))
  | .real x => return x.mul (← powerOfTwo (attempt - 1))
  | .string _ => .error (repeated attempt)
  | .list _ => .error (repeated attempt)
  | _ => .error .wrongType

/-- The delay before the next attempt when the service asks for none. -/
def backoff (jitter : Binary64) (base : Document) (attempt : Int) : Except Failure Document :=
  (scaled base attempt).map fun x => .real (x.add jitter)

/-- A delay with two decimal places. -/
def delayText : Document → Except Failure String
  | .real x => .ok x.twoPlaces
  | .int n => (doubleOf n).map Binary64.twoPlaces
  | .bool b => .ok (if b then Binary64.one else .zero).twoPlaces
  | .string _ => .error (.badValue "Unknown format code 'f' for object of type 'str'")
  | _ => .error .wrongType

/-- Waits. -/
def sleep (delay : Document) : Operation Unit :=
  modify fun w => { w with sleeps := w.sleeps ++ [delay] }

/-- The jitter that is drawn for the next delay. -/
def nextJitter (w : World) : Binary64 :=
  w.jitter.draw w.sleeps.length

/-- Waits before the next attempt and tells whether there is one. The requested delay is null where
the service asks for none. -/
def again (attempt maxRetries : Int) (base : Document) (description : String)
    (requested : Document) : Operation Bool := do
  if maxRetries ≤ attempt then
    logMessage .error (description ++ " failed after " ++ toString maxRetries ++ " attempts.")
    return false
  let delay ← match requested with
    | .null => do ofResult (backoff (nextJitter (← get)) base attempt)
    | d => pure d
  let shown ← ofResult (delayText delay)
  logMessage .info
    ("Retrying " ++ description ++ " in " ++ shown ++ " seconds (Attempt " ++
      toString attempt ++ "/" ++ toString maxRetries ++ ")")
  sleep delay
  return true

end ThemeLocales.Provider.Retry
