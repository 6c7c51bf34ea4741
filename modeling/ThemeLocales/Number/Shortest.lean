import ThemeLocales.Number.Binary64
import ThemeLocales.Text.Digit

/-!
# Shortest decimal text of a double

The fewest significant digits that read back as the same double and, of those, the ones nearest to
it. The search tests, for one to seventeen digits, the two neighbours of the number on the decimal
grid of that many digits against the interval of reals that round to it.
-/

set_option autoImplicit false

namespace ThemeLocales.Binary64

/-- The greatest `k` with `10 ^ k ≤ num / den`, for positive arguments. -/
def floorLogTen (num den : Nat) : Int :=
  if den ≤ num then (digitCount (num / den) : Int) - 1
  else
    let places := digitCount (den / num)
    if den ≤ num * Nat.pow 10 (places - 1) then -((places : Int) - 1) else -(places : Int)

/-- The interval of the reals that round to a double, in quarters of the unit of its last place:
both ends, the number itself, and whether the ends belong to it. -/
structure Interval where
  low : Nat
  mid : Nat
  high : Nat
  closed : Bool
  deriving DecidableEq, Repr

/-- The rounding interval of `significand * 2 ^ exponent`. Below a power of two the grid is twice
as fine, so the lower half of the interval is half as wide. -/
def interval (significand : Nat) (exponent : Int) : Interval :=
  let atPower := significand = Nat.pow 2 52 && leastExponent < exponent
  { low := if atPower then 4 * significand - 1 else 4 * significand - 2
    mid := 4 * significand
    high := 4 * significand + 2
    closed := significand % 2 = 0 }

/-- Whether `point` lies in the interval, both scaled: `point * grid` against `bound * unit`. -/
def Interval.contains (i : Interval) (point grid unit : Nat) : Bool :=
  let x := point * grid
  (i.low * unit < x && x < i.high * unit) ||
    (i.closed && (x == i.low * unit || x == i.high * unit))

/-- The point of one decimal grid that reads back, if there is one: the nearer of the two
neighbours, and of two equally near ones the even. -/
def gridPoint? (i : Interval) (grid unit : Nat) : Option Nat :=
  let below := i.mid * unit / grid
  let rest := i.mid * unit % grid
  if rest = 0 then some below
  else
    let hitBelow := i.contains below grid unit
    let hitAbove := i.contains (below + 1) grid unit
    let belowNearer := 2 * rest < grid || (2 * rest == grid && below % 2 == 0)
    if hitBelow && (belowNearer || !hitAbove) then some below
    else if hitAbove then some (below + 1)
    else none

/-- The first grid with a hit, from a number of digits on, with fuel. -/
def searchGrids (i : Interval) (exponent magnitude : Int) : Nat → Nat → Nat × Int
  | 0, _ => (0, 0)
  | fuel + 1, digits =>
    let place : Int := magnitude - digits + 1
    let grid := Nat.pow 10 place.toNat * Nat.pow 2 (2 - exponent).toNat
    let unit := Nat.pow 2 (exponent - 2).toNat * Nat.pow 10 (-place).toNat
    match gridPoint? i grid unit with
    | some point => (point, place)
    | none => searchGrids i exponent magnitude fuel (digits + 1)

/-- Digits and decimal exponent of the shortest decimal of a positive double. -/
def shortest (significand : Nat) (exponent : Int) : Nat × Int :=
  let num := significand * Nat.pow 2 exponent.toNat
  let den := Nat.pow 2 (-exponent).toNat
  searchGrids (interval significand exponent) exponent (floorLogTen num den) 17 1

/-- The texts of the numbers that have no digits. -/
structure SpecialTexts where
  nan : String
  infinity : String

/-- The digits without zeros at the end. -/
def significantDigits (digits : Nat) : List Char :=
  let cs := Nat.toDigits 10 digits
  match (cs.reverse.dropWhile (· == '0')).reverse with
  | [] => ['0']
  | kept => kept

/-- A fraction part, `.0` when there is none. -/
def fractionText : List Char → List Char
  | [] => ['.', '0']
  | cs => '.' :: cs

/-- Positional notation of `0.digits * 10 ^ point`. -/
def positional (digits : List Char) (point : Int) : List Char :=
  if point ≤ 0 then
    '0' :: '.' :: (List.replicate (-point).toNat '0' ++ digits)
  else
    let whole := digits.take point.toNat
    whole ++ List.replicate (point.toNat - whole.length) '0' ++
      fractionText (digits.drop point.toNat)

/-- Scientific notation with a sign and at least two digits in the exponent. -/
def scientific (digits : List Char) (exponent : Int) : List Char :=
  let lead := digits.take 1
  let tail := match digits.drop 1 with
    | [] => []
    | rest => '.' :: rest
  let sign := if exponent < 0 then '-' else '+'
  lead ++ tail ++ 'e' :: sign :: (Text.padded 10 2 exponent.natAbs).toList

/-- Positional notation serves decimal exponents from -4 to 15, scientific notation the others. -/
def finiteText (significand : Nat) (exponent : Int) : List Char :=
  if significand = 0 then ['0', '.', '0']
  else
    let (digits, place) := shortest significand exponent
    let all := Nat.toDigits 10 digits
    let point : Int := place + all.length
    let kept := significantDigits digits
    if -4 < point && point ≤ 16 then positional kept point else scientific kept (point - 1)

/-- The text of a double. -/
def textWith (special : SpecialTexts) (x : Binary64) : String :=
  let unsigned := match x with
    | nan => special.nan.toList
    | infinity _ => special.infinity.toList
    | finite _ m e => finiteText m e
  String.ofList (if x.isNegative then '-' :: unsigned else unsigned)

/-- The spelling of the special numbers in messages. -/
def messageTexts : SpecialTexts := ⟨"nan", "inf"⟩

/-- The text of a double in messages. -/
def text (x : Binary64) : String := x.textWith messageTexts

/-- A double with two decimal places, a half going to the even neighbour. -/
def twoPlaces : Binary64 → String
  | nan => "nan"
  | infinity negative => if negative then "-inf" else "inf"
  | finite negative m e =>
    let hundredths := roundedQuotient (m * Nat.pow 2 e.toNat * 100) (Nat.pow 2 (-e).toNat)
    (if negative then "-" else "") ++ toString (hundredths / 100) ++ "." ++
      Text.padded 10 2 (hundredths % 100)

end ThemeLocales.Binary64
