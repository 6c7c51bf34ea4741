/-!
# Double-precision numbers

The binary64 format as plain data: a sign, a significand and an exponent of two, with exact
arithmetic on naturals and one rounding to nearest, ties to even. Every number below is canonical:
the significand is below `2 ^ 53`, and it is at least `2 ^ 52` unless the exponent is the least
one, so two finite numbers are equal as data exactly when they are the same double.
-/

set_option autoImplicit false

namespace ThemeLocales

/-- A double: not a number, an infinity, or `± significand * 2 ^ exponent`. -/
inductive Binary64
  | nan
  | infinity (negative : Bool)
  | finite (negative : Bool) (significand : Nat) (exponent : Int)
  deriving DecidableEq, Repr, Inhabited

namespace Binary64

/-- The exponent of the subnormal numbers. -/
def leastExponent : Int := -1074

/-- The exponent of the greatest finite numbers. -/
def greatestExponent : Int := 971

/-- The quotient rounded to the nearest natural, a tie to the even neighbour. -/
def roundedQuotient (num den : Nat) : Nat :=
  let q := num / den
  let r := num % den
  if 2 * r < den then q
  else if den < 2 * r then q + 1
  else if q % 2 = 0 then q else q + 1

/-- The greatest `k` with `2 ^ k ≤ num / den`, for positive arguments. -/
def floorLog (num den : Nat) : Int :=
  let k : Int := (Nat.log2 num : Int) - (Nat.log2 den : Int)
  if den * Nat.pow 2 k.toNat ≤ num * Nat.pow 2 (-k).toNat then k else k - 1

/-- The double nearest to `± num / den`. -/
def ofRatio (negative : Bool) (num den : Nat) : Binary64 :=
  if num = 0 then finite negative 0 leastExponent
  else
    let e := max (floorLog num den - 52) leastExponent
    let m := roundedQuotient (num * Nat.pow 2 (-e).toNat) (den * Nat.pow 2 e.toNat)
    let (m, e) := if m = Nat.pow 2 53 then (Nat.pow 2 52, e + 1) else (m, e)
    if greatestExponent < e then infinity negative else finite negative m e

/-- How many decimal digits a natural has; one for zero. -/
def digitCount (n : Nat) : Nat :=
  (Nat.toDigits 10 n).length

/-- The double nearest to `± digits * 10 ^ exponent`. Exponents far outside the range of doubles
are answered without computing the power. -/
def ofDecimal (negative : Bool) (digits : Nat) (exponent : Int) : Binary64 :=
  let magnitude : Int := (digitCount digits : Int) + exponent
  if digits = 0 || magnitude < -400 then finite negative 0 leastExponent
  else if 400 < magnitude then infinity negative
  else ofRatio negative (digits * Nat.pow 10 exponent.toNat) (Nat.pow 10 (-exponent).toNat)

/-- Zero, the positive one. -/
def zero : Binary64 := finite false 0 leastExponent

/-- The exact value of a finite double. -/
def toRat? : Binary64 → Option Rat
  | finite negative m e =>
    let magnitude : Rat := mkRat (m * Nat.pow 2 e.toNat : Nat) (Nat.pow 2 (-e).toNat)
    some (if negative then -magnitude else magnitude)
  | _ => none

/-- The double nearest to a rational; a negative one that rounds to zero keeps its sign. -/
def ofRat (r : Rat) : Binary64 :=
  ofRatio (r.num < 0) r.num.natAbs r.den

/-- The double nearest to an integer, unless it lies beyond the finite doubles. -/
def ofInt? (n : Int) : Option Binary64 :=
  match ofRatio (n < 0) n.natAbs 1 with
  | finite s m e => some (finite s m e)
  | _ => none

/-- Whether the sign bit is set. -/
def isNegative : Binary64 → Bool
  | nan => false
  | infinity negative => negative
  | finite negative _ _ => negative

/-- Whether the number is zero, of either sign. -/
def isZero : Binary64 → Bool
  | finite _ m _ => m == 0
  | _ => false

/-- The integer that a double is, if it is one. -/
def toInt? : Binary64 → Option Int
  | finite negative m e =>
    if m % Nat.pow 2 (-e).toNat = 0 then
      let magnitude : Int := (m * Nat.pow 2 e.toNat / Nat.pow 2 (-e).toNat : Nat)
      some (if negative then -magnitude else magnitude)
    else none
  | _ => none

/-- The integer part of a finite double, rounded toward zero. -/
def truncate? : Binary64 → Option Int
  | finite negative m e =>
    let magnitude : Int := (m * Nat.pow 2 e.toNat / Nat.pow 2 (-e).toNat : Nat)
    some (if negative then -magnitude else magnitude)
  | _ => none

/-- The sum, rounded. -/
def add : Binary64 → Binary64 → Binary64
  | nan, _ => nan
  | _, nan => nan
  | infinity s, infinity t => if s = t then infinity s else nan
  | infinity s, _ => infinity s
  | _, infinity t => infinity t
  | a@(finite s m _), b@(finite t n _) =>
    if m = 0 && n = 0 then finite (s && t) 0 leastExponent
    else ofRat (a.toRat?.getD 0 + b.toRat?.getD 0)

/-- The product, rounded. -/
def mul : Binary64 → Binary64 → Binary64
  | nan, _ => nan
  | _, nan => nan
  | infinity s, b => if b.isZero then nan else infinity (s != b.isNegative)
  | a, infinity t => if a.isZero then nan else infinity (a.isNegative != t)
  | finite s m e, finite t n f =>
    ofRatio (s != t) (m * n * Nat.pow 2 (e + f).toNat) (Nat.pow 2 (-(e + f)).toNat)

/-- The quotient, rounded; `none` for a zero divisor. -/
def div? : Binary64 → Binary64 → Option Binary64
  | _, finite _ 0 _ => none
  | nan, _ => some nan
  | _, nan => some nan
  | infinity _, infinity _ => some nan
  | infinity s, b => some (infinity (s != b.isNegative))
  | a, infinity t => some (finite (a.isNegative != t) 0 leastExponent)
  | finite s m e, finite t n f =>
    some (ofRatio (s != t) (m * Nat.pow 2 (e - f).toNat) (n * Nat.pow 2 (f - e).toNat))

/-- Strict order of doubles; not a number is in no order. -/
def lt : Binary64 → Binary64 → Bool
  | nan, _ => false
  | _, nan => false
  | infinity s, infinity t => s && !t
  | infinity s, _ => s
  | _, infinity t => !t
  | a@(finite ..), b@(finite ..) => a.toRat?.getD 0 < b.toRat?.getD 0

/-- Half. -/
def half : Binary64 := ofRatio false 1 2

/-- One. -/
def one : Binary64 := ofRatio false 1 1

end Binary64

end ThemeLocales
