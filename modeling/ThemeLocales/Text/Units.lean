/-!
# UTF-16 code units

The code units of texts: the order of texts by them, and texts read back from them. The order
differs from the order by code points where a character above U+FFFF meets one between U+E000 and
U+FFFF. `ofUnits?` reads back what `charUnits` writes, and refuses a surrogate that stands alone.
-/

set_option autoImplicit false

namespace ThemeLocales.Text

/-- The code units of one character: itself, or a high and a low surrogate. -/
def charUnits (c : Char) : List Nat :=
  let n := c.toNat
  if n < 0x10000 then [n]
  else [0xD800 + (n - 0x10000) / 0x400, 0xDC00 + (n - 0x10000) % 0x400]

/-- The code units of a text. -/
def units (s : String) : List Nat :=
  s.toList.flatMap charUnits

/-- Lexicographic comparison of number lists: whether the first does not come after the second. -/
def unitsLE : List Nat → List Nat → Bool
  | [], _ => true
  | _ :: _, [] => false
  | a :: as, b :: bs => if a < b then true else if b < a then false else unitsLE as bs

/-- Of two number lists, one does not come after the other. -/
theorem unitsLE_total (a b : List Nat) : (unitsLE a b || unitsLE b a) = true := by
  induction a generalizing b with
  | nil => rfl
  | cons x xs ih =>
    cases b with
    | nil => simp [unitsLE]
    | cons y ys =>
      have hrest := ih ys
      simp only [unitsLE]
      rcases Nat.lt_trichotomy x y with hlt | rfl | hlt
      · simp [hlt]
      · simpa using hrest
      · simp [hlt]

theorem unitsLE_refl (a : List Nat) : unitsLE a a = true := by
  simpa using unitsLE_total a a

theorem unitsLE_trans {a b c : List Nat} (hab : unitsLE a b = true) (hbc : unitsLE b c = true) :
    unitsLE a c = true := by
  induction a generalizing b c with
  | nil => rfl
  | cons x xs ih =>
    cases b with
    | nil => simp [unitsLE] at hab
    | cons y ys =>
      cases c with
      | nil => simp [unitsLE] at hbc
      | cons z zs =>
        simp only [unitsLE] at hab hbc ⊢
        grind

/-- The character with a code point, if there is one. -/
def charAt? (n : Nat) : Option Char :=
  if n.isValidChar then some (Char.ofNat n) else none

/-- Whether a unit is the first of a pair. -/
def isHighSurrogate (u : Nat) : Bool :=
  0xD800 ≤ u && u < 0xDC00

/-- Whether a unit is the second of a pair. -/
def isLowSurrogate (u : Nat) : Bool :=
  0xDC00 ≤ u && u < 0xE000

/-- The text that code units spell. -/
def ofUnits? : List Nat → Option (List Char)
  | [] => some []
  | [u] => (charAt? u).map fun c => [c]
  | u :: v :: rest =>
    if isHighSurrogate u && isLowSurrogate v then
      (ofUnits? rest).map (Char.ofNat (0x10000 + (u - 0xD800) * 0x400 + (v - 0xDC00)) :: ·)
    else do return (← charAt? u) :: (← ofUnits? (v :: rest))

end ThemeLocales.Text
