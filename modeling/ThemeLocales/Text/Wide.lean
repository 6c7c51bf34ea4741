import ThemeLocales.Text.Units

/-!
# Texts in wide units

Bytes that hold a text in units of two or four bytes, in either order of the bytes of a unit.
-/

set_option autoImplicit false

namespace ThemeLocales.Text

/-- The order of the bytes of a unit. -/
inductive ByteOrder
  | bigEndian
  | littleEndian
  deriving DecidableEq, Repr

namespace ByteOrder

/-- The number that the bytes of a unit spell. -/
def number (order : ByteOrder) (bytes : List UInt8) : Nat :=
  let digits := match order with
    | bigEndian => bytes
    | littleEndian => bytes.reverse
  digits.foldl (fun n b => n * 256 + b.toNat) 0

/-- The numbers of units of two bytes; no byte may be left over. -/
def pairs? (order : ByteOrder) : List UInt8 → Option (List Nat)
  | [] => some []
  | a :: b :: rest => (order.pairs? rest).map (order.number [a, b] :: ·)
  | [_] => none

/-- The numbers of units of four bytes; no byte may be left over. -/
def quads? (order : ByteOrder) : List UInt8 → Option (List Nat)
  | [] => some []
  | a :: b :: c :: d :: rest => (order.quads? rest).map (order.number [a, b, c, d] :: ·)
  | _ => none

end ByteOrder

/-- The text of bytes in units of two. -/
def ofPairs? (order : ByteOrder) (bytes : List UInt8) : Option String := do
  return String.ofList (← ofUnits? (← order.pairs? bytes))

/-- The text of bytes in units of four, each of which is a code point. -/
def ofQuads? (order : ByteOrder) (bytes : List UInt8) : Option String := do
  return String.ofList (← (← order.quads? bytes).mapM charAt?)

end ThemeLocales.Text
