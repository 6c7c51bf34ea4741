/-!
# Ranges of characters

Properties of characters are given by ranges of code points, in increasing order, as Unicode 14 has
them. Code points that are not assigned may lie inside a range.
-/

set_option autoImplicit false

namespace ThemeLocales.Text

/-- Whether a character lies in one of some ranges, ends included. -/
def isWithin (ranges : List (Nat × Nat)) (c : Char) : Bool :=
  ranges.any fun (first, last) => first ≤ c.toNat && c.toNat ≤ last

end ThemeLocales.Text
