import ThemeLocales.Text.Units

/-!
# Texts as code points

A text that is written with escapes may have a surrogate that stands alone, which no string has.
Such a text is kept as its code points. They are those of a string where every surrogate is paired.
-/

set_option autoImplicit false

namespace ThemeLocales.Text

/-- A text as its code points. Unlike a string, it may have surrogates that stand alone. -/
abbrev Points := List Nat

/-- The code points of a string. -/
def points (s : String) : Points :=
  s.toList.map Char.toNat

/-- Whether no surrogate stands alone. -/
def isPaired (ps : Points) : Bool :=
  ps.all fun n => (charAt? n).isSome

/-- The string that code points show, with the replacement character for each surrogate that stands
alone. -/
def ofPoints (ps : Points) : String :=
  String.ofList (ps.map fun n => (charAt? n).getD '\uFFFD')

end ThemeLocales.Text
