/-!
# Blank characters

The class of characters that trimming removes, and the three trims over it. The class is the one
that Unicode calls white space, with the four information separators U+001C to U+001F added.
-/

set_option autoImplicit false

namespace ThemeLocales.Text

/-- Code points of the blank characters above U+0020. -/
def wideBlanks : List Nat :=
  [0x85, 0xA0, 0x1680, 0x2000, 0x2001, 0x2002, 0x2003, 0x2004, 0x2005, 0x2006, 0x2007, 0x2008,
    0x2009, 0x200A, 0x2028, 0x2029, 0x202F, 0x205F, 0x3000]

/-- A character is blank when trimming removes it. -/
def isBlank (c : Char) : Bool :=
  let n := c.toNat
  (9 ≤ n && n ≤ 13) || (28 ≤ n && n ≤ 32) || (0x80 ≤ n && wideBlanks.contains n)

/-- Drops the blanks at the front. -/
def trimStart (cs : List Char) : List Char :=
  cs.dropWhile isBlank

/-- Drops the blanks at the end. -/
def trimEnd (cs : List Char) : List Char :=
  (cs.reverse.dropWhile isBlank).reverse

/-- Drops the blanks at both ends. -/
def trim (cs : List Char) : List Char :=
  trimEnd (trimStart cs)

/-- A string without the blanks at its ends. -/
def trimmed (s : String) : String :=
  String.ofList (trim s.toList)

@[simp] theorem trimStart_nil : trimStart [] = [] := rfl

@[simp] theorem trimEnd_nil : trimEnd [] = [] := rfl

/-- What `trimStart` leaves is never longer than its argument. -/
theorem length_trimStart_le (cs : List Char) : (trimStart cs).length ≤ cs.length := by
  unfold trimStart
  exact (List.dropWhile_sublist isBlank).length_le

end ThemeLocales.Text
