import ThemeLocales.Text.Digit

/-!
# Numeric hosts

Hosts that are the number of a machine: four decimal numbers, or groups of hexadecimal digits of
which one run of zeros may be left out.
-/

set_option autoImplicit false

namespace ThemeLocales.Url

open Text

/-! ## Four numbers -/

/-- Whether digits write a number below 256 without zeros in front. -/
def isOctet (cs : List Char) : Bool :=
  !cs.isEmpty && cs.all isAsciiDigit && cs.length ≤ 3 && (cs = ['0'] || cs.head? ≠ some '0') &&
    digitsValue cs < 256

/-- Whether a text is four numbers with points between them. -/
def isFourNumbers (cs : List Char) : Bool :=
  let numbers := cs.splitOn '.'
  numbers.length = 4 && numbers.all isOctet

/-- Whether a text is four runs of digits with points between them. Such a text is no name. -/
def looksLikeFourNumbers (cs : List Char) : Bool :=
  let runs := cs.splitOn '.'
  runs.length = 4 && runs.all fun run => !run.isEmpty && run.all isAsciiDigit

/-! ## Groups -/

/-- Whether a text is a group: one to four hexadecimal digits. -/
def isGroup (cs : List Char) : Bool :=
  !cs.isEmpty && cs.length ≤ 4 && cs.all fun c => (hexDigit? c).isSome

/-- The groups on one side of a run of zeros that was left out; there may be none. -/
def besideGap (groups : List (List Char)) : List (List Char) :=
  if groups = [[]] then [] else groups

/-- Whether pieces are the eight groups of an address, or fewer around one gap. -/
def areGroups : List (List Char) → Bool
  | [] => false
  | first :: rest =>
    let (more, tail) := rest.span fun piece => !piece.isEmpty
    match tail with
    | [] :: l :: low =>
      let groups := besideGap (first :: more) ++ besideGap (l :: low)
      groups.length ≤ 7 && groups.all isGroup
    | _ => rest.length = 7 && (first :: rest).all isGroup

/-- The pieces with two groups for the four numbers that may stand at their end. -/
def withoutNumbers? (pieces : List (List Char)) : Option (List (List Char)) :=
  let last := pieces.getLast?.getD []
  if !last.contains '.' then some pieces
  else if isFourNumbers last then some (pieces.dropLast ++ [['0'], ['0']])
  else none

/-- Whether what follows the groups is nothing or the name of a zone. -/
def isZone : List Char → Bool
  | [] => true
  | _ :: zone => !zone.isEmpty && !zone.contains '%'

/-- Whether a text is an address of groups, with a zone after it or not. -/
def isGroupAddress (cs : List Char) : Bool :=
  let (address, zone) := cs.span (· ≠ '%')
  let pieces := address.splitOn ':'
  isZone zone && 3 ≤ pieces.length && (withoutNumbers? pieces).any areGroups

end ThemeLocales.Url
