import ThemeLocales.Text.Units

/-!
# Punycode

Labels with characters beyond ASCII, written in ASCII letters and digits: the ASCII characters come
first, then numbers that say which characters are put in where, in ascending order. Each number is
the distance from the place before it, in digits whose thresholds adapt to the sizes seen so far.
`encode` writes a label so, and `decode?` reads it back.
-/

set_option autoImplicit false

namespace ThemeLocales.Url.Punycode

/-- The letter or digit that stands for a number below thirty-six. -/
def symbol (n : Nat) : Char :=
  if n < 26 then Char.ofNat (97 + n) else Char.ofNat (22 + n)

/-- The threshold at a position; a smaller digit there ends a number. -/
def threshold (position bias : Nat) : Nat :=
  max 1 (min 26 (position - bias))

theorem threshold_pos (position bias : Nat) : 0 < threshold position bias := by
  simp only [threshold]
  omega

/-- The digits of a number, lowest first. -/
def digits (bias position n : Nat) : List Char :=
  if n < threshold position bias then [symbol n]
  else
    symbol (threshold position bias +
        (n - threshold position bias) % (36 - threshold position bias)) ::
      digits bias (position + 36)
        ((n - threshold position bias) / (36 - threshold position bias))
termination_by n
decreasing_by
  have := threshold_pos position bias
  have := Nat.div_le_self (n - threshold position bias) (36 - threshold position bias)
  omega

/-- How often a distance has to be divided to be small, in steps of a position, and what it is
then. -/
def scaled (position distance : Nat) : Nat × Nat :=
  if 455 < distance then scaled (position + 36) (distance / 35) else (position, distance)
termination_by distance
decreasing_by exact Nat.div_lt_self (by omega) (by omega)

/-- The bias after a distance was written, with so many characters in place. -/
def adapted (isFirst : Bool) (distance count : Nat) : Nat :=
  let damped := distance / if isFirst then 700 else 2
  let (position, rest) := scaled 0 (damped + damped / count)
  position + 36 * rest / (rest + 38)

/-- A label that is being written: the digits so far, the distance from the last place, the bias,
and how many characters are in place. -/
structure Writer where
  written : List Char
  distance : Nat
  bias : Nat
  placed : Nat
  deriving Repr

/-- One step over a character of the label, while a code point is put in. -/
def Writer.pass (basic code : Nat) (w : Writer) (c : Char) : Writer :=
  if c.toNat < code then { w with distance := w.distance + 1 }
  else if c.toNat = code then
    { written := w.written ++ digits w.bias 36 w.distance
      distance := 0
      bias := adapted (w.placed = basic) w.distance (w.placed + 1)
      placed := w.placed + 1 }
  else w

/-- Puts in code points, which ascend; all below the second argument are in place. -/
def Writer.place (label : List Char) (basic : Nat) : Nat → List Nat → Writer → Writer
  | _, [], w => w
  | least, code :: codes, w =>
    let here := { w with distance := w.distance + (code - least) * (w.placed + 1) }
    let after := label.foldl (Writer.pass basic code) here
    Writer.place label basic (code + 1) codes { after with distance := after.distance + 1 }

/-- The code points beyond ASCII of a label, ascending. -/
def extendedCodes (label : List Char) : List Nat :=
  (((label.map Char.toNat).filter (0x80 ≤ ·)).mergeSort).eraseDups

/-- A label in Punycode. -/
def encode (label : List Char) : List Char :=
  let basic := label.filter fun c => c.toNat < 0x80
  let writer : Writer := ⟨[], 0, 72, basic.length⟩
  basic ++ (if basic.isEmpty then [] else ['-']) ++
    (writer.place label basic.length 0x80 (extendedCodes label)).written

/-! ## Reading -/

/-- The number that a letter or digit stands for. -/
def value? (c : Char) : Option Nat :=
  if 'a' ≤ c && c ≤ 'z' then some (c.toNat - 97)
  else if '0' ≤ c && c ≤ '9' then some (c.toNat - 22)
  else none

/-- The number at the front of some digits, and the digits after it. -/
def number? (bias position : Nat) : List Char → Option (Nat × List Char)
  | [] => none
  | c :: cs => do
    let digit ← value? c
    if digit < threshold position bias then return (digit, cs)
    else
      let (more, rest) ← number? bias (position + 36) cs
      return (digit + more * (36 - threshold position bias), rest)

theorem length_rest_lt_of_number? {bias position n : Nat} {cs rest : List Char}
    (h : number? bias position cs = some (n, rest)) : rest.length < cs.length := by
  induction cs generalizing position n with
  | nil => simp [number?] at h
  | cons c cs ih =>
    simp only [number?, Option.bind_eq_bind, Option.bind_eq_some_iff] at h
    obtain ⟨digit, -, h⟩ := h
    split at h
    · simp only [Option.pure_def, Option.some.injEq, Prod.mk.injEq] at h
      simp [h.2]
    · simp only [Option.bind_eq_some_iff, Option.pure_def, Option.some.injEq, Prod.mk.injEq] at h
      obtain ⟨⟨more, tail⟩, found, -, rfl⟩ := h
      have shorter : tail.length < cs.length := ih found
      simp only [List.length_cons]
      omega

/-- A label that is being read: what is in place, where the next number counts from, the code point
at the last place and the bias. -/
structure Reader where
  placed : List Char
  place : Nat := 0
  code : Nat := 0x80
  bias : Nat := 72
  deriving Repr

/-- Puts a character in, so far from the last place. -/
def Reader.put? (isFirst : Bool) (distance : Nat) (r : Reader) : Option Reader := do
  let count := r.placed.length + 1
  let place := (r.place + distance) % count
  let code := r.code + (r.place + distance) / count
  let c ← Text.charAt? code
  return {
    placed := r.placed.take place ++ c :: r.placed.drop place
    place := place + 1
    code
    bias := adapted isFirst distance count }

/-- The label that digits say, with what is in place already. -/
def Reader.read? (isFirst : Bool) (r : Reader) (digits : List Char) : Option (List Char) :=
  match digits with
  | [] => some r.placed
  | c :: cs =>
    match _found : number? r.bias 36 (c :: cs) with
    | none => none
    | some (distance, rest) =>
      match r.put? isFirst distance with
      | none => none
      | some r => r.read? false rest
termination_by digits.length
decreasing_by exact length_rest_lt_of_number? _found

/-- What stands before the last hyphen and after it; without a hyphen, nothing stands before. -/
def splitAtHyphen (cs : List Char) : List Char × List Char :=
  match cs.reverse.span (· ≠ '-') with
  | (digits, _ :: basic) => (basic.reverse, digits.reverse)
  | (_, []) => ([], cs)

/-- The label that a text in Punycode writes, in which all letters are small ones. -/
def decode? (cs : List Char) : Option (List Char) :=
  let (basic, digits) := splitAtHyphen cs
  Reader.read? true { placed := basic } digits

end ThemeLocales.Url.Punycode
