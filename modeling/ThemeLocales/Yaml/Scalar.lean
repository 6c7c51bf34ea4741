import ThemeLocales.Yaml.Cursor

/-!
# Scalars of a YAML text

The three ways in which a scalar is written: plain, between quotes, and as a block of lines. Line
ends inside a scalar are folded: a single one is a space, of several the first is dropped.
-/

set_option autoImplicit false

namespace ThemeLocales.Yaml.Scalar

/-! ## Folding -/

/-- What a line end followed by further ones stands for. -/
def folded (lineBreak : List Char) (further : List Char) : List Char :=
  if lineBreak ≠ ['\n'] then lineBreak ++ further
  else if further.isEmpty then [' ']
  else further

/-! ## Plain scalars -/

/-- How many characters a plain scalar has on its line. -/
def plainLength (inFlow : Bool) : List Char → Nat
  | [] => 0
  | c :: rest =>
    if isGapOrEnd (some c) then 0
    else if inFlow && ",?[]\x7b\x7d".toList.contains c then 0
    else if c = ':' && (isGapOrEnd rest.head? ||
        (inFlow && rest.head?.any (",[]\x7b\x7d".toList.contains ·))) then 0
    else 1 + plainLength inFlow rest

/-- The spaces and line ends before the next line of a plain scalar: the line ends met and the place
after them, or nothing where a document ends. -/
def plainBreaks : Nat → Cursor → Option (List Char × Cursor)
  | 0, c => some ([], c)
  | fuel + 1, c =>
    match c.peek with
    | some ' ' => plainBreaks fuel c.step
    | some ch =>
      if isBreak ch then
        let (lineBreak, next) := c.takeBreak
        if next.atSeparator then none
        else (plainBreaks fuel next).map fun (breaks, c) => (lineBreak ++ breaks, c)
      else some ([], c)
    | none => some ([], c)

/-- The gap after a part of a plain scalar: what it stands for, whether it has a line end, and the
place after it. An empty gap ends the scalar. -/
structure Gap where
  text : List Char
  hasBreak : Bool
  next : Cursor

/-- Reads the gap after a part of a plain scalar. -/
def plainGap (c : Cursor) : Gap :=
  let (spaces, c) := c.takeWhile (· = ' ')
  if c.rest.head?.any isBreak then
    let (lineBreak, c) := c.takeBreak
    if c.atSeparator then ⟨[], true, c⟩
    else match plainBreaks c.bound c with
      | none => ⟨[], true, c⟩
      | some (breaks, c) => ⟨folded lineBreak breaks, true, c⟩
  else ⟨spaces, false, c⟩

/-- A plain scalar that was read: its text, whether a line end came last, and the place after it. -/
structure Plain where
  text : List Char
  atBreak : Bool
  next : Cursor

/-- Reads the parts of a plain scalar, each with the gap before it. -/
def plainFrom (inFlow : Bool) (leastColumn : Int) : Nat → List Char → Bool → Cursor → Plain
  | 0, _, atBreak, c => ⟨[], atBreak, c⟩
  | fuel + 1, gap, atBreak, c =>
    let length := if c.peek = some '#' then 0 else plainLength inFlow c.rest
    if length = 0 then ⟨[], atBreak, c⟩
    else
      let part := c.rest.take length
      let after := plainGap (c.advance length)
      let front := gap ++ part
      if after.text.isEmpty || after.next.peek = some '#' ||
          (!inFlow && (after.next.column : Int) < leastColumn) then
        ⟨front, after.hasBreak, after.next⟩
      else
        let more := plainFrom inFlow leastColumn fuel after.text after.hasBreak after.next
        ⟨front ++ more.text, more.atBreak, more.next⟩

/-- Reads a plain scalar. -/
def plain (inFlow : Bool) (leastColumn : Int) (c : Cursor) : Plain :=
  plainFrom inFlow leastColumn c.bound [] false c

/-! ## Quoted scalars -/

/-- The character of a one-letter escape. -/
def escapedChar? : Char → Option Char
  | '0' => some '\x00'
  | 'a' => some '\x07'
  | 'b' => some '\x08'
  | 't' => some '\t'
  | '\t' => some '\t'
  | 'n' => some '\n'
  | 'v' => some '\x0b'
  | 'f' => some '\x0c'
  | 'r' => some '\r'
  | 'e' => some '\x1b'
  | ' ' => some ' '
  | '"' => some '"'
  | '\\' => some '\\'
  | '/' => some '/'
  | 'N' => some '\x85'
  | '_' => some '\xa0'
  | 'L' => some '\u2028'
  | 'P' => some '\u2029'
  | _ => none

/-- How many hexadecimal digits an escape letter takes. -/
def escapeDigits? : Char → Option Nat
  | 'x' => some 2
  | 'u' => some 4
  | 'U' => some 8
  | _ => none

/-- The number that hexadecimal digits spell. -/
def hexValue? (cs : List Char) : Option Nat :=
  cs.foldlM (fun n c => (Text.hexDigit? c).map (n * 16 + ·)) 0

/-- The line ends and blanks at the front of a line inside quotes. -/
def quotedBreaks : Nat → Cursor → Except Error (List Char × Cursor)
  | 0, c => .ok ([], c)
  | fuel + 1, c =>
    if c.atSeparator then c.fail "found unexpected document separator"
    else
      let c := c.dropWhile fun ch => ch = ' ' || ch = '\t'
      if c.rest.head?.any isBreak then do
        let (lineBreak, next) := c.takeBreak
        let (breaks, c) ← quotedBreaks fuel next
        return (lineBreak ++ breaks, c)
      else .ok ([], c)

/-- Reads an escape after its backslash. -/
def escape (c : Cursor) : Except Error (List Char × Cursor) :=
  match c.peek with
  | none => c.fail "found unknown escape character"
  | some letter =>
    match escapedChar? letter, escapeDigits? letter with
    | some ch, _ => .ok ([ch], c.step)
    | none, some count =>
      let digits := c.step.rest.take count
      match hexValue? digits with
      | some n =>
        if digits.length < count then c.fail "expected hexadecimal digits in an escape"
        else if 0x7FFFFFFF < n then .error .overflow
        else if 0x10FFFF < n then .error (.badValue "chr() arg not in range(0x110000)")
        else .ok ([Char.ofNat n], c.step.advance count)
      | none => c.fail "expected hexadecimal digits in an escape"
    | none, none =>
      if isBreak letter then quotedBreaks c.bound c.takeBreak.2
      else c.fail "found unknown escape character"

/-- The blanks and line ends between two parts inside quotes, with what they stand for. -/
def quotedGap (c : Cursor) : Except Error (List Char × Cursor) :=
  let (blanks, c) := c.takeWhile fun ch => ch = ' ' || ch = '\t'
  match c.peek with
  | none => c.fail "found unexpected end of stream"
  | some ch =>
    if isBreak ch then do
      let (lineBreak, next) := c.takeBreak
      let (breaks, c) ← quotedBreaks c.bound next
      return (folded lineBreak breaks, c)
    else .ok (blanks, c)

/-- Reads a scalar up to its closing quote. -/
def quotedFrom (double : Bool) : Nat → Cursor → Except Error (List Char × Cursor)
  | 0, c => c.fail "found unexpected end of stream"
  | fuel + 1, c =>
    match c.peek with
    | none => c.fail "found unexpected end of stream"
    | some ch => do
      if ch = (if double then '"' else '\'') then
        if !double && c.peekAt 1 = some '\'' then
          let (rest, c) ← quotedFrom double fuel (c.advance 2)
          return ('\'' :: rest, c)
        else return ([], c.step)
      else
        let (part, next) ←
          if double && ch = '\\' then escape c.step
          else if isGapOrEnd (some ch) then quotedGap c
          else pure ([ch], c.step)
        let (rest, c) ← quotedFrom double fuel next
        return (part ++ rest, c)

/-- Reads a scalar after its opening quote. -/
def quoted (double : Bool) (c : Cursor) : Except Error (List Char × Cursor) :=
  quotedFrom double c.bound c

/-! ## Block scalars -/

/-- What becomes of the line ends at the end of a block: one is kept, none, or all. -/
inductive Chomping
  | clip
  | strip
  | keep
  deriving DecidableEq, Repr

/-- The chomping that a sign asks for. -/
def chomping? : Char → Option Chomping
  | '+' => some .keep
  | '-' => some .strip
  | _ => none

/-- The indentation that a digit asks for. -/
def increment? (c : Char) : Option Nat :=
  if Text.isAsciiDigit c then some (c.toNat - 48) else none

/-- What stands after the mark of a block: its chomping and its indentation. -/
structure Header where
  chomping : Chomping := .clip
  increment : Option Nat := none
  deriving DecidableEq, Repr

/-- A header that has an indentation of at least one, or none. -/
def checkedHeader (c : Cursor) (h : Header) (next : Cursor) : Except Error (Header × Cursor) :=
  if h.increment = some 0 then c.fail "expected indentation indicator in the range 1-9, but found 0"
  else if isSpaceOrEnd next.peek then .ok (h, next)
  else next.fail "expected chomping or indentation indicators"

/-- Reads the header of a block: a sign and a digit, in any order, each at most once. -/
def header (c : Cursor) : Except Error (Header × Cursor) :=
  match c.peek with
  | none => .ok ({}, c)
  | some ch =>
    match chomping? ch, increment? ch with
    | some chomping, _ =>
      match c.step.peek.bind increment? with
      | some n => checkedHeader c ⟨chomping, some n⟩ (c.advance 2)
      | none => checkedHeader c ⟨chomping, none⟩ c.step
    | none, some n =>
      match c.step.peek.bind chomping? with
      | some chomping => checkedHeader c ⟨chomping, some n⟩ (c.advance 2)
      | none => checkedHeader c ⟨.clip, some n⟩ c.step
    | none, none => checkedHeader c {} c

/-- The empty lines at the start of a block, and the deepest column among their spaces. -/
def leadingLines : Nat → Nat → Cursor → List Char × Nat × Cursor
  | 0, deepest, c => ([], deepest, c)
  | fuel + 1, deepest, c =>
    match c.peek with
    | some ' ' => leadingLines fuel (max deepest c.step.column) c.step
    | some ch =>
      if isBreak ch then
        let (lineBreak, next) := c.takeBreak
        let (breaks, deepest, c) := leadingLines fuel deepest next
        (lineBreak ++ breaks, deepest, c)
      else ([], deepest, c)
    | none => ([], deepest, c)

/-- The place after spaces up to a column. -/
def indentTo (column : Nat) (c : Cursor) : Cursor :=
  let spaces := (c.rest.takeWhile (· = ' ')).length
  c.advance (min spaces (column - c.column))

/-- The empty lines before the next line of a block of known indentation. -/
def blockBreaks (indent : Nat) : Nat → Cursor → List Char × Cursor
  | 0, c => ([], c)
  | fuel + 1, c =>
    let c := indentTo indent c
    if c.rest.head?.any isBreak then
      let (lineBreak, next) := c.takeBreak
      let (breaks, c) := blockBreaks indent fuel next
      (lineBreak ++ breaks, c)
    else ([], c)

/-- The lines of a block: its text without the last line end, that line end, the line ends after it
and the place after them. -/
structure Block where
  text : List Char
  lastBreak : List Char
  trailing : List Char
  next : Cursor

/-- Whether a line begins with a blank. -/
def startsBlank (c : Cursor) : Bool :=
  c.peek = some ' ' || c.peek = some '\t'

/-- What stands for the line end between two lines of a block, with empty lines following or not. -/
def joint (isFolded : Bool) (lineBreak : List Char) (hasFollowing : Bool) (line next : Cursor) :
    List Char :=
  if isFolded && lineBreak = ['\n'] && !startsBlank line && !startsBlank next then
    if hasFollowing then [] else [' ']
  else lineBreak

/-- Reads the lines of a block of known indentation, given the empty lines before the first. -/
def blockLines (isFolded : Bool) (indent : Nat) : Nat → List Char → Cursor → Block
  | 0, breaks, c => ⟨[], [], breaks, c⟩
  | fuel + 1, breaks, c =>
    if c.column = indent && c.peek.isSome then
      let (line, atEnd) := c.takeWhile (!isBreak ·)
      let (lineBreak, next) := atEnd.takeBreak
      let (following, next) := blockBreaks indent next.bound next
      if next.column = indent && next.peek.isSome then
        let more := blockLines isFolded indent fuel following next
        let between := joint isFolded lineBreak (!following.isEmpty) c next
        { more with text := breaks ++ line ++ between ++ more.text }
      else ⟨breaks ++ line, lineBreak, following, next⟩
    else ⟨[], [], breaks, c⟩

/-- The text of a block with the line ends that its chomping leaves. -/
def Block.chomped (b : Block) : Chomping → List Char
  | .strip => b.text
  | .clip => b.text ++ b.lastBreak
  | .keep => b.text ++ b.lastBreak ++ b.trailing

/-- Reads a block after its mark. The least column is that of its parent plus one. -/
def block (isFolded : Bool) (leastColumn : Nat) (c : Cursor) :
    Except Error (List Char × Cursor) := do
  let (h, c) ← header c
  let c ← c.endLine
  let fuel := c.bound
  let (breaks, indent, c) := match h.increment with
    | some n =>
      let indent := leastColumn + n - 1
      let (breaks, c) := blockBreaks indent fuel c
      (breaks, indent, c)
    | none =>
      let (breaks, deepest, c) := leadingLines fuel 0 c
      (breaks, max leastColumn deepest, c)
  let b := blockLines isFolded indent fuel breaks c
  return (b.chomped h.chomping, b.next)

end ThemeLocales.Yaml.Scalar
