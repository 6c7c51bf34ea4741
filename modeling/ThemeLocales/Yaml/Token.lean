import ThemeLocales.Number.Reading
import ThemeLocales.Text.Utf8
import ThemeLocales.Yaml.Scalar

/-!
# Tokens of a YAML text

A text falls into tokens. Collections in block style have tokens of their own for their start and
end, which follow from the columns; a key before a colon is recognised only when the colon is met,
so the place of every token that may turn out to be a key is remembered until then. Tokens are
fetched on demand: no further than it takes to know the next one.
-/

set_option autoImplicit false

namespace ThemeLocales.Yaml

/-- A token. -/
inductive Token
  | streamEnd
  | documentStart
  | documentEnd
  | version (major : Nat)
  | tagHandle (handle front : String)
  | otherDirective
  | blockSequenceStart
  | blockMappingStart
  | blockEnd
  | flowSequenceStart
  | flowSequenceEnd
  | flowMappingStart
  | flowMappingEnd
  | blockEntry
  | flowEntry
  | key
  | value
  | alias (name : String)
  | anchor (name : String)
  | tag (handle : Option String) (suffix : String)
  | scalar (text : String) (isPlain : Bool)
  deriving DecidableEq, Repr

/-- A token and where it begins. -/
structure Lexeme where
  token : Token
  line : Nat
  column : Nat
  deriving Repr

/-- A token that may turn out to be the key of a mapping. -/
structure PossibleKey where
  number : Nat
  required : Bool
  index : Nat
  line : Nat
  column : Nat
  deriving Repr

/-- A scanner between two tokens: those that were fetched and not yet taken, and how many were taken
before. The possible key of the innermost flow collection stands apart from those of the collections
around it. -/
structure Scanner where
  cursor : Cursor
  tokens : List Lexeme := []
  taken : Nat := 0
  indent : Int := -1
  indents : List Int := []
  allowsKey : Bool := true
  possible : Option PossibleKey := none
  outer : List (Option PossibleKey) := []
  finished : Bool := false

namespace Scanner

/-- Whether a flow collection is open. -/
def inFlow (s : Scanner) : Bool := !s.outer.isEmpty

/-- The number that the next fetched token will have. -/
def nextNumber (s : Scanner) : Nat := s.taken + s.tokens.length

/-- Adds a token that begins where the scanner stands. -/
def emit (s : Scanner) (t : Token) : Scanner :=
  { s with tokens := s.tokens ++ [⟨t, s.cursor.line, s.cursor.column⟩] }

/-- Inserts a token before the one with a number. -/
def insertBefore (s : Scanner) (k : PossibleKey) (t : Token) : Scanner :=
  let earlier := k.number - s.taken
  { s with tokens := s.tokens.take earlier ++ ⟨t, k.line, k.column⟩ :: s.tokens.drop earlier }

/-! ## Possible keys -/

/-- A possible key is out of reach on another line and after 1024 characters. -/
def isStale (c : Cursor) (k : PossibleKey) : Bool :=
  k.line != c.line || 1024 < c.index - k.index

/-- A possible key that is still in reach; one that is required must be. -/
def freshKey (c : Cursor) : Option PossibleKey → Except Error (Option PossibleKey)
  | none => .ok none
  | some k =>
    if isStale c k then
      if k.required then c.fail "while scanning a simple key: could not find expected ':'"
      else .ok none
    else .ok (some k)

/-- Drops the possible keys that are out of reach. -/
def dropStale (s : Scanner) : Except Error Scanner := do
  let possible ← freshKey s.cursor s.possible
  let outer ← s.outer.mapM (freshKey s.cursor)
  return { s with possible, outer }

/-- Drops the possible key of the innermost collection, which must not be required. -/
def removeKey (s : Scanner) : Except Error Scanner :=
  match s.possible with
  | some k =>
    if k.required then s.cursor.fail "while scanning a simple key: could not find expected ':'"
    else .ok { s with possible := none }
  | none => .ok s

/-- Remembers the next token as a possible key, where keys are allowed. -/
def saveKey (s : Scanner) : Except Error Scanner :=
  if s.allowsKey then do
    let required := !s.inFlow && s.indent = s.cursor.column
    let s ← s.removeKey
    let c := s.cursor
    return { s with possible := some ⟨s.nextNumber, required, c.index, c.line, c.column⟩ }
  else .ok s

/-! ## Indentation -/

/-- The ends of the block collections that are deeper than a column: how many there are, and the
indentation that is left. -/
def unwound (column : Int) (indent : Int) : List Int → Nat × Int × List Int
  | [] => (0, indent, [])
  | outer :: indents =>
    if column < indent then
      let (ends, indent, indents) := unwound column outer indents
      (ends + 1, indent, indents)
    else (0, indent, outer :: indents)

/-- Adds a token several times. -/
def emitTimes (t : Token) : Nat → Scanner → Scanner
  | 0, s => s
  | n + 1, s => emitTimes t n (s.emit t)

/-- Ends the block collections that are deeper than a column. -/
def unwind (s : Scanner) (column : Int) : Scanner :=
  if s.inFlow then s
  else
    let (ends, indent, indents) := unwound column s.indent s.indents
    emitTimes .blockEnd ends { s with indent, indents }

/-- Whether a column begins a block collection. -/
def isDeeper (s : Scanner) (column : Nat) : Bool :=
  s.indent < column

/-- Makes a column the indentation. -/
def pushIndent (s : Scanner) (column : Nat) : Scanner :=
  { s with indent := column, indents := s.indent :: s.indents }

/-! ## Tokens of one kind -/

/-- Moves on by some characters. -/
def move (s : Scanner) (n : Nat) : Scanner :=
  { s with cursor := s.cursor.advance n }

/-- The end of the text. -/
def fetchEnd (s : Scanner) : Except Error Scanner := do
  let s ← (s.unwind (-1)).removeKey
  return { s.emit .streamEnd with finished := true }

/-- A mark between documents. -/
def fetchSeparator (s : Scanner) (t : Token) : Except Error Scanner := do
  let s ← (s.unwind (-1)).removeKey
  return ({ s with allowsKey := false }.emit t).move 3

/-- The start of a flow collection. -/
def fetchFlowStart (s : Scanner) (t : Token) : Except Error Scanner := do
  let s ← s.saveKey
  return ({ s with allowsKey := true, possible := none, outer := s.possible :: s.outer }.emit
    t).move 1

/-- The end of a flow collection. -/
def fetchFlowEnd (s : Scanner) (t : Token) : Except Error Scanner := do
  let s ← s.removeKey
  match s.outer with
  | [] => s.cursor.fail "found a closing bracket that was not opened"
  | possible :: outer =>
    return ({ s with allowsKey := false, possible, outer }.emit t).move 1

/-- A comma. -/
def fetchFlowEntry (s : Scanner) : Except Error Scanner := do
  let s ← s.removeKey
  return ({ s with allowsKey := true }.emit .flowEntry).move 1

/-- Begins a block collection where the column is deeper than the indentation. -/
def beginBlock (s : Scanner) (start : Token) : Scanner :=
  if s.isDeeper s.cursor.column then (s.pushIndent s.cursor.column).emit start else s

/-- A dash before an entry of a sequence. -/
def fetchBlockEntry (s : Scanner) : Except Error Scanner := do
  if !s.inFlow && !s.allowsKey then s.cursor.fail "sequence entries are not allowed here"
  else
    let s := if s.inFlow then s else s.beginBlock .blockSequenceStart
    let s ← s.removeKey
    return ({ s with allowsKey := true }.emit .blockEntry).move 1

/-- A question mark before a key. -/
def fetchKey (s : Scanner) : Except Error Scanner := do
  if !s.inFlow && !s.allowsKey then s.cursor.fail "mapping keys are not allowed here"
  else
    let s := if s.inFlow then s else s.beginBlock .blockMappingStart
    let s ← s.removeKey
    return ({ s with allowsKey := !s.inFlow }.emit .key).move 1

/-- A colon before a value. -/
def fetchValue (s : Scanner) : Except Error Scanner := do
  match s.possible with
  | some k =>
    let s := ({ s with possible := none }).insertBefore k .key
    let s := if !s.inFlow && s.isDeeper k.column then
      (s.pushIndent k.column).insertBefore k .blockMappingStart else s
    return ({ s with allowsKey := false }.emit .value).move 1
  | none =>
    if !s.inFlow && !s.allowsKey then s.cursor.fail "mapping values are not allowed here"
    else
      let s := if s.inFlow then s else s.beginBlock .blockMappingStart
      let s ← s.removeKey
      return ({ s with allowsKey := !s.inFlow }.emit .value).move 1

/-- A token that was read and the place after it; keys are no longer allowed. -/
def put (s : Scanner) (read : Token × Cursor) : Scanner :=
  { s.emit read.1 with cursor := read.2, allowsKey := false }

/-! ## Names, tags and directives -/

/-- Whether a character belongs to a name. -/
def isNameChar (c : Char) : Bool :=
  Text.isAsciiDigit c || ('A' ≤ c && c ≤ 'Z') || ('a' ≤ c && c ≤ 'z') || c = '-' || c = '_'

/-- A name, which is not empty. -/
def readName (c : Cursor) : Except Error (String × Cursor) :=
  match c.takeWhile isNameChar with
  | ([], c) => c.fail "expected alphabetic or numeric character"
  | (name, c) => .ok (String.ofList name, c)

/-- What may follow the name of an anchor. -/
def endsAnchor (next : Option Char) : Bool :=
  isGapOrEnd next || next.any ("?:,]\x7d%@`".toList.contains ·)

/-- The name of an anchor or an alias, after its mark. -/
def readAnchor (c : Cursor) : Except Error (String × Cursor) := do
  let (name, c) ← readName c
  if endsAnchor c.peek then return (name, c)
  else c.fail "expected alphabetic or numeric character"

/-- Whether a character belongs to the address of a tag. -/
def isUriChar (c : Char) : Bool :=
  isNameChar c || ";/?:@&=+$,.!~*'()[]".toList.contains c

/-- The bytes of escapes with percent signs. -/
def uriEscapes : Nat → Cursor → Except Error (List UInt8 × Cursor)
  | 0, c => .ok ([], c)
  | fuel + 1, c =>
    if c.peek = some '%' then
      match (c.peekAt 1).bind Text.hexDigit?, (c.peekAt 2).bind Text.hexDigit? with
      | some a, some b => do
        let (bytes, c) ← uriEscapes fuel (c.advance 3)
        return (UInt8.ofNat (a * 16 + b) :: bytes, c)
      | _, _ => c.fail "expected URI escape sequence of 2 hexadecimal numbers"
    else .ok ([], c)

/-- The characters of an address. -/
def uriChars : Nat → Cursor → Except Error (List Char × Cursor)
  | 0, c => .ok ([], c)
  | fuel + 1, c =>
    match c.peek with
    | none => .ok ([], c)
    | some ch =>
      if ch = '%' then do
        let (bytes, next) ← uriEscapes fuel c
        match String.fromUTF8? ⟨bytes.toArray⟩ with
        | none => c.fail "found an escape that is no UTF-8"
        | some s =>
          let (rest, c) ← uriChars fuel next
          return (s.toList ++ rest, c)
      else if isUriChar ch then do
        let (rest, c) ← uriChars fuel c.step
        return (ch :: rest, c)
      else .ok ([], c)

/-- An address, which is not empty. -/
def readUri (c : Cursor) : Except Error (String × Cursor) := do
  match ← uriChars c.bound c with
  | ([], c) => c.fail "expected URI"
  | (cs, c) => return (String.ofList cs, c)

/-- The handle of a tag: an exclamation mark, or a name between two. -/
def readHandle (c : Cursor) : Except Error (String × Cursor) :=
  if c.peek ≠ some '!' then c.fail "expected '!'"
  else if c.peekAt 1 = some ' ' then .ok ("!", c.step)
  else
    let (name, next) := c.step.takeWhile isNameChar
    if next.peek = some '!' then .ok ("!" ++ String.ofList name ++ "!", next.step)
    else next.fail "expected '!'"

/-- The handle and the suffix of a tag that begins with an exclamation mark. -/
def readTagParts (c : Cursor) : Except Error (Option String × String × Cursor) := do
  let word := c.step.rest.takeWhile fun ch => !isSpaceOrEnd (some ch)
  let (handle, c) ← if word.contains '!' then readHandle c else pure ("!", c.step)
  let (suffix, c) ← readUri c
  return (some handle, suffix, c)

/-- A tag. -/
def readTag (c : Cursor) : Except Error (Token × Cursor) := do
  let (handle, suffix, next) ←
    if c.peekAt 1 = some '<' then
      let (suffix, next) ← readUri (c.advance 2)
      if next.peek = some '>' then pure (none, suffix, next.step) else next.fail "expected '>'"
    else if isGapOrEnd (c.peekAt 1) then pure (none, "!", c.step)
    else readTagParts c
  if isSpaceOrEnd next.peek then return (.tag handle suffix, next)
  else next.fail "expected ' '"

/-- The digits of a version number. -/
def readVersionPart (c : Cursor) : Except Error (Nat × Cursor) :=
  match c.takeWhile Text.isAsciiDigit with
  | ([], c) => c.fail "expected a digit"
  | (digits, c) =>
    if Number.longestInteger < digits.length then .error (.badValue "a version is too long")
    else .ok (Text.digitsValue digits, c)

/-- A directive, after its mark. -/
def readDirective (c : Cursor) : Except Error (Token × Cursor) := do
  let (name, c) ← readName c
  if !isSpaceOrEnd c.peek then c.fail "expected alphabetic or numeric character"
  else if name = "YAML" then
    let (major, c) ← readVersionPart c.dropSpaces
    if c.peek ≠ some '.' then c.fail "expected a digit or '.'"
    else
      let (_, c) ← readVersionPart c.step
      if isSpaceOrEnd c.peek then return (.version major, ← c.endLine)
      else c.fail "expected a digit or ' '"
  else if name = "TAG" then
    let (handle, c) ← readHandle c.dropSpaces
    if c.peek ≠ some ' ' then c.fail "expected ' '"
    else
      let (front, c) ← readUri c.dropSpaces
      if isSpaceOrEnd c.peek then return (.tagHandle handle front, ← c.endLine)
      else c.fail "expected ' '"
  else
    return (.otherDirective, ← (c.dropWhile (!isBreak ·)).endLine)

/-- A directive. -/
def fetchDirective (s : Scanner) : Except Error Scanner := do
  let s ← (s.unwind (-1)).removeKey
  return s.put (← readDirective s.cursor.step)

/-! ## Scalars -/

/-- A scalar between quotes. -/
def fetchQuoted (s : Scanner) (double : Bool) : Except Error Scanner := do
  let s ← s.saveKey
  let (cs, c) ← Scalar.quoted double s.cursor.step
  return s.put (.scalar (String.ofList cs) false, c)

/-- A scalar of lines, after which a key may begin. -/
def fetchBlock (s : Scanner) (isFolded : Bool) : Except Error Scanner := do
  let s ← s.removeKey
  let leastColumn := max 1 (s.indent + 1).toNat
  let (cs, c) ← Scalar.block isFolded leastColumn s.cursor.step
  return { s.put (.scalar (String.ofList cs) false, c) with allowsKey := true }

/-- A plain scalar; a key may begin after a line end. -/
def fetchPlain (s : Scanner) : Except Error Scanner := do
  let s ← s.saveKey
  let p := Scalar.plain s.inFlow (s.indent + 1) s.cursor
  return { s.put (.scalar (String.ofList p.text) true, p.next) with allowsKey := p.atBreak }

/-- A token that is read after its mark. -/
def fetchMarked (s : Scanner) (make : String → Token)
    (read : Cursor → Except Error (String × Cursor)) : Except Error Scanner := do
  let s ← s.saveKey
  let (name, c) ← read s.cursor.step
  return s.put (make name, c)

/-- A tag, which may begin a key. -/
def fetchTag (s : Scanner) : Except Error Scanner := do
  let s ← s.saveKey
  return s.put (← readTag s.cursor)

/-! ## The next token -/

/-- The place of the next token. A line end outside flow collections allows a key. -/
def skipGap : Nat → Bool → Bool → Cursor → Bool × Cursor
  | 0, _, allowsKey, c => (allowsKey, c)
  | fuel + 1, inFlow, allowsKey, c =>
    let c := c.dropSpaces
    let c := if c.peek = some '#' then c.dropWhile (!isBreak ·) else c
    if c.rest.head?.any isBreak then skipGap fuel inFlow (allowsKey || !inFlow) c.takeBreak.2
    else (allowsKey, c)

/-- Moves to the next token. -/
def toNext (s : Scanner) : Scanner :=
  let start := if s.cursor.index = 0 && s.cursor.peek = some byteOrderMark then s.cursor.step
    else s.cursor
  let (allowsKey, cursor) := skipGap start.bound s.inFlow s.allowsKey start
  { s with allowsKey, cursor }

/-- Characters that begin no plain scalar. -/
def indicators : List Char := "-?:,[]\x7b\x7d#&*!|>'\"%@`".toList

/-- Whether a plain scalar begins at a place. -/
def startsPlain (inFlow : Bool) (c : Cursor) (ch : Char) : Bool :=
  (!isGapOrEnd (some ch) && !indicators.contains ch) ||
    (!isGapOrEnd (c.peekAt 1) && (ch = '-' || (!inFlow && (ch = '?' || ch = ':'))))

/-- Fetches the token that begins with a character. -/
def fetchAt (s : Scanner) (ch : Char) : Except Error Scanner :=
  let c := s.cursor
  let gapFollows := isGapOrEnd (c.peekAt 1)
  if ch = '%' && c.column = 0 then s.fetchDirective
  else if c.column = 0 && c.atSeparator then
    s.fetchSeparator (if ch = '-' then .documentStart else .documentEnd)
  else if ch = '[' then s.fetchFlowStart .flowSequenceStart
  else if ch = '{' then s.fetchFlowStart .flowMappingStart
  else if ch = ']' then s.fetchFlowEnd .flowSequenceEnd
  else if ch = '}' then s.fetchFlowEnd .flowMappingEnd
  else if ch = ',' then s.fetchFlowEntry
  else if ch = '-' && gapFollows then s.fetchBlockEntry
  else if ch = '?' && (s.inFlow || gapFollows) then s.fetchKey
  else if ch = ':' && (s.inFlow || gapFollows) then s.fetchValue
  else if ch = '*' then s.fetchMarked .alias readAnchor
  else if ch = '&' then s.fetchMarked .anchor readAnchor
  else if ch = '!' then s.fetchTag
  else if ch = '|' && !s.inFlow then s.fetchBlock false
  else if ch = '>' && !s.inFlow then s.fetchBlock true
  else if ch = '\'' then s.fetchQuoted false
  else if ch = '"' then s.fetchQuoted true
  else if startsPlain s.inFlow c ch then s.fetchPlain
  else c.fail "found a character that cannot start any token"

/-- Fetches the next token. -/
def fetch (s : Scanner) : Except Error Scanner := do
  let s ← s.toNext.dropStale
  let s := s.unwind s.cursor.column
  match s.cursor.peek with
  | none => s.fetchEnd
  | some ch => s.fetchAt ch

/-! ## Tokens on demand -/

/-- Whether the next token may still turn out to be a key. -/
def mayBeKey (s : Scanner) : Bool :=
  (s.possible :: s.outer).any fun key => key.any fun k => k.number = s.taken

/-- Whether tokens must be fetched before the next one is known. -/
def needsMore (s : Scanner) : Except Error (Bool × Scanner) :=
  if s.finished then .ok (false, s)
  else if s.tokens.isEmpty then .ok (true, s)
  else do
    let s ← s.dropStale
    return (s.mayBeKey, s)

/-- Fetches tokens until the next one is known. Each takes at least one character, which bounds
their number. -/
def fetchUntilKnown : Nat → Scanner → Except Error Scanner
  | 0, s => .ok s
  | fuel + 1, s => do
    let (more, s) ← s.needsMore
    if more then fetchUntilKnown fuel (← s.fetch) else return s

/-- The scanner when its next token is known. -/
def known (s : Scanner) : Except Error Scanner :=
  fetchUntilKnown (s.cursor.bound + 1) s

/-- The scanner after its next token. -/
def take (s : Scanner) : Scanner :=
  { s with tokens := s.tokens.tail, taken := s.taken + 1 }

end Scanner

/-- Whether a text may hold a character. -/
def isAllowed (c : Char) : Bool :=
  let n := c.toNat
  n = 9 || n = 0xA || n = 0xD || (0x20 ≤ n && n ≤ 0x7E) || n = 0x85 ||
    (0xA0 ≤ n && n ≤ 0xD7FF) || (0xE000 ≤ n && n ≤ 0xFFFD) || 0x10000 ≤ n

/-- The scanner at the start of a text, which holds nothing but characters that are allowed. -/
def Scanner.start (text : List Char) : Except Error Scanner :=
  if text.all isAllowed then .ok { cursor := .start text }
  else .error (.malformed "special characters are not allowed" 0 0)

end ThemeLocales.Yaml
