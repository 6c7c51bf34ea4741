import ThemeLocales.Assoc
import ThemeLocales.Text.Blank
import ThemeLocales.Text.Digit
import ThemeLocales.Text.Search

/-!
# Placeholders

Markup inside a text is replaced by unique tokens before a model sees the text, and put back
afterwards. Markup is a template expression, a template tag, an element in angle brackets or a name
in single braces, in this order of preference at each position.
-/

set_option autoImplicit false

namespace ThemeLocales.Provider.Placeholder

open Text

/-- Markup between two marks of two characters each: the whole of it, and what follows. -/
def betweenMarks? (opening closing cs : List Char) : Option (List Char × List Char) := do
  let inside ← after? opening cs
  let (body, rest) ← cutAt? closing inside
  return (opening ++ body ++ closing, rest)

/-- Markup between two single characters, with something between them and neither of them there. -/
def betweenChars? (opening closing : Char) : List Char → Option (List Char × List Char)
  | [] => none
  | c :: inside =>
    if c = opening then
      let body := inside.takeWhile fun c => c != opening && c != closing
      match inside.drop body.length with
      | d :: rest =>
        if d = closing && !body.isEmpty then some (opening :: body ++ [closing], rest) else none
      | [] => none
    else none

/-- The markup at the front of a text, and what follows it. -/
def markupAt? (cs : List Char) : Option (List Char × List Char) :=
  (betweenMarks? ['{', '{'] ['}', '}'] cs).or
    ((betweenMarks? ['{', '%'] ['%', '}'] cs).or
      ((betweenChars? '<' '>' cs).or (betweenChars? '{' '}' cs)))

theorem length_lt_of_betweenMarks? {opening closing cs markup rest : List Char}
    (hne : opening ≠ []) (h : betweenMarks? opening closing cs = some (markup, rest)) :
    rest.length < cs.length := by
  simp only [betweenMarks?, Option.bind_eq_bind, Option.bind_eq_some_iff, Option.pure_def,
    Option.some.injEq, Prod.mk.injEq, Prod.exists] at h
  obtain ⟨inside, hi, body, r, hc, -, rfl⟩ := h
  have h₁ := length_cutAt?_le hc
  have h₂ := congrArg List.length (eq_append_of_after? hi)
  have h₃ := List.length_pos_iff.2 hne
  rw [List.length_append] at h₂
  omega

theorem length_lt_of_betweenChars? {opening closing : Char} {cs markup rest : List Char}
    (h : betweenChars? opening closing cs = some (markup, rest)) : rest.length < cs.length := by
  cases cs with
  | nil => simp [betweenChars?] at h
  | cons c inside =>
    simp only [betweenChars?] at h
    split at h
    · split at h
      · next d tail hd =>
        split at h
        · simp only [Option.some.injEq, Prod.mk.injEq] at h
          have := congrArg List.length hd
          rw [List.length_drop, List.length_cons] at this
          rw [← h.2, List.length_cons]
          omega
        · simp at h
      · simp at h
    · simp at h

/-- What follows markup is shorter than the text. -/
theorem length_lt_of_markupAt? {cs markup rest : List Char}
    (h : markupAt? cs = some (markup, rest)) : rest.length < cs.length := by
  simp only [markupAt?, Option.or_eq_some_iff] at h
  rcases h with h | ⟨-, h | ⟨-, h | ⟨-, h⟩⟩⟩
  · exact length_lt_of_betweenMarks? (by simp) h
  · exact length_lt_of_betweenMarks? (by simp) h
  · exact length_lt_of_betweenChars? h
  · exact length_lt_of_betweenChars? h

/-- A part of a text: a character, or markup. -/
inductive Piece
  | plain (c : Char)
  | markup (text : List Char)
  deriving DecidableEq, Repr

/-- The parts of a text from left to right. -/
def split (cs : List Char) : List Piece :=
  match _h : markupAt? cs with
  | some (text, rest) => .markup text :: split rest
  | none =>
    match cs with
    | [] => []
    | c :: rest => .plain c :: split rest
termination_by cs.length
decreasing_by
  · exact length_lt_of_markupAt? _h
  · simp

/-- The id in a token: a number of 128 bits. -/
abbrev TokenId := BitVec 128

/-- The thirty-two hexadecimal digits of an id. -/
def hex (id : TokenId) : String :=
  padded 16 32 id.toNat

/-- The token with an id. -/
def token (id : TokenId) : String :=
  "__PH_" ++ hex id ++ "__"

/-- The text in which the markup of parts is replaced by tokens, whose ids are taken one after the
other from a given one on, and the tokens with what they stand for. -/
def tokenize (ids : Nat → TokenId) : Nat → List Piece → List Char × List (String × String)
  | _, [] => ([], [])
  | n, .plain c :: rest =>
    let (text, entries) := tokenize ids n rest
    (c :: text, entries)
  | n, .markup cs :: rest =>
    let (text, entries) := tokenize ids (n + 1) rest
    ((token (ids n)).toList ++ text, (token (ids n), String.ofList cs) :: entries)

/-- A text with its markup replaced by tokens, and the table of the tokens with what they stand for.
The ids are drawn for one piece of markup after the other. -/
def extract (ids : Nat → TokenId) (text : String) : String × List (String × String) :=
  let (cs, entries) := tokenize ids 0 (split text.toList)
  (String.ofList cs, Assoc.ofEntries entries)

/-- Puts what the tokens stand for back into a text, one token after the other. -/
def restore (text : String) (table : List (String × String)) : String :=
  table.foldl (fun s (token, markup) => replaced token markup s) text

/-- Whether a text begins and ends with given characters. -/
def isWrapped (opening closing : Char) (cs : List Char) : Bool :=
  cs.head? = some opening && cs.getLast? = some closing

/-- Removes the first and the last character when they wrap the answer and not the source. -/
def unwrap (opening closing : Char) (source answer : List Char) : List Char :=
  if isWrapped opening closing answer && !isWrapped opening closing source then
    (answer.drop 1).dropLast
  else answer

/-- An answer without the quotes, and then without the brackets, that the source does not have. -/
def clean (answer source : String) : String :=
  let cs := source.toList
  String.ofList (unwrap '[' ']' cs (unwrap '"' '"' cs answer.toList))

end ThemeLocales.Provider.Placeholder
