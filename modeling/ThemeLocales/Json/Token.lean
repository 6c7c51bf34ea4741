import ThemeLocales.Document.Points
import ThemeLocales.Json.Error
import ThemeLocales.Number.Reading
import ThemeLocales.Text.Search

/-!
# JSON tokens

A text falls into tokens, each kept with the suffix of the text that it begins. The last one says
that the text is used up, or what stopped the division into tokens. Every token takes at least one
character (`length_lt_of_next`), so the division ends. Strings are code points, because an escaped
surrogate may stand alone.
-/

set_option autoImplicit false

namespace ThemeLocales.Json

open Text

/-- A token of a JSON text. -/
inductive Token
  | openMap
  | closeMap
  | openList
  | closeList
  | colon
  | comma
  | text (value : Points)
  | scalar (value : Document Points)
  | constant (name : String) (value : Binary64)
  | longInteger (digits : Nat)
  | finish
  | fault (cause : Fault)
  deriving Repr

/-- A token and the suffix of the text that it begins. -/
structure Lexeme where
  token : Token
  start : List Char
  deriving Repr

/-- The four characters that may stand between tokens. -/
def isGap (c : Char) : Bool :=
  c = ' ' || c = '\t' || c = '\n' || c = '\r'

/-! ## Strings -/

/-- Where the reading of a string stands inside an escape. -/
inductive EscapeState
  | plain
  | escaped
  | hex (missing : Nat) (value : Nat)
  deriving DecidableEq, Repr

/-- The character of a one-letter escape. -/
def escapedChar? : Char → Option Char
  | '"' => some '"'
  | '\\' => some '\\'
  | '/' => some '/'
  | 'b' => some '\x08'
  | 'f' => some '\x0c'
  | 'n' => some '\n'
  | 'r' => some '\r'
  | 't' => some '\t'
  | _ => none

/-- The code points that an escaped code unit completes behind a pending high surrogate, and the
high surrogate that it leaves pending. What nothing completes stands alone. -/
def joinUnit (high : Option Nat) (unit : Nat) : Points × Option Nat :=
  if isHighSurrogate unit then (high.toList, some unit)
  else
    match high with
    | some first =>
      if isLowSurrogate unit then ([0x10000 + (first - 0xD800) * 0x400 + (unit - 0xDC00)], none)
      else ([first, unit], none)
    | none => ([unit], none)

/-- Why a string could not be read, with the suffix where; none means from its start. -/
abbrev StringFault := Fault × Option (List Char)

/-- Puts code points before a string that was read. -/
def putBefore (front : Points) :
    Except StringFault (Points × List Char) → Except StringFault (Points × List Char)
  | .ok (body, rest) => .ok (front ++ body, rest)
  | .error e => .error e

/-- Reads a string after its opening quote: its code points, and what follows the closing quote. -/
def stringBody : EscapeState → Option Nat → List Char → Except StringFault (Points × List Char)
  | _, _, [] => .error (.unterminatedString, none)
  | .plain, high, c :: rest =>
    if c = '"' then .ok (high.toList, rest)
    else if c = '\\' then stringBody .escaped high rest
    else if c.toNat < 0x20 then .error (.controlCharacter, some (c :: rest))
    else putBefore (high.toList ++ [c.toNat]) (stringBody .plain none rest)
  | .escaped, high, c :: rest =>
    if c = 'u' then stringBody (.hex 4 0) high rest
    else match escapedChar? c with
      | some e => putBefore (high.toList ++ [e.toNat]) (stringBody .plain none rest)
      | none => .error (.badEscape, some (c :: rest))
  | .hex missing value, high, c :: rest =>
    match hexDigit? c with
    | none => .error (.badUnicodeEscape, some (c :: rest))
    | some d =>
      let value := value * 16 + d
      if missing ≤ 1 then
        let (done, pending) := joinUnit high value
        putBefore done (stringBody .plain pending rest)
      else stringBody (.hex (missing - 1) value) high rest

theorem putBefore_eq_ok_iff {front body : Points} {rest : List Char}
    {r : Except StringFault (Points × List Char)} :
    putBefore front r = .ok (body, rest) ↔
      ∃ body', r = .ok (body', rest) ∧ body = front ++ body' := by
  cases r with
  | ok p =>
    obtain ⟨body', rest'⟩ := p
    simp only [putBefore, Except.ok.injEq, Prod.mk.injEq]
    constructor
    · rintro ⟨rfl, rfl⟩
      exact ⟨body', ⟨rfl, rfl⟩, rfl⟩
    · rintro ⟨body'', ⟨rfl, rfl⟩, rfl⟩
      exact ⟨rfl, rfl⟩
  | error e => simp [putBefore]

/-- Behind its first character a string is over or goes on. -/
theorem exists_of_stringBody_cons {state : EscapeState} {high : Option Nat} {c : Char}
    {cs rest : List Char} {body : Points}
    (h : stringBody state high (c :: cs) = .ok (body, rest)) :
    rest = cs ∨ ∃ state' high' body', stringBody state' high' cs = .ok (body', rest) := by
  cases state with
  | plain =>
    simp only [stringBody] at h
    split at h
    · simp only [Except.ok.injEq, Prod.mk.injEq] at h
      exact Or.inl h.2.symm
    · split at h
      · exact Or.inr ⟨_, _, _, h⟩
      · split at h
        · simp at h
        · obtain ⟨_, h', -⟩ := putBefore_eq_ok_iff.1 h
          exact Or.inr ⟨_, _, _, h'⟩
  | escaped =>
    simp only [stringBody] at h
    split at h
    · exact Or.inr ⟨_, _, _, h⟩
    · split at h
      · obtain ⟨_, h', -⟩ := putBefore_eq_ok_iff.1 h
        exact Or.inr ⟨_, _, _, h'⟩
      · simp at h
  | hex missing value =>
    simp only [stringBody] at h
    split at h
    · simp at h
    · split at h
      · obtain ⟨_, h', -⟩ := putBefore_eq_ok_iff.1 h
        exact Or.inr ⟨_, _, _, h'⟩
      · exact Or.inr ⟨_, _, _, h⟩

theorem length_lt_of_stringBody {state : EscapeState} {high : Option Nat} {cs rest : List Char}
    {body : Points} (h : stringBody state high cs = .ok (body, rest)) :
    rest.length < cs.length := by
  induction cs generalizing state high body with
  | nil => simp [stringBody] at h
  | cons c cs ih =>
    rcases exists_of_stringBody_cons h with rfl | ⟨_, _, _, h'⟩
    · simp
    · have hrest := ih h'
      simp only [List.length_cons]
      omega

/-! ## Numbers -/

/-- The digits before the point: a zero alone, or digits that do not begin with zero. -/
def wholeDigits? : List Char → Option (List Char × List Char)
  | [] => none
  | c :: rest =>
    if c = '0' then some (['0'], rest)
    else if isAsciiDigit c then
      some (c :: rest.takeWhile isAsciiDigit, rest.dropWhile isAsciiDigit)
    else none

/-- A point and at least one digit. -/
def fraction? : List Char → Option (List Char × List Char)
  | '.' :: rest =>
    let digits := rest.takeWhile isAsciiDigit
    if digits.isEmpty then none else some (digits, rest.dropWhile isAsciiDigit)
  | _ => none

/-- An exponent mark, perhaps a sign, and at least one digit. -/
def exponent? : List Char → Option (Int × List Char)
  | c :: rest =>
    if c = 'e' || c = 'E' then
      let (negative, tail) := Number.splitSign rest
      let digits := tail.takeWhile isAsciiDigit
      if digits.isEmpty then none
      else
        let n : Int := digitsValue digits
        some (if negative then -n else n, tail.dropWhile isAsciiDigit)
    else none
  | [] => none

/-- A number without its sign. A fraction or an exponent makes it a double. -/
def unsignedNumber? (negative : Bool) (cs : List Char) : Option (Token × List Char) :=
  match wholeDigits? cs with
  | none => none
  | some (whole, rest) =>
    let (fraction, afterFraction) := (fraction? rest).getD ([], rest)
    match exponent? afterFraction with
    | some (e, afterExponent) =>
      some (.scalar (.real (.ofDecimal negative (digitsValue (whole ++ fraction))
        (e - fraction.length))), afterExponent)
    | none =>
      if fraction.isEmpty then
        if Number.longestInteger < whole.length then some (.longInteger whole.length, rest)
        else
          let n : Int := digitsValue whole
          some (.scalar (.int (if negative then -n else n)), rest)
      else
        some (.scalar (.real (.ofDecimal negative (digitsValue (whole ++ fraction))
          (-(fraction.length : Int)))), afterFraction)

theorem length_dropWhile_le (p : Char → Bool) (cs : List Char) :
    (cs.dropWhile p).length ≤ cs.length :=
  (List.dropWhile_sublist p).length_le

theorem length_lt_of_wholeDigits? {cs digits rest : List Char}
    (h : wholeDigits? cs = some (digits, rest)) : rest.length < cs.length := by
  cases cs with
  | nil => simp [wholeDigits?] at h
  | cons c cs =>
    simp only [wholeDigits?] at h
    split at h
    · simp only [Option.some.injEq, Prod.mk.injEq] at h
      simp [← h.2]
    · split at h
      · simp only [Option.some.injEq, Prod.mk.injEq] at h
        have := length_dropWhile_le isAsciiDigit cs
        simp only [← h.2, List.length_cons]
        omega
      · simp at h

theorem length_le_of_fraction? {cs digits rest : List Char}
    (h : fraction? cs = some (digits, rest)) : rest.length ≤ cs.length := by
  unfold fraction? at h
  split at h
  · next tail =>
    simp only at h
    split at h
    · simp at h
    · simp only [Option.some.injEq, Prod.mk.injEq] at h
      have := length_dropWhile_le isAsciiDigit tail
      simp only [← h.2, List.length_cons]
      omega
  · simp at h

theorem length_splitSign_le (cs : List Char) : (Number.splitSign cs).2.length ≤ cs.length := by
  unfold Number.splitSign
  split <;> simp

theorem length_le_of_exponent? {cs rest : List Char} {e : Int}
    (h : exponent? cs = some (e, rest)) : rest.length ≤ cs.length := by
  cases cs with
  | nil => simp [exponent?] at h
  | cons c cs =>
    simp only [exponent?] at h
    split at h
    · split at h
      · simp at h
      · simp only [Option.some.injEq, Prod.mk.injEq] at h
        have h₁ := length_dropWhile_le isAsciiDigit (Number.splitSign cs).2
        have h₂ := length_splitSign_le cs
        simp only [← h.2, List.length_cons]
        omega
    · simp at h

theorem length_lt_of_unsignedNumber? {negative : Bool} {cs rest : List Char} {t : Token}
    (h : unsignedNumber? negative cs = some (t, rest)) : rest.length < cs.length := by
  unfold unsignedNumber? at h
  split at h
  · simp at h
  · next whole tail hw =>
    have h₁ := length_lt_of_wholeDigits? hw
    have h₂ : ((fraction? tail).getD ([], tail)).2.length ≤ tail.length := by
      cases hf : fraction? tail with
      | none => simp
      | some p =>
        obtain ⟨digits, rest⟩ := p
        simpa using length_le_of_fraction? hf
    simp only at h
    split at h
    · next e after he =>
      simp only [Option.some.injEq, Prod.mk.injEq] at h
      have h₃ := length_le_of_exponent? he
      rw [← h.2]
      omega
    · split at h
      · split at h
        · simp only [Option.some.injEq, Prod.mk.injEq] at h
          rw [← h.2]
          exact h₁
        · simp only [Option.some.injEq, Prod.mk.injEq] at h
          rw [← h.2]
          exact h₁
      · simp only [Option.some.injEq, Prod.mk.injEq] at h
        rw [← h.2]
        omega

/-! ## The front of a text -/

/-- What stands at the front of a text. -/
inductive Front
  | finish (start : List Char)
  | fault (cause : Fault) (start : List Char)
  | token (token : Token) (start rest : List Char)
  deriving Repr

/-- The words of the language and what they mean. -/
def words : List (List Char × Token) :=
  [("null".toList, .scalar .null), ("true".toList, .scalar (.bool true)),
    ("false".toList, .scalar (.bool false)), ("NaN".toList, .constant "NaN" .nan),
    ("Infinity".toList, .constant "Infinity" (.infinity false)),
    ("-Infinity".toList, .constant "-Infinity" (.infinity true))]

/-- The first word of a list that a text begins with, and what follows it. -/
def word? (cs : List Char) : List (List Char × Token) → Option (Token × List Char)
  | [] => none
  | (w, t) :: ws =>
    match after? w cs with
    | some rest => some (t, rest)
    | none => word? cs ws

/-- A number with an optional minus sign. -/
def number? : List Char → Option (Token × List Char)
  | '-' :: rest => unsignedNumber? true rest
  | cs => unsignedNumber? false cs

/-- The token of a punctuation character. -/
def punctuation? : Char → Option Token
  | '{' => some .openMap
  | '}' => some .closeMap
  | '[' => some .openList
  | ']' => some .closeList
  | ':' => some .colon
  | ',' => some .comma
  | _ => none

/-- Looks at a text that begins with no gap. -/
def nextAt : List Char → Front
  | [] => .finish []
  | c :: rest =>
    match punctuation? c with
    | some t => .token t (c :: rest) rest
    | none =>
      if c = '"' then
        match stringBody .plain none rest with
        | .ok (body, after) => .token (.text body) (c :: rest) after
        | .error (cause, place) => .fault cause (place.getD (c :: rest))
      else
        match word? (c :: rest) words with
        | some (t, after) => .token t (c :: rest) after
        | none =>
          match number? (c :: rest) with
          | some (t, after) => .token t (c :: rest) after
          | none => .fault .expectedValue (c :: rest)

/-- Looks at the front of a text. -/
def next (cs : List Char) : Front :=
  nextAt (cs.dropWhile isGap)

theorem length_lt_of_word? {cs rest : List Char} {t : Token} {ws : List (List Char × Token)}
    (hws : ∀ w ∈ ws, w.1 ≠ []) (h : word? cs ws = some (t, rest)) : rest.length < cs.length := by
  induction ws with
  | nil => simp [word?] at h
  | cons w ws ih =>
    obtain ⟨w, u⟩ := w
    simp only [word?] at h
    split at h
    · next r hr =>
      simp only [Option.some.injEq, Prod.mk.injEq] at h
      have hw : w ≠ [] := hws (w, u) List.mem_cons_self
      have := List.length_pos_iff.2 hw
      rw [eq_append_of_after? hr, ← h.2, List.length_append]
      omega
    · exact ih (fun w hw => hws w (List.mem_cons_of_mem _ hw)) h

theorem words_nonempty : ∀ w ∈ words, w.1 ≠ [] := by
  intro w hw
  simp only [words, List.mem_cons, List.not_mem_nil, or_false] at hw
  rcases hw with rfl | rfl | rfl | rfl | rfl | rfl <;> simp

theorem length_lt_of_number? {cs rest : List Char} {t : Token}
    (h : number? cs = some (t, rest)) : rest.length < cs.length := by
  unfold number? at h
  split at h
  · have := length_lt_of_unsignedNumber? h
    simp only [List.length_cons]
    omega
  · exact length_lt_of_unsignedNumber? h

/-- A token is a sign, a string, a word or a number. -/
theorem nextAt_cases {cs start rest : List Char} {t : Token} (h : nextAt cs = .token t start rest) :
    ∃ c tail, cs = c :: tail ∧
      (punctuation? c = some t ∧ rest = tail ∨
        (c = '"' ∧ ∃ body, stringBody .plain none tail = .ok (body, rest) ∧ t = .text body) ∨
        word? (c :: tail) words = some (t, rest) ∨ number? (c :: tail) = some (t, rest)) := by
  cases cs with
  | nil => cases h
  | cons c tail =>
    refine ⟨c, tail, rfl, ?_⟩
    rw [nextAt] at h
    split at h
    · next hpunctuation =>
      cases h
      exact Or.inl ⟨hpunctuation, rfl⟩
    split at h
    · next hquote =>
      split at h
      · next hbody =>
        cases h
        exact Or.inr (Or.inl ⟨hquote, _, hbody, rfl⟩)
      · cases h
    split at h
    · next hword =>
      cases h
      exact Or.inr (Or.inr (Or.inl hword))
    split at h
    · next hnumber =>
      cases h
      exact Or.inr (Or.inr (Or.inr hnumber))
    · cases h

theorem length_lt_of_nextAt {cs start rest : List Char} {t : Token}
    (h : nextAt cs = .token t start rest) : rest.length < cs.length := by
  obtain ⟨c, tail, rfl, ⟨-, rfl⟩ | ⟨-, body, hbody, -⟩ | hword | hnumber⟩ := nextAt_cases h
  · simp
  · have hshorter := length_lt_of_stringBody hbody
    rw [List.length_cons]
    omega
  · exact length_lt_of_word? words_nonempty hword
  · exact length_lt_of_number? hnumber

/-- A token takes at least one character. -/
theorem length_lt_of_next {cs start rest : List Char} {t : Token}
    (h : next cs = .token t start rest) : rest.length < cs.length :=
  Nat.lt_of_lt_of_le (length_lt_of_nextAt h) (length_dropWhile_le isGap cs)

/-- The tokens of a text, up to and including the one that ends it. -/
def lexemes (cs : List Char) : List Lexeme :=
  match _h : next cs with
  | .finish start => [⟨.finish, start⟩]
  | .fault cause start => [⟨.fault cause, start⟩]
  | .token t start rest => ⟨t, start⟩ :: lexemes rest
termination_by cs.length
decreasing_by exact length_lt_of_next _h

end ThemeLocales.Json
