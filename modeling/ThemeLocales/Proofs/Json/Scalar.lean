import ThemeLocales.Json.Reader
import ThemeLocales.Json.Writer
import ThemeLocales.Proofs.Json.Step
import ThemeLocales.Proofs.Number.Numeral

/-!
# Scalars as tokens

The text of a scalar is one token, which stands for the scalar. A text needs nothing after it; a
number ends where a comma or a line feed follows, as it does wherever a document is written.
-/

set_option autoImplicit false

namespace ThemeLocales.Json

open Text

/-! ## Texts -/

/-- The four hexadecimal digits of a control character stand for it. -/
theorem stringBody_hex {n : ℕ} (hn : n < 0x20) (rest : List Char) :
    stringBody (.hex 4 0) none ((padded 16 4 n).toList ++ rest) =
      putBefore [n] (stringBody .plain none rest) := by
  have hpadded : (padded 16 4 n).toList = ['0', '0', (n / 16).digitChar, (n % 16).digitChar] := by
    interval_cases n <;> decide
  rw [hpadded]
  interval_cases n <;> rfl

theorem stringBody_unicodeEscape (rest : List Char) :
    stringBody .plain none ('\\' :: 'u' :: rest) = stringBody (.hex 4 0) none rest := rfl

/-- What a character is written as is read as the character. -/
theorem stringBody_charText (c : Char) (rest : List Char) :
    stringBody .plain none (charText c ++ rest) =
      putBefore [c.toNat] (stringBody .plain none rest) := by
  unfold charText
  split_ifs with h₁ h₂ h₃ h₄ h₅ h₆ h₇ h₈
  · subst h₁
    rfl
  · subst h₂
    rfl
  · subst h₃
    rfl
  · subst h₄
    rfl
  · subst h₅
    rfl
  · subst h₆
    rfl
  · subst h₇
    rfl
  · rw [List.cons_append, List.cons_append, stringBody_unicodeEscape, stringBody_hex h₈]
  · simp only [List.singleton_append, stringBody, h₁, h₂, h₈, if_false]
    rfl

/-- A written text is read up to its closing quote. -/
theorem stringBody_flatMap (cs rest : List Char) :
    stringBody .plain none (cs.flatMap charText ++ '"' :: rest) =
      .ok (cs.map Char.toNat, rest) := by
  induction cs with
  | nil => rfl
  | cons c cs ih =>
    rw [List.flatMap_cons, List.append_assoc, stringBody_charText, ih]
    rfl

/-! ## Numbers -/

/-- Whether a character may continue a number. -/
def continuesNumber (c : Char) : Bool :=
  isAsciiDigit c || c = '.' || c = 'e' || c = 'E'

/-- No number goes on here. -/
def Stops (rest : List Char) : Prop :=
  ∀ c ∈ rest.head?, continuesNumber c = false

theorem stops_cons {c : Char} (h : continuesNumber c = false) (cs : List Char) :
    Stops (c :: cs) := by
  rintro d hd
  cases hd
  exact h

/-- An exponent, if there is one, with the power of ten that it stands for. -/
inductive Exponent : List Char → ℤ → Prop
  | none : Exponent [] 0
  | some {mark : Char} (hmark : mark = 'e' ∨ mark = 'E') {sign : List Char} {negative : Bool}
      (hsign : (sign, negative) ∈ [([], false), (['+'], false), (['-'], true)])
      {digits : List Char} (hne : digits ≠ []) (hdigits : ∀ d ∈ digits, isAsciiDigit d = true) :
      Exponent (mark :: (sign ++ digits)) (Number.signed negative (digitsValue digits))

variable {ds rest : List Char}

theorem takeWhile_digits (hds : ∀ d ∈ ds, isAsciiDigit d = true)
    (hrest : ∀ c ∈ rest.head?, isAsciiDigit c = false) :
    (ds ++ rest).takeWhile isAsciiDigit = ds ∧ (ds ++ rest).dropWhile isAsciiDigit = rest := by
  rw [List.takeWhile_append_of_pos hds, List.dropWhile_append_of_pos hds]
  cases rest with
  | nil => simp
  | cons c cs => simp [hrest c rfl]

theorem wholeDigits?_append (hds : Numeral.IsWhole ds)
    (hrest : ∀ c ∈ rest.head?, isAsciiDigit c = false) :
    wholeDigits? (ds ++ rest) = some (ds, rest) := by
  rcases hds with rfl | ⟨d, tail, rfl, hd, hall⟩
  · rfl
  · obtain ⟨htake, hdrop⟩ := takeWhile_digits (fun x hx => hall x (List.mem_cons_of_mem d hx)) hrest
    simp only [List.cons_append, wholeDigits?, hd, if_false, hall d List.mem_cons_self, if_true,
      htake, hdrop]

theorem fraction?_append (hds : ∀ d ∈ ds, isAsciiDigit d = true)
    (hrest : ∀ c ∈ rest.head?, isAsciiDigit c = false ∧ c ≠ '.') :
    (fraction? (Numeral.fractionChars ds ++ rest)).getD ([], Numeral.fractionChars ds ++ rest) =
      (ds, rest) := by
  obtain ⟨htake, hdrop⟩ := takeWhile_digits hds fun c hc => (hrest c hc).1
  cases ds with
  | nil =>
    have hnone : fraction? rest = none := by
      unfold fraction?
      split
      · exact absurd rfl (hrest '.' rfl).2
      · rfl
    rw [Numeral.fractionChars, List.nil_append, hnone, Option.getD_none]
  | cons d ds =>
    simp only [Numeral.fractionChars, List.cons_append, fraction?]
    rw [List.cons_append] at htake hdrop
    rw [htake, hdrop]
    rfl

/-- A sign, or none, stands before digits. -/
theorem splitSign_append {sign : List Char} {negative : Bool}
    (hsign : (sign, negative) ∈ [([], false), (['+'], false), (['-'], true)])
    (hne : ds ≠ []) (hds : ∀ d ∈ ds, isAsciiDigit d = true) (rest : List Char) :
    Number.splitSign (sign ++ (ds ++ rest)) = (negative, ds ++ rest) := by
  obtain ⟨d, tail, rfl⟩ := List.exists_cons_of_ne_nil hne
  have hd := hds d List.mem_cons_self
  simp only [List.mem_cons, Prod.mk.injEq, List.not_mem_nil, or_false] at hsign
  rcases hsign with ⟨rfl, rfl⟩ | ⟨rfl, rfl⟩ | ⟨rfl, rfl⟩
  · unfold Number.splitSign
    split
    · next h =>
      cases h
      exact absurd hd (by decide)
    · next h =>
      cases h
      exact absurd hd (by decide)
    · rfl
  · rfl
  · rfl

theorem exponent?_append {ex : List Char} {e : ℤ} (h : Exponent ex e) (hsome : ex ≠ [])
    (hrest : ∀ c ∈ rest.head?, isAsciiDigit c = false) :
    exponent? (ex ++ rest) = some (e, rest) := by
  cases h with
  | none => exact absurd rfl hsome
  | @some mark hmark sign negative hsign digits hne hdigits =>
    obtain ⟨htake, hdrop⟩ := takeWhile_digits hdigits hrest
    have hsplit := splitSign_append hsign hne hdigits rest
    have hempty : digits.isEmpty = false := List.isEmpty_eq_false_iff.2 hne
    have hmark' : (decide (mark = 'e') || decide (mark = 'E')) = true := by simpa using hmark
    simp only [List.cons_append, List.append_assoc, exponent?, hmark', if_true, hsplit, htake,
      hdrop, hempty, Bool.false_eq_true, if_false]
    rfl

theorem exponent?_of_stops (hrest : Stops rest) : exponent? rest = none := by
  cases rest with
  | nil => rfl
  | cons c cs =>
    have hc := hrest c rfl
    simp only [continuesNumber, Bool.or_eq_false_iff, decide_eq_false_iff_not] at hc
    simp [exponent?, hc.1.2, hc.2]

/-- No digit and no point stands where the digits of a number end. -/
theorem exponent_head {ex : List Char} {e : ℤ} (h : Exponent ex e) (hrest : Stops rest) :
    ∀ c ∈ (ex ++ rest).head?, isAsciiDigit c = false ∧ c ≠ '.' := by
  intro c hc
  cases h with
  | none =>
    have hstop := hrest c hc
    simp only [continuesNumber, Bool.or_eq_false_iff, decide_eq_false_iff_not] at hstop
    exact ⟨hstop.1.1.1, hstop.1.1.2⟩
  | some hmark =>
    cases hc
    rcases hmark with rfl | rfl <;> decide

theorem fractionChars_head (ds : List Char) (hrest : ∀ c ∈ rest.head?, isAsciiDigit c = false) :
    ∀ c ∈ (Numeral.fractionChars ds ++ rest).head?, isAsciiDigit c = false := by
  intro c hc
  cases ds with
  | nil => exact hrest c hc
  | cons d ds =>
    cases hc
    decide

/-- The token of a number with a fraction or an exponent. -/
def realToken (negative : Bool) (whole fraction : List Char) (e : ℤ) : Token :=
  .scalar (.real (.ofDecimal negative (digitsValue (whole ++ fraction)) (e - fraction.length)))

/-- The token of a number without both. -/
def integerToken (negative : Bool) (whole : List Char) : Token :=
  if Number.longestInteger < whole.length then .longInteger whole.length
  else .scalar (.int (Number.signed negative (digitsValue whole)))

section Unsigned

variable {whole fraction ex : List Char} {e : ℤ}

theorem unsignedNumber?_real (negative : Bool) (hwhole : Numeral.IsWhole whole)
    (hfraction : ∀ d ∈ fraction, isAsciiDigit d = true) (hex : Exponent ex e)
    (hreal : fraction ≠ [] ∨ ex ≠ []) (hrest : Stops rest) :
    unsignedNumber? negative (whole ++ (Numeral.fractionChars fraction ++ (ex ++ rest))) =
      some (realToken negative whole fraction e, rest) := by
  have hhead := exponent_head hex hrest
  have hwhole' := wholeDigits?_append hwhole
    (fractionChars_head fraction fun c hc => (hhead c hc).1)
  have hfraction' := fraction?_append hfraction hhead
  rw [unsignedNumber?, hwhole']
  simp only [hfraction']
  -- without an exponent what follows must not be read as one
  by_cases hne : ex = []
  · subst hne
    obtain rfl : e = 0 := by cases hex; rfl
    have hempty : fraction.isEmpty = false :=
      List.isEmpty_eq_false_iff.2 (hreal.resolve_right fun h => h rfl)
    rw [List.nil_append, exponent?_of_stops hrest]
    simp [hempty, realToken]
  · rw [exponent?_append hex hne fun c hc => ?_]
    · rfl
    · have hstop := hrest c hc
      simp only [continuesNumber, Bool.or_eq_false_iff] at hstop
      exact hstop.1.1.1

theorem unsignedNumber?_integer (negative : Bool) (hwhole : Numeral.IsWhole whole)
    (hrest : Stops rest) :
    unsignedNumber? negative (whole ++ rest) = some (integerToken negative whole, rest) := by
  have hhead := exponent_head .none hrest
  have hwhole' := wholeDigits?_append hwhole fun c hc => (hhead c hc).1
  have hfraction' := @fraction?_append [] rest (by simp) hhead
  simp only [Numeral.fractionChars, List.nil_append] at hfraction' hwhole'
  rw [unsignedNumber?, hwhole']
  simp only [hfraction', exponent?_of_stops hrest, List.isEmpty_nil, if_true, integerToken]
  split <;> rfl

end Unsigned

/-- The token that the text of a numeral is. -/
def Numeral.token (negative : Bool) (n : Numeral) : Token :=
  if n.isReal then .scalar (.real (.ofDecimal negative n.digits n.place))
  else if Number.longestInteger < n.whole.length then .longInteger n.whole.length
  else .scalar (.int (if negative then -(digitsValue n.whole : ℤ) else digitsValue n.whole))

/-- The exponent of a numeral is one as a number may have it. -/
theorem exponent_numeral {n : Numeral} (hn : n.WellFormed) :
    Exponent (Numeral.exponentChars n.exponent) n.power := by
  cases hexp : n.exponent with
  | none =>
    rw [Numeral.power, hexp]
    exact .none
  | some p =>
    obtain ⟨negative, ds⟩ := p
    obtain ⟨hne, hds⟩ := hn.exponent _ hexp
    rw [Numeral.power, hexp]
    have hsign : ([if negative then '-' else '+'], negative) ∈
        [([], false), (['+'], false), (['-'], true)] := by cases negative <;> simp
    exact .some (Or.inl rfl) hsign hne hds

/-- The text of a numeral is one token. -/
theorem unsignedNumber?_chars (negative : Bool) {n : Numeral} (hn : n.WellFormed)
    (hrest : Stops rest) :
    unsignedNumber? negative (n.chars ++ rest) = some (Numeral.token negative n, rest) := by
  have hsplit : n.chars ++ rest = n.whole ++ (Numeral.fractionChars n.fraction ++
      (Numeral.exponentChars n.exponent ++ rest)) := by
    simp [Numeral.chars]
  rw [hsplit]
  -- a numeral with a fraction or an exponent is real, else it is an integer
  by_cases hreal : n.fraction ≠ [] ∨ n.exponent.isSome = true
  · have hne : n.fraction ≠ [] ∨ Numeral.exponentChars n.exponent ≠ [] := by
      refine hreal.imp_right fun hsome => ?_
      obtain ⟨p, hp⟩ := Option.isSome_iff_exists.1 hsome
      simp [hp, Numeral.exponentChars]
    have hisReal : n.isReal = true := by
      simpa [Numeral.isReal, or_iff_not_imp_left] using hreal
    rw [unsignedNumber?_real negative hn.whole hn.fraction (exponent_numeral hn) hne hrest]
    simp [Numeral.token, hisReal, realToken, Numeral.digits, Numeral.place]
  · rw [not_or, not_not, Bool.not_eq_true, Option.isSome_eq_false_iff, Option.isNone_iff_eq_none]
      at hreal
    have hisReal : n.isReal = false := by simp [Numeral.isReal, hreal.1, hreal.2]
    rw [hreal.1, hreal.2, Numeral.exponentChars, Numeral.fractionChars, List.nil_append,
      List.nil_append, unsignedNumber?_integer negative hn.whole hrest]
    simp only [Numeral.token, hisReal, Bool.false_eq_true, if_false]
    rfl

/-! ## Scalars -/

theorem isAsciiDigit_cases {c : Char} (hc : isAsciiDigit c = true) :
    c = '0' ∨ c = '1' ∨ c = '2' ∨ c = '3' ∨ c = '4' ∨ c = '5' ∨ c = '6' ∨ c = '7' ∨ c = '8' ∨
      c = '9' := by
  simp only [isAsciiDigit, Bool.and_eq_true, decide_eq_true_eq] at hc
  have hlow : 48 ≤ c.toNat := hc.1
  have hhigh : c.toNat ≤ 57 := hc.2
  have hc' : Char.ofNat c.toNat = c := Char.ofNat_toNat c
  interval_cases h : c.toNat <;> simp [← hc']

/-- A minus sign, where there is one. -/
def signChars (negative : Bool) : List Char :=
  if negative then ['-'] else []

/-- A digit begins a number, whose sign may stand before it. -/
theorem nextAt_signed (negative : Bool) {c : Char} (hc : isAsciiDigit c = true) (cs : List Char) :
    nextAt (signChars negative ++ c :: cs) = match unsignedNumber? negative (c :: cs) with
      | some (t, after) => .token t (signChars negative ++ c :: cs) after
      | none => .fault .expectedValue (signChars negative ++ c :: cs) := by
  rcases isAsciiDigit_cases hc with
    rfl | rfl | rfl | rfl | rfl | rfl | rfl | rfl | rfl | rfl <;> cases negative <;> rfl

theorem Numeral.IsWhole.head {ds : List Char} (hds : Numeral.IsWhole ds) :
    ∃ c cs, ds = c :: cs ∧ isAsciiDigit c = true := by
  rcases hds with rfl | ⟨c, cs, rfl, -, hall⟩
  · exact ⟨'0', [], rfl, by decide⟩
  · exact ⟨c, cs, rfl, hall c List.mem_cons_self⟩

theorem isGap_of_digit {c : Char} (hc : isAsciiDigit c = true) : isGap c = false := by
  rcases isAsciiDigit_cases hc with
    rfl | rfl | rfl | rfl | rfl | rfl | rfl | rfl | rfl | rfl <;> rfl

/-- A number with its sign is one token wherever it stands. -/
theorem next_signed (negative : Bool) {whole tail : List Char} {t : Token}
    (hwhole : Numeral.IsWhole whole)
    (h : unsignedNumber? negative (whole ++ tail) = some (t, rest)) :
    next (signChars negative ++ (whole ++ tail)) =
      .token t (signChars negative ++ (whole ++ tail)) rest := by
  obtain ⟨c, cs, rfl, hc⟩ := Numeral.IsWhole.head hwhole
  rw [List.cons_append] at h ⊢
  have hfirst : next (signChars negative ++ c :: (cs ++ tail)) =
      nextAt (signChars negative ++ c :: (cs ++ tail)) := by
    cases negative with
    | true => exact next_of_nextAt (by decide : isGap '-' = false) _
    | false => exact next_of_nextAt (isGap_of_digit hc) _
  rw [hfirst, nextAt_signed negative hc, h]

/-- A numeral with its sign is one token wherever it stands. -/
theorem next_numeral (negative : Bool) {n : Numeral} (hn : n.WellFormed) (hrest : Stops rest) :
    next (signChars negative ++ n.chars ++ rest) =
      .token (Numeral.token negative n) (signChars negative ++ n.chars ++ rest) rest := by
  have hnumber := unsignedNumber?_chars negative hn hrest
  simp only [Numeral.chars, List.append_assoc] at hnumber ⊢
  exact next_signed negative hn.whole hnumber

theorem toList_toString_int (n : ℤ) :
    (toString n).toList = signChars (decide (n < 0)) ++ Nat.toDigits 10 n.natAbs := by
  cases n with
  | ofNat m =>
    have : ¬ (Int.ofNat m < 0) := by simp
    rw [decide_eq_false this]
    exact Nat.toList_repr
  | negSucc m =>
    have : Int.negSucc m < 0 := Int.negSucc_lt_zero m
    rw [decide_eq_true this]
    change ("-" ++ Nat.repr (m + 1)).toList = _
    rw [String.toList_append, Nat.toList_repr]
    rfl

theorem toList_textWith (special : Binary64.SpecialTexts) (negative : Bool) (m : ℕ) (e : ℤ) :
    ((Binary64.finite negative m e).textWith special).toList =
      signChars negative ++ Binary64.finiteText m e := by
  cases negative <;> simp [Binary64.textWith, Binary64.isNegative, signChars]

end ThemeLocales.Json
