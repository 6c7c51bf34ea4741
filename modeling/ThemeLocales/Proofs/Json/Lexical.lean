import ThemeLocales.Proofs.Json.Grammar

/-!
# Strings, numbers and tokens of the grammar

The lexical level reads what the grammar has: a string body is read just when it is one
(`stringBody_eq_ok_iff`), a number is read as far as it goes (`number?_append`,
`exists_of_number?`), and whatever token stands at the front of a text, a rule of the grammar gives
it (`tokenText_of_next`).
-/

set_option autoImplicit false

namespace ThemeLocales.Json

open Text

variable {cs rest : List Char} {body : Points} {high : Option ℕ}

/-! ## Strings -/

theorem putBefore_putBefore (front front' : Points)
    (r : Except StringFault (Points × List Char)) :
    putBefore front (putBefore front' r) = putBefore (front ++ front') r := by
  cases r with
  | ok p => simp [putBefore]
  | error e => rfl

theorem putBefore_nil (r : Except StringFault (Points × List Char)) : putBefore [] r = r := by
  cases r <;> rfl

/-- Hexadecimal digits of an escape are read to the last one, which completes the code unit. -/
theorem stringBody_digits {digits : List Char} (hne : digits ≠ []) {n u : ℕ}
    (h : hexValue? n digits = some u) (rest : List Char) :
    stringBody (.hex digits.length n) high (digits ++ rest) =
      putBefore (joinUnit high u).1 (stringBody .plain (joinUnit high u).2 rest) := by
  induction digits generalizing n with
  | nil => exact absurd rfl hne
  | cons c digits ih =>
    obtain ⟨d, hd, hrest⟩ := Option.bind_eq_some_iff.1 h
    cases digits with
    | nil =>
      cases hrest
      simp [stringBody, hd]
    | cons c' digits =>
      have hmore : ¬ (c :: c' :: digits).length ≤ 1 := by simp
      rw [List.cons_append, stringBody]
      simp only [hd, hmore, if_false]
      exact ih (List.cons_ne_nil _ _) hrest

/-- Where they are not all there, the text is refused, whatever is pending. -/
theorem stringBody_hex_cases (missing n : ℕ) (cs : List Char) :
    (∃ digits u rest, digits.length = missing + 1 ∧ hexValue? n digits = some u ∧
        cs = digits ++ rest) ∨
      ∃ e, ∀ high, stringBody (.hex (missing + 1) n) high cs = .error e := by
  induction missing generalizing n cs with
  | zero =>
    cases cs with
    | nil => exact Or.inr ⟨_, fun _ => rfl⟩
    | cons c cs =>
      cases hd : hexDigit? c with
      | none =>
        exact Or.inr ⟨(.badUnicodeEscape, some (c :: cs)), fun _ => by simp [stringBody, hd]⟩
      | some d => exact Or.inl ⟨[c], n * 16 + d, cs, rfl, by simp [hexValue?, hd], rfl⟩
  | succ missing ih =>
    cases cs with
    | nil => exact Or.inr ⟨_, fun _ => rfl⟩
    | cons c cs =>
      cases hd : hexDigit? c with
      | none =>
        exact Or.inr ⟨(.badUnicodeEscape, some (c :: cs)), fun _ => by simp [stringBody, hd]⟩
      | some d =>
        rcases ih (n * 16 + d) cs with ⟨digits, u, rest, hlength, hvalue, rfl⟩ | ⟨e, he⟩
        · exact Or.inl ⟨c :: digits, u, rest, by simp [hlength], by simp [hexValue?, hd, hvalue],
            rfl⟩
        · exact Or.inr ⟨e, fun high => by simp [stringBody, hd, he high]⟩

/-- An escaped code unit is read as one. -/
theorem stringBody_unit {u : ℕ} (h : BeginsWithUnit cs u rest) :
    stringBody .plain high cs =
      putBefore (joinUnit high u).1 (stringBody .plain (joinUnit high u).2 rest) := by
  obtain ⟨digits, hlength, hvalue, rfl⟩ := h
  have hne : digits ≠ [] := List.ne_nil_of_length_eq_add_one hlength
  have hdigits : stringBody (.hex digits.length 0) high (digits ++ rest) = _ :=
    stringBody_digits hne hvalue rest
  rw [hlength] at hdigits
  rw [← hdigits]
  rfl

/-- Behind an escaped `u` there is a code unit, or the text is refused, whatever is pending. -/
theorem beginsWithUnit_or (cs : List Char) :
    (∃ u rest, BeginsWithUnit ('\\' :: 'u' :: cs) u rest) ∨
      ∃ e, ∀ high, stringBody .plain high ('\\' :: 'u' :: cs) = .error e := by
  rcases stringBody_hex_cases 3 0 cs with ⟨digits, u, rest, hlength, hvalue, rfl⟩ | ⟨e, he⟩
  · exact Or.inl ⟨u, rest, digits, hlength, hvalue, rfl⟩
  · exact Or.inr ⟨e, fun high => he high⟩

theorem joinUnit_of_high {u : ℕ} (h : isHighSurrogate u = true) :
    joinUnit high u = (high.toList, some u) := if_pos h

/-- Where nothing is pending, a unit that begins no pair is a code point. -/
theorem joinUnit_none {u : ℕ} (h : isHighSurrogate u = false) :
    joinUnit none u = ([u], none) := by
  rw [joinUnit, h]
  rfl

theorem isHighSurrogate_of_low {u : ℕ} (h : isLowSurrogate u = true) :
    isHighSurrogate u = false := by
  simp only [isLowSurrogate, Bool.and_eq_true, decide_eq_true_eq] at h
  simp only [isHighSurrogate, Bool.and_eq_false_iff, decide_eq_false_iff_not]
  omega

/-- A low surrogate completes a pending high one. -/
theorem joinUnit_of_low {first u : ℕ} (h : isLowSurrogate u = true) : joinUnit (some first) u =
    ([0x10000 + (first - 0xD800) * 0x400 + (u - 0xDC00)], none) := by
  simp [joinUnit, isHighSurrogate_of_low h, h]

/-- Any other unit leaves the pending one alone. -/
theorem joinUnit_some {first u : ℕ} (hhigh : isHighSurrogate u = false)
    (hlow : isLowSurrogate u = false) : joinUnit (some first) u = ([first, u], none) := by
  simp [joinUnit, hhigh, hlow]

/-- A high surrogate that no low one follows stands alone. -/
theorem stringBody_pending (first : ℕ) (h : ∀ u rest, BeginsWithUnit cs u rest →
    isLowSurrogate u = false) :
    stringBody .plain (some first) cs = putBefore [first] (stringBody .plain none cs) := by
  cases cs with
  | nil => rfl
  | cons c cs =>
    by_cases hquote : c = '"'
    · simp [stringBody, hquote, putBefore]
    by_cases hescape : c = '\\'
    · subst hescape
      cases cs with
      | nil => rfl
      | cons c cs =>
        by_cases hu : c = 'u'
        · subst hu
          rcases beginsWithUnit_or cs with ⟨u, rest, hunit⟩ | ⟨e, he⟩
          · -- what is pending is put before this unit, whether the unit is pending itself or not
            have hlow := h u rest hunit
            rw [stringBody_unit hunit, stringBody_unit hunit]
            cases hhigh : isHighSurrogate u with
            | true =>
              rw [joinUnit_of_high hhigh, joinUnit_of_high hhigh, putBefore_putBefore]
              rfl
            | false =>
              rw [joinUnit_some hhigh hlow, joinUnit_none hhigh, putBefore_putBefore]
              rfl
          · rw [he, he]
            rfl
        · cases hc : escapedChar? c with
          | none => simp [stringBody, hu, hc, putBefore]
          | some e => simp [stringBody, hu, hc, putBefore_putBefore]
    · by_cases hcontrol : c.toNat < 0x20
      · simp [stringBody, hquote, hescape, hcontrol, putBefore]
      · simp [stringBody, hquote, hescape, hcontrol, putBefore_putBefore]

/-- What the grammar has for a string body is read as one. -/
theorem stringBody_of_quoted (h : Quoted cs body rest) :
    stringBody .plain none cs = .ok (body, rest) := by
  induction h with
  | close rest => rfl
  | plain hquote hescape hcontrol _ ih =>
    simp [stringBody, hquote, hescape, Nat.not_lt.2 hcontrol, ih, putBefore]
  | @letter c e cs rest body hc _ ih =>
    have hu : c ≠ 'u' := by
      rintro rfl
      cases hc
    simp [stringBody, hu, hc, ih, putBefore]
  | @unit cs cs' rest body u hunit hlone _ ih =>
    rw [stringBody_unit hunit]
    cases hhigh : isHighSurrogate u with
    | true =>
      rw [joinUnit_of_high hhigh, stringBody_pending u (hlone hhigh), ih]
      rfl
    | false =>
      rw [joinUnit_none hhigh, ih]
      rfl
  | pair hunit hhigh hunit' hlow _ ih =>
    rw [stringBody_unit hunit, joinUnit_of_high hhigh, stringBody_unit hunit', joinUnit_of_low hlow,
      ih]
    rfl

/-- What is read behind a front of a text is a string body of the grammar. -/
def QuotedBehind (cs : List Char) (body : Points) (rest : List Char) : Prop :=
  ∀ front cs', cs'.length < cs.length →
    putBefore front (stringBody .plain none cs') = .ok (body, rest) →
      ∃ body', Quoted cs' body' rest ∧ body = front ++ body'

/-- An escaped code unit and what is read behind it are a string body of the grammar. -/
theorem quoted_of_unit {cs' : List Char} {u : ℕ} (hbehind : QuotedBehind cs body rest)
    (hunit : BeginsWithUnit cs u cs') (h : stringBody .plain none cs = .ok (body, rest)) :
    Quoted cs body rest := by
  have hlength := hunit.length_lt
  rw [stringBody_unit hunit] at h
  cases hhigh : isHighSurrogate u with
  | false =>
    rw [joinUnit_none hhigh] at h
    obtain ⟨body', hbody', rfl⟩ := hbehind _ _ hlength h
    exact .unit hunit (fun htrue => absurd htrue (by simp [hhigh])) hbody'
  | true =>
    rw [joinUnit_of_high hhigh, Option.toList_none, putBefore_nil] at h
    -- a high surrogate pairs with a low one right behind it, or else it stands alone
    by_cases hnext : ∃ v cs'', BeginsWithUnit cs' v cs'' ∧ isLowSurrogate v = true
    · obtain ⟨v, cs'', hunit', hlow'⟩ := hnext
      rw [stringBody_unit hunit', joinUnit_of_low hlow'] at h
      obtain ⟨body', hbody', rfl⟩ := hbehind _ _ (hunit'.length_lt.trans hlength) h
      exact .pair hunit hhigh hunit' hlow' hbody'
    · have hnone : ∀ v cs'', BeginsWithUnit cs' v cs'' → isLowSurrogate v = false :=
        fun v cs'' hunit' => Bool.eq_false_iff.2 fun hlow' => hnext ⟨v, cs'', hunit', hlow'⟩
      rw [stringBody_pending u hnone] at h
      obtain ⟨body', hbody', rfl⟩ := hbehind _ _ hlength h
      exact .unit hunit (fun _ => hnone) hbody'

/-- What is read as a string body is one of the grammar. -/
theorem quoted_of_stringBody (h : stringBody .plain none cs = .ok (body, rest)) :
    Quoted cs body rest := by
  -- a pair of surrogates is two escapes at once, so the induction is on the length
  induction hn : cs.length using Nat.strong_induction_on generalizing cs body with
  | h n ih =>
    subst hn
    have hbehind : QuotedBehind cs body rest := by
      intro front cs' hlength hput
      obtain ⟨body', hbody', hsplit⟩ := putBefore_eq_ok_iff.1 hput
      exact ⟨body', ih _ hlength hbody' rfl, hsplit⟩
    cases cs with
    | nil => cases h
    | cons c cs =>
      by_cases hquote : c = '"'
      · subst hquote
        cases h
        exact .close rest
      by_cases hescape : c = '\\'
      · subst hescape
        cases cs with
        | nil => cases h
        | cons c cs =>
          by_cases hu : c = 'u'
          · subst hu
            rcases beginsWithUnit_or cs with ⟨u, cs', hunit⟩ | ⟨e, he⟩
            · exact quoted_of_unit hbehind hunit h
            · rw [he] at h
              cases h
          · cases hc : escapedChar? c with
            | none => simp [stringBody, hu, hc] at h
            | some e =>
              simp only [stringBody, hu, hc, if_false, if_true, Char.reduceEq] at h
              obtain ⟨body', hbody', rfl⟩ := hbehind _ _ (Nat.lt_succ_of_lt (Nat.lt_succ_self _)) h
              exact .letter hc hbody'
      · by_cases hcontrol : c.toNat < 0x20
        · simp [stringBody, hquote, hescape, hcontrol] at h
        · simp only [stringBody, hquote, hescape, hcontrol, if_false] at h
          obtain ⟨body', hbody', rfl⟩ := hbehind _ _ (Nat.lt_succ_self _) h
          exact .plain hquote hescape (Nat.not_lt.1 hcontrol) hbody'

theorem stringBody_eq_ok_iff : stringBody .plain none cs = .ok (body, rest) ↔ Quoted cs body rest :=
  ⟨quoted_of_stringBody, stringBody_of_quoted⟩

/-! ## Numbers -/

theorem eq_append_of_wholeDigits? {ds : List Char} (h : wholeDigits? cs = some (ds, rest)) :
    cs = ds ++ rest ∧ Numeral.IsWhole ds := by
  cases cs with
  | nil => cases h
  | cons c cs =>
    rw [wholeDigits?] at h
    split_ifs at h with hzero hdigit
    · cases h
      exact ⟨by rw [hzero]; rfl, Or.inl rfl⟩
    · cases h
      refine ⟨by rw [List.cons_append, List.takeWhile_append_dropWhile],
        Or.inr ⟨c, _, rfl, hzero, fun d hd => ?_⟩⟩
      rcases List.mem_cons.1 hd with rfl | hd
      · exact hdigit
      · exact List.mem_takeWhile_imp hd

theorem eq_append_of_fraction? {ds : List Char}
    (h : (fraction? cs).getD ([], cs) = (ds, rest)) :
    cs = Numeral.fractionChars ds ++ rest ∧ ∀ d ∈ ds, isAsciiDigit d = true := by
  unfold fraction? at h
  split at h
  · next tail =>
    simp only at h
    split at h
    · cases h
      exact ⟨rfl, by simp⟩
    · next hne =>
      cases h
      obtain ⟨d, ds, hds⟩ := List.exists_cons_of_ne_nil fun h => hne (List.isEmpty_iff.2 h)
      refine ⟨?_, fun d hd => List.mem_takeWhile_imp hd⟩
      have hsplit : tail = tail.takeWhile isAsciiDigit ++ tail.dropWhile isAsciiDigit :=
        List.takeWhile_append_dropWhile.symm
      rw [hds] at hsplit ⊢
      conv_lhs => rw [hsplit]
      rfl
  · cases h
    exact ⟨rfl, by simp⟩

/-- A sign, or none, and what follows it. -/
theorem exists_sign (cs : List Char) : ∃ sign,
    (sign, (Number.splitSign cs).1) ∈ [([], false), (['+'], false), (['-'], true)] ∧
      cs = sign ++ (Number.splitSign cs).2 := by
  unfold Number.splitSign
  split
  · exact ⟨['-'], by simp, rfl⟩
  · exact ⟨['+'], by simp, rfl⟩
  · exact ⟨[], by simp, rfl⟩

theorem exists_of_exponent? {e : ℤ} (h : exponent? cs = some (e, rest)) :
    ∃ ex, ex ≠ [] ∧ Exponent ex e ∧ cs = ex ++ rest := by
  cases cs with
  | nil => cases h
  | cons c cs =>
    obtain ⟨sign, hsign, hcs⟩ := exists_sign cs
    have hsplit : (Number.splitSign cs).2 = (Number.splitSign cs).2.takeWhile isAsciiDigit ++
        (Number.splitSign cs).2.dropWhile isAsciiDigit :=
      List.takeWhile_append_dropWhile.symm
    simp only [exponent?] at h
    split at h
    · next hmark =>
      split at h
      · cases h
      · next hempty =>
        have hne : (Number.splitSign cs).2.takeWhile isAsciiDigit ≠ [] := fun h =>
          hempty (List.isEmpty_iff.2 h)
        have hmark' : c = 'e' ∨ c = 'E' := by simpa using hmark
        have hex := Exponent.some hmark' hsign hne fun d hd => List.mem_takeWhile_imp hd
        cases h
        refine ⟨_, List.cons_ne_nil _ _, hex, ?_⟩
        rw [List.cons_append, List.append_assoc, ← hsplit, ← hcs]
    · cases h

/-- A number is an integer, or it has a fraction or an exponent. -/
theorem exists_of_unsignedNumber? {negative : Bool} {t : Token}
    (h : unsignedNumber? negative cs = some (t, rest)) :
    (∃ whole, Numeral.IsWhole whole ∧ cs = whole ++ rest ∧ t = integerToken negative whole) ∨
      ∃ whole fraction ex e, Numeral.IsWhole whole ∧ (∀ d ∈ fraction, isAsciiDigit d = true) ∧
        Exponent ex e ∧ (fraction ≠ [] ∨ ex ≠ []) ∧
        cs = whole ++ (Numeral.fractionChars fraction ++ (ex ++ rest)) ∧
        t = realToken negative whole fraction e := by
  unfold unsignedNumber? at h
  -- an exponent, or a fraction alone, makes a number real
  split at h
  · cases h
  · next whole tail hwhole =>
    obtain ⟨rfl, hwhole'⟩ := eq_append_of_wholeDigits? hwhole
    simp only at h
    obtain ⟨⟨fraction, behind⟩, hfraction⟩ : ∃ p, (fraction? tail).getD ([], tail) = p := ⟨_, rfl⟩
    obtain ⟨htail, hdigits⟩ := eq_append_of_fraction? hfraction
    rw [hfraction] at h
    simp only at h
    split at h
    · next e behind' hexponent =>
      obtain ⟨ex, hne, hex, rfl⟩ := exists_of_exponent? hexponent
      cases h
      exact Or.inr ⟨whole, fraction, ex, e, hwhole', hdigits, hex, Or.inr hne, by rw [htail], rfl⟩
    · split at h
      · next hempty =>
        obtain rfl := List.isEmpty_iff.1 hempty
        refine Or.inl ⟨whole, hwhole', ?_⟩
        unfold integerToken
        split at h
        · next hlong =>
          cases h
          rw [if_pos hlong]
          exact ⟨rfl, rfl⟩
        · next hlong =>
          cases h
          rw [if_neg hlong]
          exact ⟨rfl, rfl⟩
      · next hempty =>
        cases h
        refine Or.inr ⟨whole, fraction, [], 0, hwhole', hdigits, .none,
          Or.inl fun h => hempty (List.isEmpty_iff.2 h), by rw [htail]; rfl, ?_⟩
        simp [realToken]

/-- The integers that are read are those with no more digits than are converted. -/
def Fits (digits : ℕ) : Prop :=
  digits ≤ Number.longestInteger

theorem integerToken_of_fits {negative : Bool} {whole : List Char} (h : Fits whole.length) :
    integerToken negative whole = .scalar (.int (Number.signed negative (digitsValue whole))) :=
  if_neg (Nat.not_lt.2 h)

/-- A number is read as far as it goes. -/
theorem next_number {d : Document Points} (h : NumberText Fits cs d) (hrest : Stops rest) :
    ∃ start, next (cs ++ rest) = .token (.scalar d) start rest := by
  cases h with
  | integer negative hwhole hfits =>
    have hnumber := unsignedNumber?_integer negative hwhole hrest
    rw [integerToken_of_fits hfits] at hnumber
    rw [List.append_assoc]
    exact ⟨_, next_signed negative hwhole hnumber⟩
  | real negative hwhole hfraction hex hreal =>
    have hnumber := unsignedNumber?_real negative hwhole hfraction hex hreal hrest
    simp only [List.append_assoc]
    exact ⟨_, next_signed negative hwhole hnumber⟩

/-- What is read as a number is one, unless it is an integer that is too long. -/
theorem exists_of_number? {t : Token} (h : number? cs = some (t, rest)) :
    (∃ text d, NumberText Fits text d ∧ cs = text ++ rest ∧ t = .scalar d) ∨
      ∃ n, t = .longInteger n := by
  obtain ⟨negative, unsigned, rfl, hunsigned⟩ : ∃ negative unsigned,
      cs = signChars negative ++ unsigned ∧
        unsignedNumber? negative unsigned = some (t, rest) := by
    unfold number? at h
    split at h
    · exact ⟨true, _, rfl, h⟩
    · exact ⟨false, cs, rfl, h⟩
  rcases exists_of_unsignedNumber? hunsigned with ⟨whole, hwhole, rfl, rfl⟩ |
    ⟨whole, fraction, ex, e, hwhole, hfraction, hex, hreal, rfl, rfl⟩
  · by_cases hfits : Fits whole.length
    · rw [integerToken_of_fits hfits, ← List.append_assoc]
      exact Or.inl ⟨_, _, .integer negative hwhole hfits, rfl, rfl⟩
    · exact Or.inr ⟨_, if_pos (Nat.not_le.1 hfits)⟩
  · refine Or.inl ⟨_, _, .real negative hwhole hfraction hex hreal, ?_, rfl⟩
    simp only [List.append_assoc]

/-! ## Tokens -/

/-- A text begins with a token, as the grammar has it. -/
inductive TokenText : Token → List Char → List Char → Prop
  | openMap (rest : List Char) : TokenText .openMap ('{' :: rest) rest
  | closeMap (rest : List Char) : TokenText .closeMap ('}' :: rest) rest
  | openList (rest : List Char) : TokenText .openList ('[' :: rest) rest
  | closeList (rest : List Char) : TokenText .closeList (']' :: rest) rest
  | colon (rest : List Char) : TokenText .colon (':' :: rest) rest
  | comma (rest : List Char) : TokenText .comma (',' :: rest) rest
  | text {cs rest : List Char} {body : Points} (h : Quoted cs body rest) :
      TokenText (.text body) ('"' :: cs) rest
  | scalar {cs rest : List Char} {d : Document Points} (h : Spells Fits cs (.value d) rest) :
      TokenText (.scalar d) cs rest
  | constant (name : String) (x : Binary64) (cs rest : List Char) :
      TokenText (.constant name x) cs rest
  | longInteger (digits : ℕ) (cs rest : List Char) : TokenText (.longInteger digits) cs rest

theorem tokenText_of_word? {t : Token} (h : word? cs words = some (t, rest)) :
    TokenText t cs rest := by
  simp only [words, word?] at h
  -- One case for each word, in the order in which they are tried.
  split at h
  · next hnull =>
    cases h
    rw [eq_append_of_after? hnull]
    exact .scalar (.null rest)
  split at h
  · next hyes =>
    cases h
    rw [eq_append_of_after? hyes]
    exact .scalar (.yes rest)
  split at h
  · next hno =>
    cases h
    rw [eq_append_of_after? hno]
    exact .scalar (.no rest)
  split at h
  · cases h
    exact .constant _ _ _ _
  split at h
  · cases h
    exact .constant _ _ _ _
  split at h
  · cases h
    exact .constant _ _ _ _
  · cases h

theorem tokenText_of_nextAt {start : List Char} {t : Token} (h : nextAt cs = .token t start rest) :
    TokenText t cs rest := by
  obtain ⟨c, tail, rfl, ⟨hpunctuation, rfl⟩ | ⟨rfl, body, hbody, rfl⟩ | hword | hnumber⟩ :=
    nextAt_cases h
  · unfold punctuation? at hpunctuation
    split at hpunctuation <;> cases hpunctuation <;> constructor
  · exact .text (stringBody_eq_ok_iff.1 hbody)
  · exact tokenText_of_word? hword
  · rcases exists_of_number? hnumber with ⟨text, d, hd, hcs, rfl⟩ | ⟨n, rfl⟩
    · rw [hcs]
      exact .scalar (.number hd _)
    · exact .longInteger _ _ _

/-- A text without a token is empty. -/
theorem eq_nil_of_nextAt {start : List Char} (h : nextAt cs = .finish start) : cs = [] := by
  cases cs with
  | nil => rfl
  | cons c cs =>
    rw [nextAt] at h
    split at h
    · cases h
    split at h
    · split at h <;> cases h
    split at h
    · cases h
    split at h <;> cases h

theorem gap_of_next {start : List Char} (h : next cs = .finish start) : Gap cs := by
  have hall : cs.takeWhile isGap = cs := by
    have hsplit : cs.takeWhile isGap ++ cs.dropWhile isGap = cs := List.takeWhile_append_dropWhile
    rwa [eq_nil_of_nextAt h, List.append_nil] at hsplit
  exact fun c hc => List.mem_takeWhile_imp (hall.symm ▸ hc)

/-- Whatever token stands at the front of a text, behind a gap the grammar has it. -/
theorem tokenText_of_next {start : List Char} {t : Token} (h : next cs = .token t start rest) :
    ∃ gap cs', Gap gap ∧ cs = gap ++ cs' ∧ TokenText t cs' rest :=
  ⟨cs.takeWhile isGap, cs.dropWhile isGap, fun _ hc => List.mem_takeWhile_imp hc,
    List.takeWhile_append_dropWhile.symm, tokenText_of_nextAt h⟩

end ThemeLocales.Json
