import ThemeLocales.Proofs.Json.Scalar
import ThemeLocales.Proofs.Template.Segment

/-!
# Where a default is taken from

A segment gives the default that its argument spells. The argument is looked for at every place of
the segment: it is what follows the first `t:` after which, blanks apart, the segment has only one
line left (`argument?_eq_some_iff`). So it need not be the argument of the filter, and what stands
between two quotes need not be one literal. Where neither happens, a default is the content of the
one literal behind the filter's own colon, and nowhere else (`fromOwnArgument_filterDefault_iff`).
-/

set_option autoImplicit false

namespace ThemeLocales.Template

open Text

variable {cs front value : List Char}

/-! ## Arguments -/

/-- A text has the letter and the colon behind a front, and behind them, after blanks, an argument
that is the rest of the text and has one line. -/
def HasArgument (cs front value : List Char) : Prop :=
  ∃ blanks, Blanks blanks ∧ cs = front ++ 't' :: ':' :: (blanks ++ value) ∧
    (∀ c ∈ value.head?, isBlank c = false) ∧ '\n' ∉ value

/-- The first argument of a text. -/
def FirstArgument (cs front value : List Char) : Prop :=
  HasArgument cs front value ∧
    ∀ front' value', HasArgument cs front' value' → front.length ≤ front'.length

/-- Where no blank ends a text, a call at its front has what follows the blanks for an argument. -/
theorem argumentAt?_eq_some_iff (hlast : ∀ c ∈ cs.getLast?, isBlank c = false) :
    argumentAt? cs = some value ↔ HasArgument cs [] value := by
  constructor
  · intro h
    unfold argumentAt? at h
    cases hafter : after? ['t', ':'] cs with
    | none => simp [hafter] at h
    | some rest =>
      obtain rfl : cs = 't' :: ':' :: rest := eq_append_of_after? hafter
      obtain ⟨blanks, hblanks, hrest, hhead⟩ := exists_blanks_trimStart rest
      have htight : Tight (trimStart rest) := by
        refine ⟨hhead, fun c hc => hlast c ?_⟩
        rw [hrest, ← List.cons_append, ← List.cons_append, List.getLast?_append]
        exact (Option.mem_def.1 hc) ▸ rfl
      -- an argument is trimmed, but the text ends in no blank, so its end stays as it is
      have htrim : trim (trimStart rest) = trimStart rest := by
        rw [trim, trimStart_of_head htight.head, trimEnd_of_last htight.last]
      simp only [hafter, htight.withoutFinalNewline, htrim] at h
      split at h
      · cases h
      · next hline =>
        cases h
        exact ⟨blanks, hblanks, by rw [List.nil_append, ← hrest], hhead, by simpa using hline⟩
  · rintro ⟨blanks, hblanks, rfl, hhead, hline⟩
    refine argumentAt?_append hblanks ⟨hhead, fun c hc => hlast c ?_⟩ hline
    rw [List.nil_append, ← List.cons_append, ← List.cons_append, List.getLast?_append]
    exact (Option.mem_def.1 hc) ▸ rfl

theorem hasArgument_cons_iff {c : Char} :
    HasArgument (c :: cs) (c :: front) value ↔ HasArgument cs front value := by
  simp [HasArgument]

/-- An argument at the front of a text comes before all others. -/
theorem exists_firstArgument_of_here {found : List Char} (h : HasArgument cs [] found) :
    (∃ front, FirstArgument cs front value) ↔ HasArgument cs [] value := by
  constructor
  · rintro ⟨front, hfirst, hleast⟩
    have hempty := Nat.le_zero.1 (hleast [] found h)
    obtain rfl := List.eq_nil_of_length_eq_zero hempty
    exact hfirst
  · intro hvalue
    exact ⟨[], hvalue, fun _ _ _ => Nat.zero_le _⟩

/-- Without a call at the front, the first argument is the first behind the first character. -/
theorem exists_firstArgument_cons_iff {c : Char}
    (hnone : ∀ value', ¬ HasArgument (c :: cs) [] value') :
    (∃ front, FirstArgument (c :: cs) front value) ↔ ∃ front, FirstArgument cs front value := by
  -- no argument begins at the front, so each begins behind the first character
  have hbehind : ∀ front' value', HasArgument (c :: cs) front' value' →
      ∃ front, front' = c :: front ∧ HasArgument cs front value' := by
    intro front' value' h
    cases front' with
    | nil => exact absurd h (hnone value')
    | cons d front =>
      obtain rfl : c = d := by
        obtain ⟨blanks, -, heq, -⟩ := h
        exact (List.cons.inj heq).1
      exact ⟨front, rfl, hasArgument_cons_iff.1 h⟩
  constructor
  · rintro ⟨front', hfirst, hleast⟩
    obtain ⟨front, rfl, hfirst'⟩ := hbehind front' value hfirst
    refine ⟨front, hfirst', fun front' value' h => ?_⟩
    exact Nat.le_of_succ_le_succ (hleast (c :: front') value' (hasArgument_cons_iff.2 h))
  · rintro ⟨front, hfirst, hleast⟩
    refine ⟨c :: front, hasArgument_cons_iff.2 hfirst, fun other value' h => ?_⟩
    obtain ⟨front', rfl, h'⟩ := hbehind other value' h
    exact Nat.succ_le_succ (hleast front' value' h')

/-- The argument that is taken is the first one. -/
theorem argument?_eq_some_iff (hlast : ∀ c ∈ cs.getLast?, isBlank c = false) :
    argument? cs = some value ↔ ∃ front, FirstArgument cs front value := by
  induction cs with
  | nil =>
    constructor
    · intro h
      cases h
    · rintro ⟨front, ⟨blanks, -, h, -⟩, -⟩
      simp at h
  | cons c cs ih =>
    -- by induction on where the search begins: an argument here is the first one
    have hhere : ∀ value, argumentAt? (c :: cs) = some value ↔ HasArgument (c :: cs) [] value :=
      fun value => argumentAt?_eq_some_iff hlast
    cases hat : argumentAt? (c :: cs) with
    | some found =>
      rw [argument?, hat, exists_firstArgument_of_here ((hhere found).1 hat), ← hhere, hat]
    | none =>
      have hnone : ∀ value', ¬ HasArgument (c :: cs) [] value' := by
        intro value' hvalue'
        rw [(hhere value').2 hvalue'] at hat
        cases hat
      rw [argument?, hat, exists_firstArgument_cons_iff hnone]
      apply ih
      intro d hd
      refine hlast d ?_
      rw [List.getLast?_cons, Option.mem_def.1 hd]
      rfl

/-! ## Literals -/

/-- A number as a template has it, with what it gives as a default. -/
inductive IsNumber : List Char → Document → Prop
  | intro (negative : Bool) {whole fraction : List Char} (hne : whole ≠ [])
      (hwhole : ∀ c ∈ whole, isAsciiDigit c = true)
      (hfraction : ∀ c ∈ fraction, isAsciiDigit c = true) :
      IsNumber (Json.signChars negative ++ (whole ++ Numeral.fractionChars fraction))
        (numberDefault negative whole fraction)

/-- One single literal, with what it gives as a default: a text between two equal quotes without
such a quote in it, or a number. -/
inductive IsLiteral : List Char → Document → Prop
  | quoted {quote : Char} {inner : List Char} (hquote : isQuote quote = true)
      (hinner : quote ∉ inner) : IsLiteral (quotedWith quote inner) (.string (String.ofList inner))
  | number {value : List Char} {d : Document} (h : IsNumber value d) : IsLiteral value d

/-- A text that stands between two quotes of either kind and is not empty. -/
def BetweenQuotes (value : List Char) : Prop :=
  ∃ quote inner quote', isQuote quote = true ∧ isQuote quote' = true ∧ inner ≠ [] ∧
    value = quote :: (inner ++ [quote'])

theorem quotedInside?_eq_some_iff {inner : List Char} : quotedInside? value = some inner ↔
    ∃ quote quote', isQuote quote = true ∧ isQuote quote' = true ∧
      value = quote :: (inner ++ [quote']) := by
  cases value with
  | nil => simp [quotedInside?]
  | cons c rest =>
    -- the last character of the text is the closing quote
    cases hreverse : rest.reverse with
    | nil =>
      obtain rfl := List.reverse_eq_nil_iff.1 hreverse
      simp [quotedInside?]
    | cons last body =>
      obtain rfl : rest = body.reverse ++ [last] := by
        rw [← List.reverse_reverse rest, hreverse, List.reverse_cons]
      simp only [quotedInside?, hreverse]
      constructor
      · intro h
        split at h
        · next hquotes =>
          cases h
          rw [Bool.and_eq_true] at hquotes
          exact ⟨c, last, hquotes.1, hquotes.2, rfl⟩
        · cases h
      · rintro ⟨quote, quote', hquote, hquote', heq⟩
        obtain ⟨rfl, hbody⟩ := List.cons.inj heq
        obtain ⟨rfl, hlast⟩ := List.append_inj' hbody rfl
        obtain rfl := List.singleton_inj.1 hlast
        simp [hquote, hquote']

/-- The parts of a number behind its sign. -/
def unsignedParts? (negative : Bool) (cs : List Char) : Option (Bool × List Char × List Char) :=
  let whole := cs.takeWhile isAsciiDigit
  if whole.isEmpty then none
  else match cs.drop whole.length with
    | [] => some (negative, whole, [])
    | '.' :: fraction =>
      if fraction.isEmpty || !fraction.all isAsciiDigit then none
      else some (negative, whole, fraction)
    | _ => none

theorem numberParts?_minus (cs : List Char) :
    numberParts? ('-' :: cs) = unsignedParts? true cs :=
  rfl

theorem numberParts?_of_head (h : cs.head? ≠ some '-') :
    numberParts? cs = unsignedParts? false cs := by
  unfold numberParts?
  split
  · next negative unsigned heq =>
    split at heq
    · exact absurd rfl h
    · cases heq
      rfl

theorem unsignedParts?_eq_some_iff {negative negative' : Bool} {whole fraction : List Char} :
    unsignedParts? negative cs = some (negative', whole, fraction) ↔
      negative = negative' ∧ cs = whole ++ Numeral.fractionChars fraction ∧ whole ≠ [] ∧
        (∀ c ∈ whole, isAsciiDigit c = true) ∧ ∀ c ∈ fraction, isAsciiDigit c = true := by
  constructor
  · intro h
    unfold unsignedParts? at h
    have hsplit : cs = cs.takeWhile isAsciiDigit ++
        cs.drop (cs.takeWhile isAsciiDigit).length :=
      (List.prefix_iff_eq_append.1 (List.takeWhile_prefix isAsciiDigit)).symm
    have hdigits : ∀ c ∈ cs.takeWhile isAsciiDigit, isAsciiDigit c = true :=
      fun c hc => List.mem_takeWhile_imp hc
    simp only at h
    split at h
    · cases h
    · next hne =>
      rw [List.isEmpty_iff] at hne
      split at h
      · next hrest =>
        cases h
        rw [hrest] at hsplit
        exact ⟨rfl, hsplit, hne, hdigits, by simp⟩
      · next found hrest =>
        split at h
        · cases h
        · next hfraction =>
          cases h
          rw [hrest] at hsplit
          rw [Bool.or_eq_true, not_or, List.isEmpty_iff, Bool.not_eq_true', Bool.not_eq_false,
            List.all_eq_true] at hfraction
          refine ⟨rfl, ?_, hne, hdigits, hfraction.2⟩
          obtain ⟨c, tail, rfl⟩ := List.exists_cons_of_ne_nil hfraction.1
          exact hsplit
      · cases h
  · rintro ⟨rfl, rfl, hne, hwhole, hfraction⟩
    -- a point is no digit, so the whole digits end where the fraction begins
    have htake : (whole ++ Numeral.fractionChars fraction).takeWhile isAsciiDigit = whole := by
      rw [List.takeWhile_append_of_pos hwhole]
      cases fraction <;> simp [Numeral.fractionChars, isAsciiDigit]
    have hempty : whole.isEmpty = false := List.isEmpty_eq_false_iff.2 hne
    simp only [unsignedParts?, htake, hempty, List.drop_left]
    cases fraction with
    | nil => rfl
    | cons c fraction => simpa [Numeral.fractionChars] using hfraction

/-- The parts of a number are those that it is written with. -/
theorem numberParts?_eq_some_iff {negative : Bool} {whole fraction : List Char} :
    numberParts? value = some (negative, whole, fraction) ↔
      value = Json.signChars negative ++ (whole ++ Numeral.fractionChars fraction) ∧ whole ≠ [] ∧
        (∀ c ∈ whole, isAsciiDigit c = true) ∧ ∀ c ∈ fraction, isAsciiDigit c = true := by
  -- digits do not begin with a minus sign, so the sign tells the two cases apart
  have hhead : ∀ rest : List Char, whole ≠ [] → (∀ c ∈ whole, isAsciiDigit c = true) →
      (whole ++ rest).head? ≠ some '-' := by
    intro rest hne hwhole heq
    rw [List.head?_append_of_ne_nil _ hne] at heq
    exact absurd (hwhole '-' (List.mem_of_head? heq)) (by decide)
  by_cases hminus : value.head? = some '-'
  · obtain ⟨rest, rfl⟩ : ∃ rest, value = '-' :: rest := by
      cases value with
      | nil => cases hminus
      | cons c rest =>
        cases hminus
        exact ⟨rest, rfl⟩
    rw [numberParts?_minus, unsignedParts?_eq_some_iff]
    cases negative with
    | true => simp [Json.signChars]
    | false =>
      refine ⟨fun h => absurd h.1 (by decide), ?_⟩
      rintro ⟨heq, hne, hwhole, -⟩
      exact absurd (congrArg List.head? heq).symm (hhead _ hne hwhole)
  · rw [numberParts?_of_head hminus, unsignedParts?_eq_some_iff]
    cases negative with
    | true =>
      refine ⟨fun h => absurd h.1 (by decide), ?_⟩
      rintro ⟨rfl, -⟩
      exact absurd rfl hminus
    | false => simp [Json.signChars]

/-! ## Defaults of literals -/

/-- There are no blanks and no quotes in a number. -/
theorem IsNumber.plain {d : Document} (h : IsNumber value d) :
    ∀ c ∈ value, isBlank c = false ∧ isQuote c = false := by
  have hdigit : ∀ c, isAsciiDigit c = true → isBlank c = false ∧ isQuote c = false := by
    intro c hc
    rcases Json.isAsciiDigit_cases hc with
      rfl | rfl | rfl | rfl | rfl | rfl | rfl | rfl | rfl | rfl <;> decide
  obtain @⟨negative, whole, fraction, -, hwhole, hfraction⟩ := h
  intro c hc
  -- a character is the sign, a digit or the point
  rcases List.mem_append.1 hc with hsign | hdigits
  · cases negative with
    | true =>
      rw [List.mem_singleton.1 hsign]
      decide
    | false => cases hsign
  · rcases List.mem_append.1 hdigits with hc | hc
    · exact hdigit c (hwhole c hc)
    · cases fraction with
      | nil => cases hc
      | cons d fraction =>
        rcases List.mem_cons.1 hc with rfl | hc
        · decide
        · exact hdigit c (hfraction c hc)

/-- What begins and ends with a quote is no number. -/
theorem IsNumber.quotedInside? {d : Document} (h : IsNumber value d) :
    Template.quotedInside? value = none := by
  rw [Option.eq_none_iff_forall_ne_some]
  intro inner hinner
  obtain ⟨quote, quote', hquote, -, rfl⟩ := quotedInside?_eq_some_iff.1 hinner
  have hplain := (h.plain quote List.mem_cons_self).2
  rw [hquote] at hplain
  cases hplain

theorem IsNumber.newline_notMem {d : Document} (h : IsNumber value d) : '\n' ∉ value := by
  intro hmem
  have hblank := (h.plain _ hmem).1
  revert hblank
  decide

/-- A number ends in a digit. -/
theorem IsNumber.exists_getLast? {d : Document} (h : IsNumber value d) :
    ∃ c, value.getLast? = some c ∧ isAsciiDigit c = true := by
  obtain @⟨negative, whole, fraction, hne, hwhole, hfraction⟩ := h
  have hlast : ∀ (front digits : List Char), digits ≠ [] →
      (∀ c ∈ digits, isAsciiDigit c = true) →
        ∃ c, (front ++ digits).getLast? = some c ∧ isAsciiDigit c = true := by
    intro front digits hdigits hall
    rw [List.getLast?_append_of_ne_nil _ hdigits, List.getLast?_eq_some_getLast hdigits]
    exact ⟨_, rfl, hall _ (List.getLast_mem hdigits)⟩
  cases fraction with
  | nil =>
    rw [Numeral.fractionChars, List.append_nil]
    exact hlast _ whole hne hwhole
  | cons d fraction =>
    rw [Numeral.fractionChars, ← List.append_assoc, ← List.singleton_append, ← List.append_assoc]
    · exact hlast _ (d :: fraction) (List.cons_ne_nil d fraction) hfraction
    · exact List.cons_ne_nil d fraction

/-- A literal gives what it spells. -/
theorem literalDefault_of_literal {d : Document} (h : IsLiteral value d) :
    literalDefault value = d := by
  cases h with
  | quoted hquote => simp only [literalDefault, quotedInside?_quotedWith hquote]
  | number h =>
    have hnone := h.quotedInside?
    obtain @⟨negative, whole, fraction, hne, hwhole, hfraction⟩ := h
    have hparts : numberParts? (Json.signChars negative ++ (whole ++
        Numeral.fractionChars fraction)) = some (negative, whole, fraction) :=
      numberParts?_eq_some_iff.2 ⟨rfl, hne, hwhole, hfraction⟩
    simp only [literalDefault, hnone, hparts]

/-- A literal does not begin with a blank. -/
theorem IsLiteral.head {d : Document} (h : IsLiteral value d) :
    ∀ c ∈ value.head?, isBlank c = false := by
  cases h with
  | quoted hquote => exact (tight_quotedWith hquote _).head
  | number h => exact fun c hc => (h.plain c (List.mem_of_head? hc)).1

/-- A text between two quotes is one literal only if there is no third one. -/
theorem IsLiteral.quote_notMem {quote : Char} {inner : List Char} {d : Document}
    (hquote : isQuote quote = true) (h : IsLiteral (quotedWith quote inner) d) : quote ∉ inner := by
  generalize heq : quotedWith quote inner = value at h
  cases h with
  | quoted _ hinner =>
    obtain ⟨rfl, hrest⟩ := List.cons.inj heq
    rwa [(List.append_inj' hrest rfl).1]
  | number h =>
    have hplain := (h.plain quote (heq ▸ List.mem_cons_self)).2
    rw [hquote] at hplain
    cases hplain

theorem numberDefault_ne_string (negative : Bool) (whole fraction : List Char) (s : String) :
    numberDefault negative whole fraction ≠ .string s := by
  unfold numberDefault
  simp only
  split <;> simp

/-- Only what stands between quotes, and a number, give a default that is not empty. -/
theorem literalDefault_eq_empty_iff : literalDefault value = .string "" ↔
    ¬ (BetweenQuotes value ∨ ∃ d, IsNumber value d) := by
  constructor
  · rintro h (⟨quote, inner, quote', hquote, hquote', hne, heq⟩ | ⟨d, hd⟩)
    · have hinner := quotedInside?_eq_some_iff.2 ⟨quote, quote', hquote, hquote', heq⟩
      simp only [literalDefault, hinner, Document.string.injEq] at h
      exact hne (String.ofList_eq_empty_iff.1 h)
    · rw [literalDefault_of_literal (.number hd)] at h
      obtain @⟨negative, whole, fraction⟩ := hd
      exact numberDefault_ne_string negative whole fraction "" h
  · intro h
    rw [not_or, not_exists] at h
    unfold literalDefault
    split
    · next inner hinner =>
      obtain ⟨quote, quote', hquote, hquote', heq⟩ := quotedInside?_eq_some_iff.1 hinner
      -- quotes with nothing between them are no literal, but have the same default
      have hempty : inner = [] := by
        by_contra hne
        exact h.1 ⟨quote, inner, quote', hquote, hquote', hne, heq⟩
      rw [hempty]
    · split
      · next negative whole fraction hparts =>
        obtain ⟨rfl, hne, hwhole, hfraction⟩ := numberParts?_eq_some_iff.1 hparts
        exact absurd ⟨negative, hne, hwhole, hfraction⟩ (h.2 _)
      · rfl

/-- An argument that gives a text for a default has all characters of it. -/
theorem subset_of_literalDefault_eq {text : String} (h : literalDefault value = .string text) :
    text.toList ⊆ value := by
  unfold literalDefault at h
  split at h
  · next inner hinner =>
    obtain ⟨quote, quote', -, -, rfl⟩ := quotedInside?_eq_some_iff.1 hinner
    obtain rfl := Document.string.inj h
    rw [String.toList_ofList]
    exact fun c hc => List.mem_cons_of_mem _ (List.mem_append_left _ hc)
  · split at h
    · exact absurd h (numberDefault_ne_string _ _ _ _)
    · obtain rfl := Document.string.inj h
      exact List.nil_subset value

/-! ## Whose argument it is -/

/-- A default is what the one literal spells that a segment has for an argument, or it is empty. -/
def FromOwnArgument (cs : List Char) (d : Document) : Prop :=
  d = .string "" ∨
    ∃ blanks value, Blanks blanks ∧ cs = 't' :: ':' :: (blanks ++ value) ∧ IsLiteral value d

/-- The first argument of a text is not that of a call at its front, or is no literal, and gives a
default that is not empty all the same. -/
def Misread (cs : List Char) : Prop :=
  ∃ front value, FirstArgument cs front value ∧
    (front ≠ [] ∨ ∀ d, ¬ IsLiteral value d) ∧ (BetweenQuotes value ∨ ∃ d, IsNumber value d)

/-- What stands behind the colon at the front of a text, blanks apart, is its first argument, if it
stands on one line. -/
theorem firstArgument_front {blanks : List Char} (hblanks : Blanks blanks)
    (hcs : cs = 't' :: ':' :: (blanks ++ value)) (hhead : ∀ c ∈ value.head?, isBlank c = false)
    (hline : '\n' ∉ value) : FirstArgument cs [] value :=
  ⟨⟨blanks, hblanks, hcs, hhead, hline⟩, fun _ _ _ => Nat.zero_le _⟩

/-- A text has one first argument. -/
theorem FirstArgument.unique {front' value' : List Char}
    (hlast : ∀ c ∈ cs.getLast?, isBlank c = false) (h : FirstArgument cs front value)
    (h' : FirstArgument cs front' value') : front = front' ∧ value = value' := by
  have hvalue : value = value' := by
    have hsome := (argument?_eq_some_iff hlast).2 ⟨front, h⟩
    rw [(argument?_eq_some_iff hlast).2 ⟨front', h'⟩] at hsome
    exact (Option.some.inj hsome).symm
  have hlength : front.length = front'.length :=
    Nat.le_antisymm (h.2 front' value' h'.1) (h'.2 front value h.1)
  obtain ⟨blanks, -, hcs, -⟩ := h.1
  obtain ⟨blanks', -, hcs', -⟩ := h'.1
  exact ⟨(List.append_inj (hcs.symm.trans hcs') hlength).1, hvalue⟩

/-- A literal on one line that is the argument gives what it spells. -/
theorem filterDefault_of_literal {segment : String} {blanks : List Char} {d : Document}
    (h : Tight segment.toList) (hblanks : Blanks blanks)
    (hcs : segment.toList = 't' :: ':' :: (blanks ++ value)) (hliteral : IsLiteral value d)
    (hline : '\n' ∉ value) : filterDefault segment = d := by
  have hfirst := firstArgument_front hblanks hcs hliteral.head hline
  rw [filterDefault, (argument?_eq_some_iff h.last).2 ⟨[], hfirst⟩]
  exact literalDefault_of_literal hliteral

/-- Only a segment that ends in a quote or in a digit has a default. -/
theorem filterDefault_of_last {segment : String} {c : Char} (h : Tight segment.toList)
    (hlast : segment.toList.getLast? = some c) (hquote : isQuote c = false)
    (hdigit : isAsciiDigit c = false) : filterDefault segment = .string "" := by
  rw [filterDefault]
  split
  · next value hargument =>
    obtain ⟨front, ⟨blanks, -, hcs, -⟩, -⟩ := (argument?_eq_some_iff h.last).1 hargument
    have hend : ∀ d ∈ value.getLast?, d = c := by
      intro d hd
      rw [hcs, ← List.cons_append, ← List.cons_append, ← List.append_assoc, List.getLast?_append,
        Option.mem_def.1 hd, Option.some_or, Option.some.injEq] at hlast
      exact hlast
    refine literalDefault_eq_empty_iff.2 ?_
    rintro (⟨quote, inner, quote', -, hquote', -, rfl⟩ | ⟨d, hnumber⟩)
    · rw [hend quote' (by rw [← List.cons_append, List.getLast?_concat]; rfl), hquote] at hquote'
      cases hquote'
    · obtain ⟨last, hvalue, hdigit'⟩ := hnumber.exists_getLast?
      rw [hend last hvalue, hdigit] at hdigit'
      cases hdigit'
  · rfl

/-- A default comes from the filter's own argument just when the segment is not misread, and a
literal on one line that is the argument gives what it spells. -/
theorem fromOwnArgument_filterDefault_iff {segment : String} (h : Tight segment.toList) :
    (FromOwnArgument segment.toList (filterDefault segment) ↔ ¬ Misread segment.toList) ∧
      ∀ blanks value d, Blanks blanks → segment.toList = 't' :: ':' :: (blanks ++ value) →
        IsLiteral value d → '\n' ∉ value → filterDefault segment = d := by
  refine ⟨⟨?_, fun hread => ?_⟩, fun blanks value d hblanks hcs hliteral hline => ?_⟩
  · -- A misread segment gives something, and only its first argument could be what it gives.
    rintro hown ⟨front, value, hfirst, hwrong, hgives⟩
    have hargument := (argument?_eq_some_iff h.last).2 ⟨front, hfirst⟩
    simp only [filterDefault, hargument] at hown
    rcases hown with hempty | ⟨blanks, value', hblanks, hcs, hliteral⟩
    · exact literalDefault_eq_empty_iff.1 hempty hgives
    · by_cases hline : '\n' ∈ value'
      · -- a literal with several lines is never read, and an argument has only one line
        generalize hd : literalDefault value = d at hliteral
        cases hliteral with
        | @quoted quote inner hquote =>
          have hne : '\n' ≠ quote := (ne_of_isQuote hquote (by decide)).symm
          have hinner : '\n' ∈ inner := by simpa [quotedWith, hne] using hline
          have hvalue := subset_of_literalDefault_eq hd
          rw [String.toList_ofList] at hvalue
          obtain ⟨-, -, -, -, honeLine⟩ := hfirst.1
          exact honeLine (hvalue hinner)
        | number hnumber => exact hnumber.newline_notMem hline
      · obtain ⟨rfl, rfl⟩ :=
          hfirst.unique h.last (firstArgument_front hblanks hcs hliteral.head hline)
        rcases hwrong with hfront | hnone
        · exact hfront rfl
        · exact hnone _ hliteral
  · -- A segment that is not misread gives its literal, or nothing.
    rw [filterDefault]
    split
    · next value hargument =>
      obtain ⟨front, hfirst⟩ := (argument?_eq_some_iff h.last).1 hargument
      by_cases hgives : BetweenQuotes value ∨ ∃ d, IsNumber value d
      · have hright : front = [] ∧ ∃ d, IsLiteral value d := by
          by_contra hnot
          rw [not_and_or, not_exists] at hnot
          exact hread ⟨front, value, hfirst, hnot, hgives⟩
        obtain ⟨rfl, d, hliteral⟩ := hright
        obtain ⟨blanks, hblanks, hcs, -⟩ := hfirst.1
        rw [literalDefault_of_literal hliteral]
        exact Or.inr ⟨blanks, value, hblanks, hcs, hliteral⟩
      · exact Or.inl (literalDefault_eq_empty_iff.2 hgives)
    · exact Or.inl rfl
  · exact filterDefault_of_literal h hblanks hcs hliteral hline

theorem fromOwnArgument_filterDefault_iff_greeting :
    Tight "t: 'Hi'".toList ∧ filterDefault "t: 'Hi'" = .string "Hi" :=
  have htight : Tight "t: 'Hi'".toList := .of_ends rfl rfl rfl rfl
  have hliteral : IsLiteral (quotedWith '\'' ['H', 'i']) (.string "Hi") := .quoted rfl (by decide)
  ⟨htight, (fromOwnArgument_filterDefault_iff htight).2 [' '] _ _ (by decide) rfl hliteral
    (by decide)⟩

/-- The name of another argument may end in the filter's letter, and two literals may look like
one. -/
theorem not_fromOwnArgument_named :
    (isFilterCall "t count: 'x'".toList = true ∧ Tight "t count: 'x'".toList ∧
      filterDefault "t count: 'x'" = .string "x" ∧
        ¬ FromOwnArgument "t count: 'x'".toList (filterDefault "t count: 'x'")) ∧
    isFilterCall "t: 'Hi', name: 'Bob'".toList = true ∧ Tight "t: 'Hi', name: 'Bob'".toList ∧
      filterDefault "t: 'Hi', name: 'Bob'" = .string "Hi', name: 'Bob" ∧
        ¬ FromOwnArgument "t: 'Hi', name: 'Bob'".toList (filterDefault "t: 'Hi', name: 'Bob'") := by
  have hcount : filterDefault "t count: 'x'" = .string "x" := rfl
  have hname : filterDefault "t: 'Hi', name: 'Bob'" = .string "Hi', name: 'Bob" := rfl
  refine ⟨⟨rfl, .of_ends rfl rfl rfl rfl, hcount, ?_⟩, rfl, .of_ends rfl rfl rfl rfl, hname, ?_⟩
  · rw [hcount]
    rintro (h | ⟨blanks, value, -, h, -⟩)
    · simp at h
    · simp at h
  · rw [hname]
    rintro (h | ⟨blanks, value, hblanks, h, hliteral⟩)
    · simp at h
    · have hvalue : value = quotedWith '\'' "Hi', name: 'Bob".toList := by
        rw [← trimStart_of_head hliteral.head, ← trimStart_append hblanks,
          ← (List.cons.inj (List.cons.inj h).2).2]
        rfl
      exact (hvalue ▸ hliteral).quote_notMem rfl (by decide)

end ThemeLocales.Template
