import ThemeLocales.Proofs.Number.Range
import ThemeLocales.Proofs.Provider.Attempts
import ThemeLocales.Proofs.Provider.Cache

/-!
# Delays that services ask for

A delay before another attempt is the one that a header asks for, or the base delay, doubled, with
the jitter on top. What is doubled and added up can be waited for as long as it does not leave the
range of doubles (`isDuration_backoff_iff`), and a whole base delay never does. A header is taken at
its word: the delay is the number that it spells, and a number with a minus, an infinity, not a
number and a decimal beyond the range of doubles are read without an objection
(`isDuration_headerSeconds_iff`). Both cases meet in `isDuration_slept_iff`, which is about every
header, attempt and base delay.
-/

set_option autoImplicit false

namespace ThemeLocales

open Binary64

namespace Number

/-! ## Decimals in free text -/

/-- The decimal that a text spells: whether it has a minus, its digits and its exponent. -/
def spelled? (s : String) : Option (Bool × ℕ × ℤ) :=
  (withoutUnderscores false (plainText s)).bind fun cs =>
    (unsignedDecimal? (splitSign cs).2).map fun (digits, e) => ((splitSign cs).1, digits, e)

/-- A decimal starts with a digit or the point. -/
theorem exists_head_of_unsignedDecimal? {cs : List Char} {u : ℕ × ℤ}
    (h : unsignedDecimal? cs = some u) :
    ∃ c rest, cs = c :: rest ∧ (Text.isAsciiDigit c = true ∨ c = '.') := by
  cases cs with
  | nil => cases h
  | cons c rest =>
    refine ⟨c, rest, rfl, ?_⟩
    by_contra hnot
    obtain ⟨hdigit, hpoint⟩ := not_or.1 hnot
    have hspan : (c :: rest).span Text.isAsciiDigit = ([], c :: rest) := by
      simp [List.span_eq_takeWhile_dropWhile, hdigit]
    rw [unsignedDecimal?, hspan] at h
    simp only at h
    split at h
    · next heq => exact hpoint (List.cons.inj heq).1
    · cases h

/-- So it is none of the words that are numbers. -/
theorem word_ne_of_unsignedDecimal? {cs : List Char} {u : ℕ × ℤ}
    (h : unsignedDecimal? cs = some u) {c : Char} (hc : Text.isAsciiDigit c = false ∧ c ≠ '.')
    (word : List Char) :
    String.ofList (cs.map asciiLower) ≠ String.ofList (c :: word) := by
  obtain ⟨first, rest, rfl, hfirst⟩ := exists_head_of_unsignedDecimal? h
  -- a number begins with a digit or a point, and lower case changes neither
  have hsame : asciiLower first = first := by
    have hsmall : ¬ ('A' ≤ first ∧ first ≤ 'Z') := by
      rcases hfirst with hdigit | rfl
      · simp only [Text.isAsciiDigit, Bool.and_eq_true, decide_eq_true_eq] at hdigit
        rintro ⟨hA, -⟩
        have hle : 'A' ≤ '9' := Char.le_trans hA hdigit.2
        exact absurd hle (by decide)
      · decide
    simp [asciiLower, hsmall]
  intro heq
  have hlist := String.ofList_injective heq
  rw [List.map_cons, hsame] at hlist
  obtain ⟨rfl, -⟩ := List.cons.inj hlist
  rcases hfirst with hdigit | hpoint
  · rw [hc.1] at hdigit
    cases hdigit
  · exact hc.2 hpoint

/-- What is read from a text is the double of the decimal that it spells, or else not finite. -/
theorem readDouble?_eq_some {s : String} {x : Binary64} (h : readDouble? s = some x) :
    (∃ negative digits e, spelled? s = some (negative, digits, e) ∧
      x = ofDecimal negative digits e) ∨
    spelled? s = none ∧ (x = nan ∨ ∃ negative, x = infinity negative) := by
  rw [readDouble?] at h
  rw [spelled?]
  cases hcs : withoutUnderscores false (plainText s) with
  | none =>
    rw [hcs] at h
    cases h
  | some cs =>
    rw [hcs] at h
    simp only [Option.bind_eq_bind, Option.bind_some] at h ⊢
    cases hu : unsignedDecimal? (splitSign cs).2 with
    | none =>
      refine Or.inr ⟨rfl, ?_⟩
      split_ifs at h
      · exact Or.inr ⟨_, (Option.some.inj h).symm⟩
      · exact Or.inl (Option.some.inj h).symm
      · rw [hu] at h
        cases h
    | some u =>
      -- a text that is a number is none of the words
      have hi := word_ne_of_unsignedDecimal? hu (c := 'i') (by decide)
      have hn := word_ne_of_unsignedDecimal? hu (c := 'n') (by decide)
      rw [if_neg, if_neg (hn ['a', 'n']), hu] at h
      · exact Or.inl ⟨_, u.1, u.2, rfl, (Option.some.inj h).symm⟩
      · rw [Bool.or_eq_true, decide_eq_true_eq, decide_eq_true_eq]
        exact not_or.2 ⟨hi ['n', 'f'], hi ['n', 'f', 'i', 'n', 'i', 't', 'y']⟩

theorem canonical_of_readDouble? {s : String} {x : Binary64} (h : readDouble? s = some x) :
    x.Canonical := by
  rcases readDouble?_eq_some h with ⟨negative, digits, e, -, rfl⟩ | ⟨-, rfl | ⟨negative, rfl⟩⟩
  · exact canonical_ofDecimal negative digits e
  · trivial
  · trivial

end Number

namespace Provider.Retry

open Operation Project Number

/-! ## Headers -/

/-- A quotient by a thousand can be waited for when the dividend is finite and has no minus, or is
so small that it becomes a zero. -/
theorem isDuration_div_thousand_iff {x y : Binary64} (hc : x.Canonical)
    (h : x.div? (.ofRatio false 1000 1) = some y) :
    y.IsDuration ↔ x.toRat?.isSome = true ∧ (x.isNegative = true → y.isZero = true) := by
  have hthousand : ofRatio false 1000 1 = finite false (1000 * 2 ^ 43) (-43) := by decide +kernel
  rw [hthousand] at h
  cases x with
  | nan =>
    cases h
    exact iff_of_false not_isDuration_nan (by simp [toRat?])
  | infinity negative =>
    cases h
    exact iff_of_false (not_isDuration_infinity _) (by simp [toRat?])
  | finite negative m e =>
    have hquotient : y = ofRatio negative (m * Nat.pow 2 (-(-43 - e)).toNat)
        (1000 * 2 ^ 43 * Nat.pow 2 (-43 - e).toNat) := by
      rw [neg_sub]
      have hsign : (negative != false) = negative := Bool.bne_false negative
      exact (Option.some.inj h).symm.trans (by rw [hsign])
    -- Whatever is divided by a thousand stays within the range of doubles.
    have hscale : (0 : ℚ) < 2 ^ e := zpow_pos (by norm_num) e
    have hbelow : ((m * Nat.pow 2 (-(-43 - e)).toNat : ℕ) : ℚ) /
        ((1000 * 2 ^ 43 * Nat.pow 2 (-43 - e).toNat : ℕ) : ℚ) < overflowBound := by
      have hvalue := add_one_lt_overflowBound hc
      have hsmall : (m : ℚ) / ((1000 * 2 ^ 43 : ℕ) : ℚ) * 2 ^ (-(-43 - e)) ≤ m * 2 ^ e := by
        rw [neg_sub, sub_neg_eq_add, zpow_add₀ (by norm_num)]
        have hm : (0 : ℚ) ≤ m * 2 ^ e := mul_nonneg (Nat.cast_nonneg m) hscale.le
        norm_num
        linarith
      rw [scaled_ratio]
      linarith
    rw [hquotient, isDuration_ofRatio_iff (scaled_pos (by decide) _), and_iff_right hbelow]
    simp [toRat?, isNegative]

/-- The text of the number in a header. -/
def numberText (text : String) : String :=
  if Text.endsIn "ms" text then String.ofList (text.toList.take (text.toList.length - 2)) else text

/-- What is read from a header can be waited for just when the header spells a decimal below the
range of doubles, with a minus only where what is read is zero. -/
theorem isDuration_headerSeconds_iff {text : String} {x : Binary64}
    (h : headerSeconds? text = some x) : x.IsDuration ↔
      ∃ negative digits e, spelled? (numberText text) = some (negative, digits, e) ∧
        (digits : ℚ) * 10 ^ e < overflowBound ∧ (negative = true → x.isZero = true) := by
  -- whatever the unit, it depends on the number that is read whether the delay is finite
  obtain ⟨y, hread, hdelay⟩ : ∃ y, readDouble? (numberText text) = some y ∧
      (x.IsDuration ↔ y.toRat?.isSome = true ∧ (y.isNegative = true → x.isZero = true)) := by
    rw [headerSeconds?] at h
    rw [numberText]
    split at h
    · next hmilliseconds =>
      obtain ⟨y, hread, hdivided⟩ := Option.bind_eq_some_iff.1 h
      rw [if_pos hmilliseconds]
      exact ⟨y, hread, isDuration_div_thousand_iff (canonical_of_readDouble? hread) hdivided⟩
    · next hseconds =>
      rw [if_neg hseconds]
      exact ⟨x, h, isDuration_iff x⟩
  rw [hdelay]
  rcases readDouble?_eq_some hread with ⟨negative, digits, e, hspelled, rfl⟩ | ⟨hnone, hword⟩
  · obtain ⟨hsign, hsome⟩ := isSome_toRat?_ofDecimal_iff negative digits e
    rw [hsome, hsign]
    constructor
    · rintro ⟨hbelow, hpositive⟩
      exact ⟨negative, digits, e, hspelled, hbelow, hpositive⟩
    · rintro ⟨_, _, _, hagain, hbelow, hpositive⟩
      rw [hspelled] at hagain
      cases hagain
      exact ⟨hbelow, hpositive⟩
  · have hinfinite : y.toRat?.isSome = false := by
      rcases hword with rfl | ⟨negative, rfl⟩ <;> rfl
    rw [hinfinite]
    refine iff_of_false (fun hfinite => absurd hfinite.1 (by decide)) ?_
    rintro ⟨_, _, _, hspelled, -⟩
    rw [hnone] at hspelled
    cases hspelled

/-! ## Doubled delays -/

variable {x j : Binary64} {base : Document} {attempt : ℤ}

/-- A base delay: a number that is not negative. -/
def IsBase : Document → Prop
  | .int n => 0 ≤ n
  | .bool _ => True
  | .real x => x = .infinity false ∨ x.IsDuration
  | _ => False

/-- A jitter: a number between zero and one. -/
def IsJitter (j : Binary64) : Prop :=
  ∃ q, j.toRat? = some q ∧ 0 ≤ q ∧ q ≤ 1

/-- A sum with a jitter can be waited for when the other summand, which is not negative, is
finite. -/
theorem isDuration_add_iff (hc : x.Canonical) (hx : x.isNegative = true → x.isZero = true)
    (hj : IsJitter j) : (x.add j).IsDuration ↔ x.toRat?.isSome = true := by
  obtain ⟨q, hq, hlow, hhigh⟩ := hj
  cases j with
  | nan => cases hq
  | infinity negative => cases hq
  | finite t n f =>
    cases x with
    | nan => exact iff_of_false not_isDuration_nan (by simp [toRat?])
    | infinity s => exact iff_of_false (not_isDuration_infinity s) (by simp [toRat?])
    | finite s m e =>
      obtain ⟨v, hv, hpos⟩ : (finite s m e).IsDuration :=
        (isDuration_iff _).2 ⟨by rw [toRat?_finite]; rfl, hx⟩
      refine iff_of_true ?_ (by rw [hv]; rfl)
      have hsum : (finite s m e).add (finite t n f) =
          if m = 0 && n = 0 then finite (s && t) 0 leastExponent else ofRat (v + q) := by
        rw [add, hv, hq]
        rfl
      -- The bound leaves room for one more above every finite double.
      have hvalue : v ≤ m * 2 ^ e := by
        have hscale : (0 : ℚ) < 2 ^ e := zpow_pos (by norm_num) e
        have hmagnitude : (0 : ℚ) ≤ m * 2 ^ e := mul_nonneg (Nat.cast_nonneg m) hscale.le
        rw [toRat?_finite, Option.some.injEq] at hv
        rw [← hv]
        split <;> linarith
      rw [hsum]
      split
      · exact (isDuration_iff _).2 ⟨by rw [toRat?_finite]; rfl, fun _ => rfl⟩
      · have hbound := add_one_lt_overflowBound hc
        exact isDuration_ofRat (by linarith) (by linarith)

/-- An integer as a double is rounded, and within the range of doubles. -/
theorem doubleOf_eq_ok {n : ℤ} (h : doubleOf n = .ok x) :
    x = ofRatio (n < 0) n.natAbs 1 ∧ x.toRat?.isSome = true := by
  rw [doubleOf, ofInt?] at h
  cases hratio : ofRatio (n < 0) n.natAbs 1 with
  | finite negative m e =>
    rw [hratio] at h
    cases h
    exact ⟨rfl, by rw [toRat?_finite]; rfl⟩
  | _ =>
    rw [hratio] at h
    cases h

/-- What doubling a base delay gives: a double that is not negative, and finite just when a base
delay that is a double has not left the range of doubles. -/
structure Doubled (base : Document) (attempt : ℤ) (x : Binary64) : Prop where
  canonical : x.Canonical
  positive : x.isNegative = true → x.isZero = true
  isSome_iff : x.toRat?.isSome = true ↔ ∀ y, base = .real y →
    ∃ q, y.toRat? = some q ∧ q * 2 ^ (attempt - 1) < overflowBound

theorem Doubled.of_doubleOf {n : ℤ} (hn : 0 ≤ n) (hbase : ∀ y, base ≠ .real y)
    (h : doubleOf n = .ok x) : Doubled base attempt x := by
  obtain ⟨hx, hsome⟩ := doubleOf_eq_ok h
  have hplus : decide (n < 0) = false := by simpa using hn
  rw [hplus] at hx
  have hsign := (isSome_toRat?_ofRatio_iff false n.natAbs one_pos).1
  refine ⟨hx ▸ canonical_ofRatio one_pos, fun hnegative => ?_,
    iff_of_true hsome fun y hy => absurd hy (hbase y)⟩
  rw [hx, hsign] at hnegative
  cases hnegative

/-- A double times a power of two. -/
theorem mul_twoTo (s : Bool) (m : ℕ) (e : ℤ) (k : ℕ) :
    (finite s m e).mul (twoTo k) = ofRatio s (m * 2 ^ 52 * Nat.pow 2 (e + (k - 52)).toNat)
      (Nat.pow 2 (-(e + (k - 52))).toNat) := by
  have hsign : (s != false) = s := Bool.bne_false s
  rw [twoTo, mul, hsign]

theorem mul_twoTo_ratio (m : ℕ) (e : ℤ) (k : ℕ) :
    ((m * 2 ^ 52 * Nat.pow 2 (e + (k - 52)).toNat : ℕ) : ℚ) /
      ((Nat.pow 2 (-(e + (k - 52))).toNat : ℕ) : ℚ) = m * 2 ^ e * 2 ^ k := by
  have hpow := zpow_eq_div (b := 2) (by decide) (e + (k - 52))
  have hsplit := two_pow_split k
  push_cast at hpow hsplit ⊢
  rw [mul_div_assoc, ← hpow, zpow_add₀ (by norm_num), ← hsplit]
  ring

theorem doubled_mul {y : Binary64} (hbase : IsBase (.real y)) {k : ℕ}
    (hattempt : attempt - 1 = k) : Doubled (.real y) attempt (y.mul (twoTo k)) := by
  rcases hbase with rfl | hduration
  · have hinfinite : (infinity false).mul (twoTo k) = infinity false := rfl
    rw [hinfinite]
    refine ⟨trivial, fun hnegative => absurd hnegative (by decide), iff_of_false (by decide) ?_⟩
    intro h
    obtain ⟨q, hq, -⟩ := h _ rfl
    cases hq
  · cases y with
    | nan => exact absurd hduration not_isDuration_nan
    | infinity s => exact absurd hduration (not_isDuration_infinity s)
    | finite s m e =>
      have hden : 0 < Nat.pow 2 (-(e + ((k : ℤ) - 52))).toNat := Nat.pow_pos (by decide)
      obtain ⟨hsign, hsome⟩ := isSome_toRat?_ofRatio_iff s
        (m * 2 ^ 52 * Nat.pow 2 (e + ((k : ℤ) - 52)).toNat) hden
      -- A base delay has a minus only as a zero, and its product is a zero then.
      have hzero : s = true → m = 0 := fun hs => by
        simpa [isZero] using ((isDuration_iff _).1 hduration).2 hs
      rw [mul_twoTo]
      refine ⟨canonical_ofRatio hden, fun hnegative => ?_, ?_⟩
      · rw [hsign] at hnegative
        rw [hzero hnegative]
        simp [ofRatio, isZero]
      · have hvalue : (finite s m e).toRat? = some ((m : ℚ) * 2 ^ e) := by
          rw [toRat?_finite]
          split
          · next hs => simp [hzero hs]
          · rfl
        rw [hsome, mul_twoTo_ratio, hattempt, zpow_natCast]
        constructor
        · rintro hbelow _ ⟨rfl⟩
          exact ⟨_, hvalue, hbelow⟩
        · intro hbelow
          obtain ⟨q, hq, hq'⟩ := hbelow _ rfl
          rw [hvalue] at hq
          obtain rfl := Option.some.inj hq
          exact hq'

theorem doubled_scaled (hbase : IsBase base) (hattempt : 1 ≤ attempt)
    (h : scaled base attempt = .ok x) : Doubled base attempt x := by
  obtain ⟨k, hk⟩ : ∃ k : ℕ, attempt - 1 = k := ⟨(attempt - 1).toNat, by omega⟩
  cases base with
  | int n =>
    rw [scaled, if_pos hattempt] at h
    exact .of_doubleOf (mul_nonneg hbase (Int.natCast_nonneg _)) (by simp) h
  | bool b =>
    rw [scaled, if_pos hattempt] at h
    refine .of_doubleOf (mul_nonneg ?_ (Int.natCast_nonneg _)) (by simp) h
    split <;> decide
  | real y =>
    have hpower : powerOfTwo (attempt - 1) = doubleOf ((2 ^ k : ℕ) : ℤ) := by
      rw [powerOfTwo, if_pos (by omega), hk]
      rfl
    rw [scaled, hpower] at h
    -- A power of two that is no double is a failure, and there is no delay.
    rcases Nat.lt_or_ge 1023 k with hlarge | hsmall
    · rw [doubleOf_pow_of_lt hlarge] at h
      cases h
    · rw [doubleOf_pow hsmall] at h
      cases h
      exact doubled_mul hbase hk
  | _ => cases hbase

theorem exists_scaled_of_backoff {delay : Document} (h : backoff j base attempt = .ok delay) :
    ∃ x, scaled base attempt = .ok x ∧ delay = .real (x.add j) := by
  rw [backoff] at h
  cases hscaled : scaled base attempt with
  | error e =>
    rw [hscaled] at h
    cases h
  | ok x =>
    rw [hscaled] at h
    cases h
    exact ⟨x, rfl, rfl⟩

/-- The delay before another attempt is finite and not negative just when doubling the base delay
stays within the range of doubles. -/
theorem isDuration_backoff_iff (hbase : IsBase base) (hattempt : 1 ≤ attempt) (hj : IsJitter j)
    (h : backoff j base attempt = .ok (.real x)) : x.IsDuration ↔ ∀ y, base = .real y →
      ∃ q, y.toRat? = some q ∧ q * 2 ^ (attempt - 1) < overflowBound := by
  obtain ⟨y, hscaled, hx⟩ := exists_scaled_of_backoff h
  obtain rfl := Document.real.inj hx
  have hdoubled := doubled_scaled hbase hattempt hscaled
  rw [isDuration_add_iff hdoubled.canonical hdoubled.positive hj, hdoubled.isSome_iff]

/-! ## Another attempt -/

/-- The delay that a header asks for, if it can be read. -/
def requested? (header : Option String) : Option Binary64 :=
  header.bind fun text => if text = "" then none else headerSeconds? (Text.trimmed text)

/-- Waits before the next attempt, as long as the header of an answer asks for. -/
def retryAfter (header : Option String) (attempt maxRetries : ℤ) (base : Document)
    (description : String) : Operation Bool := do
  let requested ← readHeader header
  again attempt maxRetries base description ((requested.map Document.real).getD .null)

/-- Reading a header leaves a record at most. -/
theorem exists_runIn_readHeader (header : Option String) (w : World) :
    ∃ w₁, LogsTo w w₁ ∧ (readHeader header).runIn w = (.ok (requested? header), w₁) := by
  cases header with
  | none => exact ⟨w, .refl w, rfl⟩
  | some text =>
    by_cases hempty : text = ""
    · subst hempty
      exact ⟨w, .refl w, rfl⟩
    · have hrequested : requested? (some text) = headerSeconds? (Text.trimmed text) := if_neg hempty
      rw [hrequested]
      -- a header without a number is warned about, and counts as none
      cases hseconds : headerSeconds? (Text.trimmed text) with
      | some seconds =>
        refine ⟨w, .refl w, ?_⟩
        unfold readHeader
        simp only [hseconds]
        rfl
      | none =>
        refine ⟨_, (LogsTo.refl w).logged ⟨.warning, "Failed to parse Retry-After header '" ++
          Text.trimmed text ++ "'. Falling back to exponential backoff."⟩, ?_⟩
        unfold readHeader
        simp only [hseconds]
        rfl

/-- A delay is recorded and waited. -/
theorem runIn_again_wait {maxRetries : ℤ} {requested : Document} (h : attempt < maxRetries)
    (base : Document) (description : String) (w : World) (hdelay : requested = .real x ∨
      requested = .null ∧ backoff (nextJitter w) base attempt = .ok (.real x)) :
    ∃ record, (again attempt maxRetries base description requested).runIn w =
      (.ok true, { w.logged record with sleeps := w.sleeps ++ [.real x] }) := by
  refine ⟨⟨.info, "Retrying " ++ description ++ " in " ++ x.twoPlaces ++ " seconds (Attempt " ++
    toString attempt ++ "/" ++ toString maxRetries ++ ")"⟩, ?_⟩
  rw [again, if_neg (not_le.2 h)]
  rcases hdelay with rfl | ⟨rfl, hbackoff⟩
  · rfl
  · rw [runIn_get_bind]
    exact runIn_ofResult_bind hbackoff _ w

variable {header : Option String} {maxRetries : ℤ} {w : World}

/-- The delay that a header asks for is waited, whatever it is. -/
theorem runIn_retryAfter_requested (h : requested? header = some x) (hmore : attempt < maxRetries)
    (base : Document) (description : String) (w : World) :
    ∃ w', (retryAfter header attempt maxRetries base description).runIn w = (.ok true, w') ∧
      w'.sleeps = w.sleeps ++ [.real x] := by
  obtain ⟨w₁, hlogs, hread⟩ := exists_runIn_readHeader header w
  obtain ⟨record, hagain⟩ := runIn_again_wait hmore base description w₁ (.inl rfl)
  rw [h] at hread
  refine ⟨_, (runIn_bind_of_ok hread).trans hagain, ?_⟩
  rw [hlogs.sameServices.sleeps]

/-- Without such a header the doubled base delay is waited, if it can be told. -/
theorem runIn_retryAfter_backoff (h : requested? header = none) (hmore : attempt < maxRetries)
    (base : Document) (description : String) (w : World) :
    (∃ x w', backoff (nextJitter w) base attempt = .ok (.real x) ∧
      (retryAfter header attempt maxRetries base description).runIn w = (.ok true, w') ∧
      w'.sleeps = w.sleeps ++ [.real x]) ∨
    ∃ e w', (retryAfter header attempt maxRetries base description).runIn w = (.error e, w') ∧
      w'.sleeps = w.sleeps := by
  obtain ⟨w₁, hlogs, hread⟩ := exists_runIn_readHeader header w
  have hservices := hlogs.sameServices
  rw [h] at hread
  cases hbackoff : backoff (nextJitter w) base attempt with
  | error e =>
    refine Or.inr ⟨e, w₁, (runIn_bind_of_ok hread).trans ?_, hservices.sleeps⟩
    rw [← hservices.nextJitter] at hbackoff
    rw [again, if_neg (not_le.2 hmore)]
    exact runIn_ofResult_bind_error hbackoff _ w₁
  | ok delay =>
    obtain ⟨x, -, rfl⟩ := exists_scaled_of_backoff hbackoff
    rw [← hservices.nextJitter] at hbackoff
    obtain ⟨record, hagain⟩ := runIn_again_wait hmore base description w₁
      (.inr ⟨rfl, hbackoff⟩)
    refine Or.inl ⟨_, _, rfl, (runIn_bind_of_ok hread).trans hagain, ?_⟩
    rw [hservices.sleeps, hservices.nextJitter]

/-- Whatever the header, there is no other attempt and no wait, or one delay is waited: the one that
the header asks for, if it can be read. Then the delay is finite and not negative just when the
header spells a decimal below the range of doubles, with a minus only where the delay is zero.
Without such a header the delay is finite and not negative just when a base delay that is a double
stays below the range of doubles as it is doubled. -/
theorem isDuration_slept_iff (header : Option String) (hattempt : 1 ≤ attempt) (maxRetries : ℤ)
    (hbase : IsBase base) (description : String) (hj : IsJitter (nextJitter w)) :
    let run := (retryAfter header attempt maxRetries base description).runIn w
    run.1 ≠ .ok true ∧ run.2.sleeps = w.sleeps ∨
    run.1 = .ok true ∧ ∃ delay : Binary64, run.2.sleeps = w.sleeps ++ [.real delay] ∧
      (∀ seconds, requested? header = some seconds → delay = seconds ∧
        (delay.IsDuration ↔ ∃ text negative digits e, header = some text ∧
          spelled? (numberText (Text.trimmed text)) = some (negative, digits, e) ∧
          (digits : ℚ) * 10 ^ e < overflowBound ∧ (negative = true → delay.isZero = true))) ∧
      (requested? header = none → (delay.IsDuration ↔ ∀ y, base = .real y →
        ∃ q, y.toRat? = some q ∧ q * 2 ^ (attempt - 1) < overflowBound)) := by
  rcases le_or_gt maxRetries attempt with hlast | hmore
  · -- after the last attempt there is nothing to wait for
    left
    obtain ⟨w₁, hlogs, hread⟩ := exists_runIn_readHeader header w
    rw [retryAfter, runIn_bind_of_ok hread, again, if_pos hlast]
    exact ⟨by rintro ⟨⟩, hlogs.sameServices.sleeps⟩
  · cases hrequested : requested? header with
    | some seconds =>
      -- The header is followed, whatever it asks for.
      right
      obtain ⟨w', hrun, hslept⟩ := runIn_retryAfter_requested hrequested hmore base description w
      rw [hrun]
      refine ⟨rfl, seconds, hslept, ?_, fun hnone => by cases hnone⟩
      rintro _ ⟨rfl⟩
      refine ⟨rfl, ?_⟩
      obtain ⟨text, rfl, htext⟩ := Option.bind_eq_some_iff.1 hrequested
      split at htext
      · cases htext
      · rw [isDuration_headerSeconds_iff htext]
        constructor
        · rintro ⟨negative, digits, e, hspelled⟩
          exact ⟨text, negative, digits, e, rfl, hspelled⟩
        · rintro ⟨_, negative, digits, e, ⟨rfl⟩, hspelled⟩
          exact ⟨negative, digits, e, hspelled⟩
    | none =>
      -- Without a header the base delay is doubled, and may be too large for a double.
      rcases runIn_retryAfter_backoff hrequested hmore base description w with
        ⟨x, w', hbackoff, hrun, hslept⟩ | ⟨e, w', hrun, hslept⟩
      · right
        rw [hrun]
        exact ⟨rfl, x, hslept, (fun seconds hseconds => by cases hseconds), fun _ =>
          isDuration_backoff_iff hbase hattempt hj hbackoff⟩
      · left
        rw [hrun]
        exact ⟨by rintro ⟨⟩, hslept⟩

/-- A quarter of a second is waited when a header asks for it in milliseconds. -/
theorem isDuration_slept_milliseconds :
    IsBase (.int 1) ∧ IsJitter (nextJitter Cache.blankWorld) ∧ ∃ delay : Binary64,
      ((retryAfter (some " 250ms") 1 3 (.int 1) "A request").runIn Cache.blankWorld).2.sleeps =
        [.real delay] ∧ delay.IsDuration ∧ delay = .ofRatio false 1 4 := by
  have hbase : IsBase (.int 1) := Int.one_nonneg
  have hjitter : IsJitter (nextJitter Cache.blankWorld) :=
    ⟨1 / 2, by decide +kernel, by norm_num, by norm_num⟩
  have hrequested : requested? (some " 250ms") = some (.ofRatio false 1 4) := by decide +kernel
  have hspelled : spelled? (numberText (Text.trimmed " 250ms")) = some (false, 250, 0) := by
    decide +kernel
  refine ⟨hbase, hjitter, ?_⟩
  rcases isDuration_slept_iff (some " 250ms") (Int.le_refl 1) 3 hbase "A request" hjitter with
    ⟨hnot, -⟩ | ⟨-, delay, hslept, hdelay, -⟩
  · exact absurd rfl hnot
  · obtain ⟨rfl, hiff⟩ := hdelay _ hrequested
    refine ⟨_, hslept, hiff.2 ⟨_, _, _, _, rfl, hspelled, ?_, by simp⟩, rfl⟩
    calc ((250 : ℕ) : ℚ) * 10 ^ (0 : ℤ) < 2 ^ (8 : ℤ) := by norm_num
      _ ≤ 2 ^ (52 + greatestExponent) := zpow_le_zpow_right₀ (by norm_num) (by decide)
      _ ≤ overflowBound := le_overflowBound

/-- A header that asks for less than nothing, or for an infinity, is followed as well. -/
theorem not_isDuration_slept :
    (∃ delay : Binary64, ((retryAfter (some "-5") 1 3 (.int 1) "A request").runIn
        Cache.blankWorld).2.sleeps = [.real delay] ∧ ¬ delay.IsDuration) ∧
    ∃ delay : Binary64, ((retryAfter (some "inf") 1 3 (.int 1) "A request").runIn
        Cache.blankWorld).2.sleeps = [.real delay] ∧ ¬ delay.IsDuration := by
  have hminus : requested? (some "-5") = some (.ofRatio true 5 1) := by decide +kernel
  have hword : requested? (some "inf") = some (.infinity false) := by decide +kernel
  have hmore : (1 : ℤ) < 3 := by decide
  constructor
  · obtain ⟨w', hrun, hslept⟩ := runIn_retryAfter_requested hminus hmore (.int 1) "A request"
      Cache.blankWorld
    rw [hrun]
    refine ⟨_, hslept, fun hduration => ?_⟩
    have hzero := ((isDuration_iff _).1 hduration).2 (by decide +kernel)
    exact absurd hzero (by decide +kernel)
  · obtain ⟨w', hrun, hslept⟩ := runIn_retryAfter_requested hword hmore (.int 1) "A request"
      Cache.blankWorld
    rw [hrun]
    exact ⟨_, hslept, not_isDuration_infinity false⟩

end Provider.Retry

end ThemeLocales
