import ThemeLocales.Proofs.Number.Shortest
import ThemeLocales.Proofs.Text.Search

/-!
# Numerals

A numeral is the text of an unsigned decimal in parts: digits before the point, digits after it, and
an exponent. The text of every positive double is the text of a numeral whose value lies in the
rounding interval of the double.
-/

set_option autoImplicit false

namespace ThemeLocales

open Text

/-- The parts of the text of an unsigned decimal. -/
structure Numeral where
  whole : List Char
  fraction : List Char := []
  /-- Whether the exponent is negative, and its digits. -/
  exponent : Option (Bool × List Char) := none

namespace Numeral

/-- The point and what follows it; nothing without digits after the point. -/
def fractionChars : List Char → List Char
  | [] => []
  | cs => '.' :: cs

/-- The exponent with its sign. -/
def exponentChars : Option (Bool × List Char) → List Char
  | none => []
  | some (negative, digits) => 'e' :: (if negative then '-' else '+') :: digits

/-- The text of a numeral. -/
def chars (n : Numeral) : List Char :=
  n.whole ++ fractionChars n.fraction ++ exponentChars n.exponent

/-- The number that the digits before and after the point spell. -/
def digits (n : Numeral) : ℕ :=
  digitsValue (n.whole ++ n.fraction)

/-- The exponent as a number. -/
def power (n : Numeral) : ℤ :=
  match n.exponent with
  | none => 0
  | some (negative, digits) => if negative then -(digitsValue digits : ℤ) else digitsValue digits

/-- The decimal place of the last digit. -/
def place (n : Numeral) : ℤ :=
  n.power - n.fraction.length

/-- The number that a numeral stands for. -/
def value (n : Numeral) : ℚ :=
  n.digits * 10 ^ n.place

/-- Whether a numeral has a fraction or an exponent. -/
def isReal (n : Numeral) : Bool :=
  !n.fraction.isEmpty || n.exponent.isSome

/-- Digits that may stand before the point: no zero in front of others. -/
def IsWhole (cs : List Char) : Prop :=
  cs = ['0'] ∨ ∃ c rest, cs = c :: rest ∧ c ≠ '0' ∧ ∀ d ∈ cs, isAsciiDigit d = true

theorem IsWhole.digits {cs : List Char} (h : IsWhole cs) : ∀ d ∈ cs, isAsciiDigit d = true := by
  rcases h with rfl | ⟨c, rest, rfl, -, hall⟩
  · intro d hd
    rw [List.mem_singleton.1 hd]
    decide
  · exact hall

theorem IsWhole.ne_nil {cs : List Char} (h : IsWhole cs) : cs ≠ [] := by
  rcases h with rfl | ⟨c, rest, rfl, -, -⟩
  · exact List.cons_ne_nil '0' []
  · exact List.cons_ne_nil c rest

/-- A numeral whose parts consist of digits. -/
structure WellFormed (n : Numeral) : Prop where
  whole : IsWhole n.whole
  fraction : ∀ c ∈ n.fraction, isAsciiDigit c = true
  exponent : ∀ p ∈ n.exponent, p.2 ≠ [] ∧ ∀ c ∈ p.2, isAsciiDigit c = true

theorem isWhole_toDigits (n : ℕ) : IsWhole (Nat.toDigits 10 n) := by
  rcases Nat.eq_zero_or_pos n with rfl | hn
  · exact Or.inl (Nat.toDigits_zero 10)
  · obtain ⟨c, cs, hcs, hc⟩ := head_toDigits_ne_zero hn
    exact Or.inr ⟨c, cs, hcs, hc, fun d hd => isAsciiDigit_of_mem_toDigits hd⟩

theorem isAsciiDigit_of_mem_zeros {n : ℕ} {c : Char} (h : c ∈ List.replicate n '0') :
    isAsciiDigit c = true := by
  rw [(List.mem_replicate.1 h).2]
  decide

theorem isAsciiDigit_of_mem_padded {width n : ℕ} {c : Char} (h : c ∈ (padded 10 width n).toList) :
    isAsciiDigit c = true := by
  rw [padded, String.toList_ofList] at h
  rcases List.mem_append.1 h with h | h
  · exact isAsciiDigit_of_mem_zeros h
  · exact isAsciiDigit_of_mem_toDigits h

theorem digitsValue_padded (width n : ℕ) : digitsValue (padded 10 width n).toList = n := by
  rw [padded, String.toList_ofList, digitsValue_append, digitsValue_zeros, Nat.zero_mul,
    Nat.zero_add, digitsValue_toDigits]

/-- An integer is its magnitude with its sign. -/
theorem signed_natAbs (n : ℤ) :
    (if decide (n < 0) = true then -(n.natAbs : ℤ) else n.natAbs) = n := by
  split
  · next h => simp only [decide_eq_true_eq] at h; omega
  · next h => simp only [decide_eq_true_eq] at h; omega

end Numeral

namespace Binary64

open Numeral

/-- The digits of a positive natural are its significant ones and zeros. -/
theorem significantDigits_spec {n : ℕ} (hn : 0 < n) :
    ∃ zeros, Nat.toDigits 10 n = significantDigits n ++ List.replicate zeros '0' ∧
      ∃ c rest, significantDigits n = c :: rest ∧ c ≠ '0' := by
  obtain ⟨c, cs, hcs, hc⟩ := head_toDigits_ne_zero hn
  obtain ⟨zeros, hsplit⟩ := exists_dropped_end '0' (Nat.toDigits 10 n)
  set kept := ((Nat.toDigits 10 n).reverse.dropWhile (· == '0')).reverse with hkept
  have hne : ∃ rest, kept = c :: rest := by
    cases hk : kept with
    | nil =>
      have hzero : c ∈ List.replicate zeros '0' := by
        rw [hk, List.nil_append] at hsplit
        rw [← hsplit, hcs]
        exact List.mem_cons_self
      exact absurd (List.mem_replicate.1 hzero).2 hc
    | cons d rest =>
      rw [hk, hcs, List.cons_append] at hsplit
      exact ⟨rest, by rw [(List.cons.inj hsplit).1]⟩
  obtain ⟨rest, hrest⟩ := hne
  have hsignificant : significantDigits n = kept := by
    unfold significantDigits
    simp only [← hkept]
    rw [hrest]
  exact ⟨zeros, by rw [hsignificant]; exact hsplit, c, rest, hsignificant.trans hrest, hc⟩

variable {kept : List Char} {c : Char} {rest : List Char} {point exponent : ℤ}

/-- A text is that of a numeral with a fraction or an exponent, which stands for the number. -/
def Notates (cs : List Char) (v : ℚ) : Prop :=
  ∃ n : Numeral, cs = n.chars ∧ n.WellFormed ∧ n.isReal = true ∧ n.value = v

theorem fractionChars_of_ne_nil {cs : List Char} (h : cs ≠ []) :
    fractionChars cs = '.' :: cs := by
  cases cs with
  | nil => exact absurd rfl h
  | cons c cs => rfl

theorem fractionText_of_ne_nil {cs : List Char} (h : cs ≠ []) :
    fractionText cs = '.' :: cs := by
  cases cs with
  | nil => exact absurd rfl h
  | cons c cs => rfl

/-- A number below one: a zero, the point, and zeros in front of the digits. -/
theorem notates_positional_below (hkept : kept ≠ [])
    (hdigits : ∀ d ∈ kept, isAsciiDigit d = true) (hpoint : point ≤ 0) :
    Notates (positional kept point) (digitsValue kept * 10 ^ (point - kept.length)) := by
  set fraction := List.replicate (-point).toNat '0' ++ kept with hfraction
  have hne : fraction ≠ [] := List.append_ne_nil_of_right_ne_nil _ hkept
  refine ⟨⟨['0'], fraction, none⟩, ?_, ⟨Or.inl rfl, ?_, by simp⟩, ?_, ?_⟩
  · rw [positional, if_pos hpoint, chars, fractionChars_of_ne_nil hne, hfraction]
    simp [exponentChars]
  · intro d hd
    rcases List.mem_append.1 hd with hd | hd
    · exact isAsciiDigit_of_mem_zeros hd
    · exact hdigits d hd
  · simp [isReal, hne]
  · have hvalue : digitsValue (['0'] ++ fraction) = digitsValue kept := by
      rw [hfraction, ← List.append_assoc, digitsValue_append, digitsValue_append, digitsValue_zeros]
      simp [digitsValue]
    have hplace : (0 : ℤ) - fraction.length = point - kept.length := by
      rw [hfraction, List.length_append, List.length_replicate]
      omega
    simp only [value, digits, place, power]
    rw [hvalue, hplace]

/-- Digits in front of the point, filled up with zeros. -/
theorem isWhole_filled (hkept : kept = c :: rest) (hc : c ≠ '0')
    (hdigits : ∀ d ∈ kept, isAsciiDigit d = true) (p zeros : ℕ) :
    IsWhole (kept.take (p + 1) ++ List.replicate zeros '0') := by
  refine Or.inr ⟨c, rest.take p ++ List.replicate zeros '0', by rw [hkept]; simp, hc, ?_⟩
  intro d hd
  rcases List.mem_append.1 hd with hd | hd
  · exact hdigits d (List.mem_of_mem_take hd)
  · exact isAsciiDigit_of_mem_zeros hd

/-- A number whose digits all stand before the point: zeros fill the rest, and a zero follows the
point. -/
theorem notates_positional_whole (hkept : kept = c :: rest) (hc : c ≠ '0')
    (hdigits : ∀ d ∈ kept, isAsciiDigit d = true) {p : ℕ} (hlong : kept.length ≤ p + 1) :
    Notates (positional kept (p + 1 : ℕ))
      (digitsValue kept * 10 ^ (((p + 1 : ℕ) : ℤ) - kept.length)) := by
  refine ⟨⟨_, ['0'], none⟩, ?_,
    ⟨isWhole_filled hkept hc hdigits p (p + 1 - (kept.take (p + 1)).length), by simp [isAsciiDigit],
      by simp⟩, rfl, ?_⟩
  · rw [positional, if_neg (by omega), Int.toNat_natCast, List.drop_eq_nil_of_le hlong]
    simp [chars, fractionText, fractionChars, exponentChars]
  · have hzero : digitsValue ['0'] = 0 := by decide
    have hplace : ((p + 1 : ℕ) : ℤ) - kept.length = ((p + 1 - kept.length : ℕ) : ℤ) := by omega
    simp only [value, digits, place, power]
    rw [List.take_of_length_le hlong, digitsValue_append, digitsValue_append, digitsValue_zeros,
      List.length_replicate, hzero, hplace, zpow_natCast]
    push_cast
    norm_num
    ring

/-- A number with digits on both sides of the point. -/
theorem notates_positional_within (hkept : kept = c :: rest) (hc : c ≠ '0')
    (hdigits : ∀ d ∈ kept, isAsciiDigit d = true) {p : ℕ} (hshort : p + 1 < kept.length) :
    Notates (positional kept (p + 1 : ℕ))
      (digitsValue kept * 10 ^ (((p + 1 : ℕ) : ℤ) - kept.length)) := by
  have hlength : (kept.take (p + 1)).length = p + 1 := by
    rw [List.length_take]
    omega
  have hfraction : kept.drop (p + 1) ≠ [] := by
    intro h
    exact absurd (List.drop_eq_nil_iff.1 h) (by omega)
  refine ⟨⟨_, kept.drop (p + 1), none⟩, ?_,
    ⟨isWhole_filled hkept hc hdigits p (p + 1 - (kept.take (p + 1)).length), ?_, by simp⟩, ?_, ?_⟩
  · rw [positional, if_neg (by omega), Int.toNat_natCast, fractionText_of_ne_nil hfraction]
    simp [chars, exponentChars, fractionChars_of_ne_nil hfraction]
  · exact fun d hd => hdigits d (List.mem_of_mem_drop hd)
  · simp [isReal, List.isEmpty_eq_false_iff.2 hfraction]
  · simp only [value, digits, place, power]
    rw [hlength, Nat.sub_self, List.replicate_zero, List.append_nil, List.take_append_drop,
      List.length_drop]
    congr 2
    omega

/-- Positional notation as a numeral, by where the point stands. -/
theorem notates_positional (hkept : kept = c :: rest) (hc : c ≠ '0')
    (hdigits : ∀ d ∈ kept, isAsciiDigit d = true) (point : ℤ) :
    Notates (positional kept point) (digitsValue kept * 10 ^ (point - kept.length)) := by
  rcases le_or_gt point 0 with hpoint | hpoint
  · exact notates_positional_below (by rw [hkept]; exact List.cons_ne_nil c rest) hdigits hpoint
  · obtain ⟨p, rfl⟩ : ∃ p : ℕ, point = (p + 1 : ℕ) := ⟨point.toNat - 1, by omega⟩
    rcases Nat.lt_or_ge (p + 1) kept.length with hshort | hlong
    · exact notates_positional_within hkept hc hdigits hshort
    · exact notates_positional_whole hkept hc hdigits hlong

/-- Scientific notation as a numeral. -/
theorem notates_scientific (hkept : kept = c :: rest) (hc : c ≠ '0')
    (hdigits : ∀ d ∈ kept, isAsciiDigit d = true) (exponent : ℤ) :
    Notates (scientific kept exponent) (digitsValue kept * 10 ^ (exponent + 1 - kept.length)) := by
  refine ⟨⟨[c], rest, some (decide (exponent < 0), (padded 10 2 exponent.natAbs).toList)⟩, ?_,
    ⟨Or.inr ⟨c, [], rfl, hc, ?_⟩, ?_, ?_⟩, ?_, ?_⟩
  · rw [scientific, hkept]
    cases rest with
    | nil => simp [chars, fractionChars, exponentChars]
    | cons d ds => simp [chars, fractionChars, exponentChars]
  · intro d hd
    rw [List.mem_singleton] at hd
    exact hdigits d (by rw [hkept, hd]; exact List.mem_cons_self)
  · exact fun d hd => hdigits d (by rw [hkept]; exact List.mem_cons_of_mem c hd)
  · intro q hq
    cases hq
    refine ⟨?_, fun d hd => ?_⟩
    · simp [padded]
    · exact isAsciiDigit_of_mem_padded hd
  · simp [isReal]
  · simp only [value, digits, place, power]
    rw [digitsValue_padded, signed_natAbs, hkept]
    simp only [List.singleton_append, List.length_cons]
    congr 2
    omega

/-- A positive natural is its significant digits, with the zeros behind them. -/
theorem mul_zpow_eq_significant {n : ℕ} (hn : 0 < n) (place : ℤ) :
    (n : ℚ) * 10 ^ place = digitsValue (significantDigits n) *
      10 ^ (place + (Nat.toDigits 10 n).length - (significantDigits n).length) := by
  obtain ⟨zeros, hsplit, -⟩ := significantDigits_spec hn
  have hdigits : n = digitsValue (significantDigits n) * 10 ^ zeros := by
    have hvalue := digitsValue_toDigits n
    rw [hsplit, digitsValue_append, digitsValue_zeros, List.length_replicate] at hvalue
    omega
  have hlength : (place + (Nat.toDigits 10 n).length - (significantDigits n).length : ℤ) =
      zeros + place := by
    rw [hsplit, List.length_append, List.length_replicate]
    omega
  rw [hlength, zpow_add₀ (by norm_num), zpow_natCast, ← mul_assoc]
  congr 1
  exact_mod_cast hdigits

/-- The text of a positive double is a numeral that stands for the number the search found. -/
theorem notates_finiteText {m : ℕ} {e : ℤ} (hm : 0 < m) (hdigits : 0 < (shortest m e).1) :
    Notates (finiteText m e) ((shortest m e).1 * 10 ^ (shortest m e).2) := by
  obtain ⟨zeros, hsplit, c, rest, hkept, hc⟩ := significantDigits_spec hdigits
  have hall : ∀ d ∈ significantDigits (shortest m e).1, isAsciiDigit d = true := by
    intro d hd
    apply isAsciiDigit_of_mem_toDigits (n := (shortest m e).1)
    rw [hsplit]
    exact List.mem_append_left _ hd
  rw [mul_zpow_eq_significant hdigits]
  unfold finiteText
  rw [if_neg hm.ne']
  dsimp only
  split
  · exact notates_positional hkept hc hall _
  · have hnotates := notates_scientific hkept hc hall
      ((shortest m e).2 + (Nat.toDigits 10 (shortest m e).1).length - 1)
    rwa [sub_add_cancel] at hnotates

/-- The text of a positive double is a numeral that reads back as the double. -/
theorem finiteText_spec {m : ℕ} {e : ℤ} (negative : Bool) (hm : 0 < m)
    (hcanonical : (finite negative m e).Canonical) :
    ∃ n : Numeral, finiteText m e = n.chars ∧ n.WellFormed ∧ n.isReal = true ∧
      ofDecimal negative n.digits n.place = finite negative m e := by
  have hholds := shortest_holds hm hcanonical
  obtain ⟨n, hn, hwell, hreal, hvalue⟩ := notates_finiteText hm (hholds.digits_pos hm hcanonical)
  refine ⟨n, hn, hwell, hreal, ofDecimal_eq hm hcanonical ?_⟩
  rw [Numeral.value] at hvalue
  rwa [hvalue]

end Binary64

end ThemeLocales
