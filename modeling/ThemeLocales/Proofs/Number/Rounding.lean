import Mathlib.Algebra.Order.Field.Power
import Mathlib.Data.Rat.Cast.Order
import Mathlib.Tactic.FieldSimp
import Mathlib.Tactic.Linarith
import Mathlib.Tactic.Positivity
import Mathlib.Tactic.Ring
import ThemeLocales.Number.Shortest

/-!
# Rounding to doubles

Every double is canonical: its significand and exponent fit the format, and no other pair has the
same value. A positive ratio that lies in the rounding interval of a canonical double rounds to that
double (`ofRatio_eq`).
-/

set_option autoImplicit false

namespace ThemeLocales.Binary64

/-- A double as the format has it. -/
def Canonical : Binary64 → Prop
  | finite _ m e =>
    leastExponent ≤ e ∧ e ≤ greatestExponent ∧ m < 2 ^ 53 ∧ (2 ^ 52 ≤ m ∨ e = leastExponent)
  | _ => True

/-- The rationals of a rounding interval, in quarters of the unit of the last place. -/
def Interval.Holds (i : Interval) (x : ℚ) : Prop :=
  (i.low < x ∧ x < i.high) ∨ i.closed = true ∧ (x = i.low ∨ x = i.high)

/-! ## Powers and quotients -/

theorem zpow_eq_div {b : ℕ} (hb : b ≠ 0) (k : ℤ) :
    (b : ℚ) ^ k = ((Nat.pow b k.toNat : ℕ) : ℚ) / ((Nat.pow b (-k).toNat : ℕ) : ℚ) := by
  have hb' : (b : ℚ) ≠ 0 := by exact_mod_cast hb
  simp only [Nat.pow_eq, Nat.cast_pow]
  rw [← zpow_natCast, ← zpow_natCast, ← zpow_sub₀ hb']
  congr 1
  omega

theorem scaled_back (x : ℚ) (e : ℤ) : x * 2 ^ (-e) * 2 ^ e = x := by
  rw [mul_assoc, ← zpow_add₀ (by norm_num), neg_add_cancel, zpow_zero, mul_one]

/-- Whether a number is below a power of two does not change when both are scaled. -/
theorem scaled_lt_iff {x : ℚ} {e k : ℤ} : x * 2 ^ (-e) < 2 ^ k ↔ x < 2 ^ (k + e) := by
  have hscale : (0 : ℚ) < 2 ^ e := zpow_pos (by norm_num) e
  rw [← mul_lt_mul_iff_of_pos_right hscale, scaled_back, ← zpow_add₀ (by norm_num)]

theorem le_scaled_iff {x : ℚ} {e k : ℤ} : 2 ^ k ≤ x * 2 ^ (-e) ↔ 2 ^ (k + e) ≤ x := by
  rw [← not_lt, scaled_lt_iff, not_lt]

/-- A ratio whose terms are scaled by a power of two. -/
theorem scaled_ratio (num den : ℕ) (e : ℤ) :
    ((num * Nat.pow 2 (-e).toNat : ℕ) : ℚ) / ((den * Nat.pow 2 e.toNat : ℕ) : ℚ) =
      (num : ℚ) / den * 2 ^ (-e) := by
  have h := zpow_eq_div (b := 2) (by decide) (-e)
  rw [neg_neg] at h
  push_cast at h ⊢
  rw [h, mul_div_mul_comm]

theorem pow_le_ratio_iff {num den : ℕ} (hden : 0 < den) (k : ℤ) :
    den * Nat.pow 2 k.toNat ≤ num * Nat.pow 2 (-k).toNat ↔ (2 : ℚ) ^ k ≤ (num : ℚ) / den := by
  have h := zpow_eq_div (b := 2) (by decide) k
  have hpow : (0 : ℚ) < ((Nat.pow 2 (-k).toNat : ℕ) : ℚ) := by
    exact_mod_cast Nat.pow_pos (by decide)
  have hden' : (0 : ℚ) < den := by exact_mod_cast hden
  push_cast at h
  rw [h, div_le_div_iff₀ hpow hden', ← Nat.cast_le (α := ℚ)]
  push_cast
  rw [mul_comm (den : ℚ)]

/-- A natural stands between the powers of two at its binary logarithm. -/
theorem zpow_log2_le_lt {n : ℕ} (hn : 0 < n) :
    (2 : ℚ) ^ (Nat.log2 n : ℤ) ≤ n ∧ (n : ℚ) < 2 ^ ((Nat.log2 n : ℤ) + 1) := by
  have hhigh : n < 2 ^ (Nat.log2 n + 1) := Nat.lt_log2_self
  constructor
  · rw [zpow_natCast]
    exact_mod_cast Nat.log2_self_le hn.ne'
  · exact_mod_cast hhigh

/-- The binary logarithm of a ratio, rounded down. -/
theorem floorLog_spec {num den : ℕ} (hnum : 0 < num) (hden : 0 < den) :
    (2 : ℚ) ^ floorLog num den ≤ (num : ℚ) / den ∧
      (num : ℚ) / den < 2 ^ (floorLog num den + 1) := by
  have hden' : (0 : ℚ) < den := by exact_mod_cast hden
  obtain ⟨hnumLow, hnumHigh⟩ := zpow_log2_le_lt hnum
  obtain ⟨hdenLow, hdenHigh⟩ := zpow_log2_le_lt hden
  set k : ℤ := (Nat.log2 num : ℤ) - (Nat.log2 den : ℤ) with hk
  -- The logarithms of the two terms leave an interval with one power of two in its middle.
  have hhigh : (num : ℚ) / den < 2 ^ (k + 1) := by
    rw [div_lt_iff₀ hden']
    calc (num : ℚ) < 2 ^ ((Nat.log2 num : ℤ) + 1) := hnumHigh
      _ = 2 ^ (k + 1) * 2 ^ (Nat.log2 den : ℤ) := by
        rw [← zpow_add₀ (by norm_num)]
        congr 1
        omega
      _ ≤ 2 ^ (k + 1) * den := by gcongr
  have hlow : (2 : ℚ) ^ (k - 1) ≤ (num : ℚ) / den := by
    rw [le_div_iff₀ hden']
    calc (2 : ℚ) ^ (k - 1) * den ≤ 2 ^ (k - 1) * 2 ^ ((Nat.log2 den : ℤ) + 1) := by gcongr
      _ = 2 ^ (Nat.log2 num : ℤ) := by
        rw [← zpow_add₀ (by norm_num)]
        congr 1
        omega
      _ ≤ num := hnumLow
  unfold floorLog
  simp only [← hk]
  split
  · next h => exact ⟨(pow_le_ratio_iff hden k).1 h, hhigh⟩
  · next h =>
    rw [pow_le_ratio_iff hden k, not_le] at h
    exact ⟨hlow, by rwa [sub_add_cancel]⟩

/-- A quotient within a half of a natural is rounded down to it or to the one before, since anything
else is a whole denominator away. -/
theorem quotient_eq_or {num den m : ℕ} (hlow : 2 * (m * den) ≤ 2 * num + den)
    (hhigh : 2 * num ≤ 2 * (m * den) + den) (hden : 0 < den) :
    num / den = m ∨ num / den + 1 = m := by
  have hsplit : den * (num / den) + num % den = num := Nat.div_add_mod num den
  have hrest : num % den < den := Nat.mod_lt _ hden
  rcases Nat.lt_trichotomy (num / den) m with hlt | heq | hgt
  · right
    by_contra hne
    have hfar : num / den + 2 ≤ m := by omega
    have hscaled := Nat.mul_le_mul_right den hfar
    rw [Nat.add_mul, Nat.mul_comm (num / den)] at hscaled
    omega
  · exact Or.inl heq
  · have hfar : m + 1 ≤ num / den := hgt
    have hscaled := Nat.mul_le_mul_right den hfar
    rw [Nat.add_mul, Nat.mul_comm (num / den)] at hscaled
    omega

/-- A natural is the rounded quotient when the quotient is within a half of it, and an even one also
at the distance of a half. -/
theorem roundedQuotient_eq {num den m : ℕ} (hden : 0 < den)
    (h : ((m : ℚ) - 1 / 2 < (num : ℚ) / den ∧ (num : ℚ) / den < m + 1 / 2) ∨
      m % 2 = 0 ∧ (m : ℚ) - 1 / 2 ≤ (num : ℚ) / den ∧ (num : ℚ) / den ≤ m + 1 / 2) :
    roundedQuotient num den = m := by
  have hden' : (0 : ℚ) < den := by exact_mod_cast hden
  have hlow : (m : ℚ) - 1 / 2 < (num : ℚ) / den ↔ 2 * (m * den) < 2 * num + den := by
    rw [lt_div_iff₀ hden', ← Nat.cast_lt (α := ℚ)]
    push_cast
    constructor <;> intro h <;> linarith
  have hhigh : (num : ℚ) / den < m + 1 / 2 ↔ 2 * num < 2 * (m * den) + den := by
    rw [div_lt_iff₀ hden', ← Nat.cast_lt (α := ℚ)]
    push_cast
    constructor <;> intro h <;> linarith
  have hlow' : (m : ℚ) - 1 / 2 ≤ (num : ℚ) / den ↔ 2 * (m * den) ≤ 2 * num + den := by
    rw [le_div_iff₀ hden', ← Nat.cast_le (α := ℚ)]
    push_cast
    constructor <;> intro h <;> linarith
  have hhigh' : (num : ℚ) / den ≤ m + 1 / 2 ↔ 2 * num ≤ 2 * (m * den) + den := by
    rw [div_le_iff₀ hden', ← Nat.cast_le (α := ℚ)]
    push_cast
    constructor <;> intro h <;> linarith
  -- all bounds are now about naturals, and the quotient is the result or one below it
  rw [hlow, hhigh, hlow', hhigh'] at h
  have hsplit : den * (num / den) + num % den = num := Nat.div_add_mod num den
  have hrest : num % den < den := Nat.mod_lt _ hden
  have hm : num / den = m ∨ num / den + 1 = m := quotient_eq_or (by omega) (by omega) hden
  unfold roundedQuotient
  rcases hm with hm | hm
  · have : m * den = den * (num / den) := by rw [hm, Nat.mul_comm]
    simp only
    split_ifs <;> omega
  · have : m * den = den * (num / den) + den := by rw [← hm, Nat.add_mul, Nat.mul_comm, Nat.one_mul]
    simp only
    split_ifs <;> omega

/-! ## Rounding intervals -/

variable {num den m : ℕ} {e k : ℤ} {negative : Bool}

theorem floorLog_lt (hnum : 0 < num) (hden : 0 < den) (h : (num : ℚ) / den < 2 ^ k) :
    floorLog num den < k :=
  (zpow_lt_zpow_iff_right₀ (by norm_num)).1 ((floorLog_spec hnum hden).1.trans_lt h)

theorem le_floorLog (hnum : 0 < num) (hden : 0 < den) (h : (2 : ℚ) ^ k ≤ (num : ℚ) / den) :
    k ≤ floorLog num den := by
  have := (zpow_lt_zpow_iff_right₀ (by norm_num)).1 (h.trans_lt (floorLog_spec hnum hden).2)
  omega

theorem scaled_pos (hden : 0 < den) (e : ℤ) : 0 < den * Nat.pow 2 e.toNat :=
  Nat.mul_pos hden (Nat.pow_pos (by decide))

/-- The double of a ratio whose place of rounding and rounded significand are known. -/
theorem ofRatio_of_rounded (hnum : 0 < num) (he : max (floorLog num den - 52) leastExponent = e)
    (hm : roundedQuotient (num * Nat.pow 2 (-e).toNat) (den * Nat.pow 2 e.toNat) = m) :
    ofRatio negative num den =
      if m = 2 ^ 53 then
        if greatestExponent < e + 1 then infinity negative else finite negative (2 ^ 52) (e + 1)
      else if greatestExponent < e then infinity negative else finite negative m e := by
  simp only [Nat.pow_eq] at hm
  simp only [ofRatio, if_neg hnum.ne', he, Nat.pow_eq, hm]
  by_cases hpower : m = 2 ^ 53
  · simp only [if_pos hpower]
  · simp only [if_neg hpower]

/-- The ends of a rounding interval are at most half a unit away from the number. -/
theorem Interval.Holds.near {x : ℚ} (hm : 0 < m) (h : (interval m e).Holds (x * 4)) :
    ((m : ℚ) - 1 / 2 < x ∧ x < m + 1 / 2) ∨
      m % 2 = 0 ∧ (m : ℚ) - 1 / 2 ≤ x ∧ x ≤ m + 1 / 2 := by
  have hlow : (4 * m : ℚ) - 2 ≤ ((interval m e).low : ℚ) := by
    unfold interval
    simp only
    split
    · rw [Nat.cast_sub (by omega)]
      push_cast
      linarith
    · rw [Nat.cast_sub (by omega)]
      push_cast
      linarith
  have hhigh : ((interval m e).high : ℚ) = 4 * m + 2 := by
    simp [interval]
  -- the bounds are within half a unit, and count only for an even significand
  rcases h with ⟨h₁, h₂⟩ | ⟨hclosed, h₁ | h₁⟩
  · exact Or.inl ⟨by linarith, by linarith⟩
  · have hm' : (1 : ℚ) ≤ m := by exact_mod_cast hm
    have hlow' : ((interval m e).low : ℚ) ≤ 4 * m := by
      have : (interval m e).low ≤ 4 * m := by
        unfold interval
        simp only
        split <;> omega
      exact_mod_cast this
    exact Or.inr ⟨by simpa [interval] using hclosed, by linarith, by linarith⟩
  · exact Or.inr ⟨by simpa [interval] using hclosed, by linarith, by linarith⟩

theorem Interval.Holds.bounds {x : ℚ} (hm : 0 < m) (h : (interval m e).Holds (x * 4)) :
    (m : ℚ) - 1 / 2 ≤ x ∧ x ≤ m + 1 / 2 := by
  rcases h.near hm with hinside | hends
  · exact ⟨hinside.1.le, hinside.2.le⟩
  · exact hends.2

/-- Below a power of two the interval reaches only a quarter of a unit, since the doubles there are
half as far from each other. -/
theorem Interval.Holds.quarter {x : ℚ} (he : leastExponent < e)
    (h : (interval (2 ^ 52) e).Holds (x * 4)) : (2 : ℚ) ^ 52 - 1 / 4 ≤ x := by
  have hlow : (interval (2 ^ 52) e).low = 4 * 2 ^ 52 - 1 := by simp [interval, he]
  have hhigh : (interval (2 ^ 52) e).high = 4 * 2 ^ 52 + 2 := rfl
  have hends : (interval (2 ^ 52) e).low ≤ (interval (2 ^ 52) e).high := by
    rw [hlow, hhigh]
    norm_num
  have hends' : ((interval (2 ^ 52) e).low : ℚ) ≤ (interval (2 ^ 52) e).high := by
    exact_mod_cast hends
  have hle : ((interval (2 ^ 52) e).low : ℚ) ≤ x * 4 := by
    rcases h with hinside | ⟨-, heq | heq⟩
    · exact hinside.1.le
    · exact heq.ge
    · exact hends'.trans heq.ge
  rw [hlow] at hle
  norm_num at hle ⊢
  linarith

/-- A ratio rounds to the significand that it is near to, if the place of rounding is known. -/
theorem ofRatio_of_near (hnum : 0 < num) (hden : 0 < den) (hm : m < 2 ^ 53)
    (he : e ≤ greatestExponent) (hplace : max (floorLog num den - 52) leastExponent = e)
    (hnear : ((m : ℚ) - 1 / 2 < (num : ℚ) / den * 2 ^ (-e) ∧
        (num : ℚ) / den * 2 ^ (-e) < m + 1 / 2) ∨
      m % 2 = 0 ∧ (m : ℚ) - 1 / 2 ≤ (num : ℚ) / den * 2 ^ (-e) ∧
        (num : ℚ) / den * 2 ^ (-e) ≤ m + 1 / 2) :
    ofRatio negative num den = finite negative m e := by
  have hrounded : roundedQuotient (num * Nat.pow 2 (-e).toNat) (den * Nat.pow 2 e.toNat) = m := by
    apply roundedQuotient_eq (scaled_pos hden e)
    rw [scaled_ratio]
    exact hnear
  rw [ofRatio_of_rounded hnum hplace hrounded, if_neg hm.ne, if_neg (not_lt.2 he)]

/-- Just below a power of two the place of rounding is one lower, and a ratio that is near enough to
the power is rounded up to it. -/
theorem ofRatio_of_below_power (hnum : 0 < num) (hden : 0 < den) (hleast : leastExponent < e)
    (hgreatest : e ≤ greatestExponent) (hlow : (2 : ℚ) ^ 52 - 1 / 4 ≤ (num : ℚ) / den * 2 ^ (-e))
    (hhigh : (num : ℚ) / den * 2 ^ (-e) < 2 ^ (52 : ℤ)) :
    ofRatio negative num den = finite negative (2 ^ 52) e := by
  have hbelow : floorLog num den < 52 + e := floorLog_lt hnum hden (scaled_lt_iff.1 hhigh)
  have habove : 51 + e ≤ floorLog num den := by
    apply le_floorLog hnum hden
    apply le_scaled_iff.1
    norm_num at hlow ⊢
    linarith
  have hplace : max (floorLog num den - 52) leastExponent = e - 1 := by omega
  have hdouble : (num : ℚ) / den * 2 ^ (-(e - 1)) = (num : ℚ) / den * 2 ^ (-e) * 2 := by
    rw [neg_sub, sub_eq_add_neg, add_comm, zpow_add₀ (by norm_num), zpow_one, mul_assoc]
  -- at the lower place the ratio is at most half a unit away from the next power
  have hrounded : roundedQuotient (num * Nat.pow 2 (-(e - 1)).toNat)
      (den * Nat.pow 2 (e - 1).toNat) = 2 ^ 53 := by
    apply roundedQuotient_eq (scaled_pos hden _)
    rw [scaled_ratio, hdouble]
    norm_num at hlow hhigh ⊢
    right
    constructor <;> linarith
  rw [ofRatio_of_rounded hnum hplace hrounded, if_pos rfl, sub_add_cancel,
    if_neg (not_lt.2 hgreatest)]

/-- A positive ratio in the rounding interval of a double rounds to it. -/
theorem ofRatio_eq (hden : 0 < den) (hm : 0 < m) (hc : (finite negative m e).Canonical)
    (h : (interval m e).Holds ((num : ℚ) / den * 2 ^ (-e) * 4)) :
    ofRatio negative num den = finite negative m e := by
  obtain ⟨hleast, hgreatest, hm53, hnormal⟩ := hc
  obtain ⟨hlow, hhigh⟩ := h.bounds hm
  have hm' : (1 : ℚ) ≤ m := by exact_mod_cast hm
  have hm53' : (m : ℚ) + 1 ≤ 2 ^ 53 := by exact_mod_cast hm53
  have hnum : 0 < num := by
    rcases Nat.eq_zero_or_pos num with rfl | hnum
    · simp only [Nat.cast_zero, zero_div, zero_mul] at hlow
      linarith
    · exact hnum
  have hupper : floorLog num den < 53 + e := by
    apply floorLog_lt hnum hden
    apply scaled_lt_iff.1
    refine hhigh.trans_lt ?_
    norm_num at hm53' ⊢
    linarith
  -- A ratio below all significands of its place has the place before as its own.
  rcases le_or_gt ((2 : ℚ) ^ (52 : ℤ)) ((num : ℚ) / den * 2 ^ (-e)) with hlarge | hsmall
  · have hlower : 52 + e ≤ floorLog num den := le_floorLog hnum hden (le_scaled_iff.1 hlarge)
    exact ofRatio_of_near hnum hden hm53 hgreatest (by omega) (h.near hm)
  · rcases hleast.eq_or_lt with heq | hlt
    · exact ofRatio_of_near hnum hden hm53 hgreatest (by omega) (h.near hm)
    · -- a double below which the places are halved has the least significand of all normal ones
      have hpower : m = 2 ^ 52 := by
        have hnormal' : 2 ^ 52 ≤ m := hnormal.resolve_right hlt.ne'
        have hless : (m : ℚ) < 2 ^ 52 + 1 := by
          have hbelow := hlow.trans_lt hsmall
          rw [zpow_ofNat] at hbelow
          linarith
        have hless' : m < 2 ^ 52 + 1 := by exact_mod_cast hless
        omega
      subst hpower
      exact ofRatio_of_below_power hnum hden hlt hgreatest (h.quarter hlt) hsmall

/-! ## Results of rounding -/

theorem le_roundedQuotient {a : ℕ} (hden : 0 < den) (h : (a : ℚ) ≤ (num : ℚ) / den) :
    a ≤ roundedQuotient num den := by
  have hden' : (0 : ℚ) < den := by exact_mod_cast hden
  rw [le_div_iff₀ hden'] at h
  have : a ≤ num / den := (Nat.le_div_iff_mul_le hden).2 (by exact_mod_cast h)
  unfold roundedQuotient
  simp only
  split_ifs <;> omega

theorem roundedQuotient_le {b : ℕ} (hden : 0 < den) (h : (num : ℚ) / den < b) :
    roundedQuotient num den ≤ b := by
  have hden' : (0 : ℚ) < den := by exact_mod_cast hden
  rw [div_lt_iff₀ hden'] at h
  have : num / den < b := (Nat.div_lt_iff_lt_mul hden).2 (by exact_mod_cast h)
  unfold roundedQuotient
  simp only
  split_ifs <;> omega

/-- What rounding gives is canonical. -/
theorem canonical_ofRatio (hden : 0 < den) : (ofRatio negative num den).Canonical := by
  rcases Nat.eq_zero_or_pos num with rfl | hnum
  · simp [ofRatio, Canonical, leastExponent, greatestExponent]
  · obtain ⟨hlow, hhigh⟩ := floorLog_spec hnum hden
    set k := floorLog num den with hk
    set e := max (k - 52) leastExponent with he
    set m := roundedQuotient (num * Nat.pow 2 (-e).toNat) (den * Nat.pow 2 e.toNat) with hm
    -- the significand has at most 53 bits, and fewer than that only in the last place there is
    have hm53 : m ≤ 2 ^ 53 := by
      have hscaled : (num : ℚ) / den * 2 ^ (-e) < 2 ^ (53 : ℤ) :=
        scaled_lt_iff.2 (hhigh.trans_le (zpow_le_zpow_right₀ (by norm_num) (by omega)))
      apply roundedQuotient_le (scaled_pos hden e)
      rw [scaled_ratio]
      exact_mod_cast hscaled
    have hm52 : 2 ^ 52 ≤ m ∨ e = leastExponent := by
      by_cases hleast : e = leastExponent
      · exact Or.inr hleast
      · left
        have hscaled : (2 : ℚ) ^ (52 : ℤ) ≤ (num : ℚ) / den * 2 ^ (-e) :=
          le_scaled_iff.2 ((zpow_le_zpow_right₀ (by norm_num) (by omega)).trans hlow)
        apply le_roundedQuotient (scaled_pos hden e)
        rw [scaled_ratio]
        exact_mod_cast hscaled
    have hleast : leastExponent ≤ e := le_max_right _ _
    rw [ofRatio_of_rounded hnum he.symm hm.symm]
    split_ifs
    · trivial
    · exact ⟨by omega, by omega, by norm_num, Or.inl le_rfl⟩
    · trivial
    · exact ⟨hleast, by omega, by omega, hm52⟩

theorem canonical_ofDecimal (negative : Bool) (digits : ℕ) (exponent : ℤ) :
    (ofDecimal negative digits exponent).Canonical := by
  unfold ofDecimal
  simp only
  split_ifs
  · simp [Canonical, leastExponent, greatestExponent]
  · trivial
  · exact canonical_ofRatio (Nat.pow_pos (by decide))

end ThemeLocales.Binary64
