import ThemeLocales.Proofs.Number.Integer
import ThemeLocales.Proofs.Number.Shortest

/-!
# The range of doubles

A ratio rounds to a finite double just when it lies below the bound that is half a place above the
greatest double (`exists_ofRatio_finite`, `ofRatio_of_le`). A decimal does so too, whose exponent
may be of any size (`exists_ofDecimal_finite`, `ofDecimal_of_le`). Rounding keeps the sign. So a
rounded number can be waited for, as a time that is finite and not negative, just when it lies below
the bound and a minus stands in front of nothing but a zero (`isDuration_iff`,
`isDuration_ofRatio_iff`).
-/

set_option autoImplicit false

namespace ThemeLocales.Binary64

variable {num den digits : ℕ} {exponent : ℤ} {negative : Bool} {x : Binary64}

/-! ## Ratios -/

/-- The bound in units of the last place of the greatest double. -/
theorem cast_overflowBound : (overflowBound : ℚ) = (2 ^ 53 - 1 / 2) * 2 ^ greatestExponent := by
  obtain ⟨k, hk, hbound⟩ := exists_overflowBound_eq
  have hle : 2 ^ k ≤ 2 ^ 54 * 2 ^ k := Nat.le_mul_of_pos_left _ (by decide)
  rw [hbound, Nat.cast_sub hle, hk, zpow_add₀ (by norm_num), zpow_natCast, zpow_one]
  push_cast
  ring

theorem overflowBound_lt : (overflowBound : ℚ) < 2 ^ (53 + greatestExponent) := by
  rw [cast_overflowBound, zpow_add₀ (by norm_num)]
  exact mul_lt_mul_of_pos_right (by norm_num) (zpow_pos (by norm_num) _)

theorem le_overflowBound : (2 : ℚ) ^ (52 + greatestExponent) ≤ overflowBound := by
  rw [cast_overflowBound, zpow_add₀ (by norm_num)]
  exact mul_le_mul_of_nonneg_right (by norm_num) (zpow_pos (by norm_num) _).le

theorem overflowBound_pos : (0 : ℚ) < overflowBound :=
  (zpow_pos (by norm_num) _).trans_le le_overflowBound

/-- A ratio below the bound, in units of the last place of the greatest double. -/
theorem lt_overflowBound_iff (num den : ℕ) : (num : ℚ) / den < overflowBound ↔
    (num : ℚ) / den * 2 ^ (-greatestExponent) < 2 ^ 53 - 1 / 2 := by
  have hscale : (0 : ℚ) < 2 ^ greatestExponent := zpow_pos (by norm_num) _
  have hunits : (num : ℚ) / den * 2 ^ (-greatestExponent) * 2 ^ greatestExponent <
      (2 ^ 53 - 1 / 2) * 2 ^ greatestExponent ↔
        (num : ℚ) / den * 2 ^ (-greatestExponent) < 2 ^ 53 - 1 / 2 :=
    mul_lt_mul_iff_of_pos_right hscale
  rwa [scaled_back, ← cast_overflowBound] at hunits

/-- From the bound on, a ratio rounds to infinity. -/
theorem ofRatio_of_le (hden : 0 < den) (h : (overflowBound : ℚ) ≤ (num : ℚ) / den) :
    ofRatio negative num den = infinity negative := by
  have hnum : 0 < num := by
    rcases Nat.eq_zero_or_pos num with rfl | hnum
    · have hzero := overflowBound_pos.trans_le h
      simp at hzero
    · exact hnum
  have hlow : 52 + greatestExponent ≤ floorLog num den :=
    le_floorLog hnum hden (le_overflowBound.trans h)
  have hleast : leastExponent ≤ greatestExponent := by decide
  -- Either the ratio is too large as it is, or it becomes so when it is rounded.
  by_cases hlarge : (2 : ℚ) ^ (53 + greatestExponent) ≤ (num : ℚ) / den
  · have hlog := le_floorLog hnum hden hlarge
    have hgreat : greatestExponent < max (floorLog num den - 52) leastExponent :=
      lt_max_of_lt_left (by omega)
    rw [ofRatio_of_rounded hnum rfl rfl, if_pos hgreat, if_pos (hgreat.trans (lt_add_one _)),
      ite_self]
  · -- the last bit that is kept is rounded up, and one place more is too many
    rw [not_le] at hlarge
    have hhigh : floorLog num den < 53 + greatestExponent := floorLog_lt hnum hden hlarge
    have hplace : max (floorLog num den - 52) leastExponent = greatestExponent := by omega
    have hrounded : roundedQuotient (num * Nat.pow 2 (-greatestExponent).toNat)
        (den * Nat.pow 2 greatestExponent.toNat) = 2 ^ 53 := by
      refine roundedQuotient_eq (scaled_pos hden _) (Or.inr ⟨by decide, ?_⟩)
      have hbelow : (num : ℚ) / den * 2 ^ (-greatestExponent) < 2 ^ 53 := by
        exact_mod_cast scaled_lt_iff.2 hlarge
      rw [← not_lt, lt_overflowBound_iff, not_lt] at h
      rw [scaled_ratio]
      constructor
      · exact_mod_cast h
      · push_cast
        linarith
    rw [ofRatio_of_rounded hnum hplace hrounded, if_pos rfl, if_pos (lt_add_one _)]

/-- At the greatest exponent the last bits of a ratio below the bound are not rounded up to one
place more. -/
theorem roundedQuotient_ne_of_lt (hden : 0 < den) (h : (num : ℚ) / den < overflowBound) :
    roundedQuotient (num * Nat.pow 2 (-greatestExponent).toNat)
      (den * Nat.pow 2 greatestExponent.toNat) ≠ 2 ^ 53 := by
  intro hcarry
  have hden' : 0 < den * Nat.pow 2 greatestExponent.toNat := scaled_pos hden _
  have hnear := dist_roundedQuotient_le (num * Nat.pow 2 (-greatestExponent).toNat) hden'
    (2 ^ 53 - 1)
  rw [lt_overflowBound_iff, ← scaled_ratio, div_lt_iff₀ (by exact_mod_cast hden')] at h
  rw [hcarry] at hnear
  generalize num * Nat.pow 2 (-greatestExponent).toNat = a at h hnear
  generalize den * Nat.pow 2 greatestExponent.toNat = b at h hnear hden'
  have htwice : 2 * a + b < 2 ^ 54 * b := by
    have htwice' : (2 * a + b : ℚ) < 2 ^ 54 * b := by linarith
    exact_mod_cast htwice'
  unfold Nat.dist at hnear
  omega

/-- Below the bound, a ratio rounds to a finite double of its sign. -/
theorem exists_ofRatio_finite (negative : Bool) (hden : 0 < den)
    (h : (num : ℚ) / den < overflowBound) :
    ∃ m e, ofRatio negative num den = finite negative m e := by
  rcases Nat.eq_zero_or_pos num with rfl | hnum
  · exact ⟨0, leastExponent, by simp [ofRatio]⟩
  · have hlog : floorLog num den < 53 + greatestExponent :=
      floorLog_lt hnum hden (h.trans overflowBound_lt)
    have hleast : leastExponent ≤ greatestExponent := by decide
    generalize he : max (floorLog num den - 52) leastExponent = e
    have hle : e ≤ greatestExponent := by omega
    rw [ofRatio_of_rounded hnum he rfl]
    split_ifs with hcarry hover hover
    · obtain rfl : e = greatestExponent := by omega
      exact absurd hcarry (roundedQuotient_ne_of_lt hden h)
    · exact ⟨_, _, rfl⟩
    · omega
    · exact ⟨_, _, rfl⟩

/-- The value of a double is more than one below the bound. -/
theorem add_one_lt_overflowBound {m : ℕ} {e : ℤ} (hc : (finite negative m e).Canonical) :
    (m : ℚ) * 2 ^ e + 1 < overflowBound := by
  obtain ⟨-, he, hm, -⟩ := hc
  have hscale : (0 : ℚ) < 2 ^ e := zpow_pos (by norm_num) e
  have hpow : (2 : ℚ) ^ e ≤ 2 ^ greatestExponent := zpow_le_zpow_right₀ (by norm_num) he
  have hlarge : (2 : ℚ) ^ (2 : ℤ) ≤ 2 ^ greatestExponent :=
    zpow_le_zpow_right₀ (by norm_num) (by decide)
  have hm' : (m : ℚ) ≤ 2 ^ 53 - 1 := by
    have hlt : (m : ℚ) + 1 ≤ 2 ^ 53 := by exact_mod_cast hm
    linarith
  have hvalue : (m : ℚ) * 2 ^ e ≤ (2 ^ 53 - 1) * 2 ^ greatestExponent :=
    mul_le_mul hm' hpow hscale.le (by norm_num)
  rw [cast_overflowBound]
  generalize (2 : ℚ) ^ greatestExponent = scale at hvalue hlarge ⊢
  norm_num at hlarge
  linarith

/-! ## Decimals -/

theorem overflowBound_le_ten_pow : (overflowBound : ℚ) ≤ 10 ^ (400 : ℤ) := by
  have hexponent : 53 + greatestExponent ≤ 1200 := by decide
  exact overflowBound_lt.le.trans ((zpow_le_zpow_right₀ (by norm_num) hexponent).trans
    two_pow_lt_ten_pow.le)

/-- From the bound on, a decimal rounds to infinity. -/
theorem ofDecimal_of_le (h : (overflowBound : ℚ) ≤ digits * 10 ^ exponent) :
    ofDecimal negative digits exponent = infinity negative := by
  have hdigits : digits ≠ 0 := by
    rintro rfl
    rw [Nat.cast_zero, zero_mul] at h
    exact absurd h (not_le.2 overflowBound_pos)
  have hlow : ¬ (digitCount digits : ℤ) + exponent < -400 := by
    intro hsmall
    have hone : (10 : ℚ) ^ ((digitCount digits : ℤ) + exponent) ≤ 1 :=
      zpow_le_one_of_nonpos₀ (by norm_num) (by omega)
    have hbound : (1 : ℚ) ≤ overflowBound :=
      (one_le_zpow₀ (by norm_num) (by decide)).trans le_overflowBound
    exact absurd ((h.trans_lt (decimal_lt digits exponent)).trans_le (hone.trans hbound))
      (lt_irrefl _)
  unfold ofDecimal
  simp only [hdigits, hlow, decide_false, Bool.or_self, Bool.false_eq_true, if_false]
  split
  · rfl
  · rw [decimal_eq_ratio] at h
    exact ofRatio_of_le (Nat.pow_pos (by decide)) h

/-- Below the bound, a decimal rounds to a finite double of its sign. -/
theorem exists_ofDecimal_finite (negative : Bool)
    (h : (digits : ℚ) * 10 ^ exponent < overflowBound) :
    ∃ m e, ofDecimal negative digits exponent = finite negative m e := by
  unfold ofDecimal
  simp only
  split_ifs with hzero hlarge
  · exact ⟨0, leastExponent, rfl⟩
  · -- a decimal with so many digits before the point is beyond the bound
    exfalso
    rw [Bool.or_eq_true, not_or, decide_eq_true_eq] at hzero
    have hleast := le_decimal (Nat.pos_of_ne_zero hzero.1) exponent
    have hbound : (10 : ℚ) ^ (400 : ℤ) ≤ 10 ^ ((digitCount digits : ℤ) - 1 + exponent) :=
      zpow_le_zpow_right₀ (by norm_num) (by omega)
    exact absurd ((overflowBound_le_ten_pow.trans hbound).trans hleast) (not_le.2 h)
  · rw [decimal_eq_ratio] at h
    exact exists_ofRatio_finite negative (Nat.pow_pos (by decide)) h

/-! ## Times to wait -/

/-- A finite number that is not negative. -/
def IsDuration (x : Binary64) : Prop :=
  ∃ q, x.toRat? = some q ∧ 0 ≤ q

theorem not_isDuration_nan : ¬ IsDuration nan := by
  rintro ⟨q, hq, -⟩
  cases hq

theorem not_isDuration_infinity (negative : Bool) : ¬ IsDuration (infinity negative) := by
  rintro ⟨q, hq, -⟩
  cases hq

/-- The value of a finite double. -/
theorem toRat?_finite (negative : Bool) (m : ℕ) (e : ℤ) : (finite negative m e).toRat? =
    some (if negative then -((m : ℚ) * 2 ^ e) else (m : ℚ) * 2 ^ e) := by
  have hpow := zpow_eq_div (b := 2) (by decide) e
  push_cast at hpow
  simp only [toRat?, Option.some.injEq, Rat.mkRat_eq_div]
  push_cast
  rw [hpow, mul_div_assoc]

/-- A finite double is no duration when it has a minus and is not zero. -/
theorem isDuration_iff (x : Binary64) : IsDuration x ↔
    x.toRat?.isSome = true ∧ (x.isNegative = true → x.isZero = true) := by
  cases x with
  | nan => exact iff_of_false not_isDuration_nan fun h => absurd h.1 (by simp [toRat?])
  | infinity negative =>
    exact iff_of_false (not_isDuration_infinity negative) fun h => absurd h.1 (by simp [toRat?])
  | finite negative m e =>
    have hscale : (0 : ℚ) < 2 ^ e := zpow_pos (by norm_num) e
    have hsome : (finite negative m e).toRat?.isSome = true := by rw [toRat?_finite]; rfl
    rw [and_iff_right hsome, IsDuration, toRat?_finite]
    cases negative with
    | false => simpa [isNegative] using mul_nonneg (Nat.cast_nonneg m) hscale.le
    | true =>
      simp only [if_true, Option.some.injEq, exists_eq_left', isNegative, isZero, beq_iff_eq,
        forall_const, neg_nonneg]
      constructor
      · intro h
        by_contra hm
        have hpos : (0 : ℚ) < m := by exact_mod_cast Nat.pos_of_ne_zero hm
        exact absurd (mul_pos hpos hscale) (not_lt.2 h)
      · rintro rfl
        simp

/-- A double that is finite while some value is below the bound, and infinite from there on, with
one sign in both cases, tells by being finite that the value is below the bound. -/
theorem isSome_toRat?_iff_of_rounded {q : ℚ}
    (hfinite : q < overflowBound → ∃ m e, x = finite negative m e)
    (hinfinite : (overflowBound : ℚ) ≤ q → x = infinity negative) :
    x.isNegative = negative ∧ (x.toRat?.isSome = true ↔ q < overflowBound) := by
  rcases lt_or_ge q overflowBound with h | h
  · obtain ⟨m, e, rfl⟩ := hfinite h
    exact ⟨rfl, iff_of_true (by rw [toRat?_finite]; rfl) h⟩
  · obtain rfl := hinfinite h
    exact ⟨rfl, iff_of_false (by simp [toRat?]) (not_lt.2 h)⟩

/-- Rounding keeps the sign of a ratio, and its value below the bound. -/
theorem isSome_toRat?_ofRatio_iff (negative : Bool) (num : ℕ) (hden : 0 < den) :
    (ofRatio negative num den).isNegative = negative ∧
      ((ofRatio negative num den).toRat?.isSome = true ↔ (num : ℚ) / den < overflowBound) :=
  isSome_toRat?_iff_of_rounded (exists_ofRatio_finite negative hden) (ofRatio_of_le hden)

/-- Rounding keeps the sign of a decimal, and its value below the bound. -/
theorem isSome_toRat?_ofDecimal_iff (negative : Bool) (digits : ℕ) (exponent : ℤ) :
    (ofDecimal negative digits exponent).isNegative = negative ∧
      ((ofDecimal negative digits exponent).toRat?.isSome = true ↔
        (digits : ℚ) * 10 ^ exponent < overflowBound) :=
  isSome_toRat?_iff_of_rounded (exists_ofDecimal_finite negative) ofDecimal_of_le

theorem isDuration_ofRatio_iff (hden : 0 < den) : IsDuration (ofRatio negative num den) ↔
    (num : ℚ) / den < overflowBound ∧
      (negative = true → (ofRatio negative num den).isZero = true) := by
  obtain ⟨hsign, hsome⟩ := isSome_toRat?_ofRatio_iff negative num hden
  rw [isDuration_iff, hsome, hsign]

/-- A rational that is not negative and below the bound can be waited for. -/
theorem isDuration_ofRat {r : ℚ} (hpos : 0 ≤ r) (h : r < overflowBound) : IsDuration (ofRat r) := by
  have hnum : 0 ≤ r.num := Rat.num_nonneg.2 hpos
  have hplus : decide (r.num < 0) = false := by simpa using hnum
  have hratio : ((r.num.natAbs : ℕ) : ℚ) / (r.den : ℕ) = r := by
    rw [Nat.cast_natAbs, abs_of_nonneg hnum, Rat.num_div_den]
  rw [ofRat, hplus, isDuration_ofRatio_iff r.pos, hratio]
  exact ⟨h, by simp⟩

end ThemeLocales.Binary64
