import ThemeLocales.Proofs.Number.Range
import ThemeLocales.Provider.Retry

/-!
# Delays that double

The delay before another attempt is a power of two, plus the jitter. A double holds the powers of
two up to the one with exponent 1023 exactly (`toRat?_twoTo`), so the first 1024 delays are what
they should be (`backoff_of_le`). The next one is no double any more, and instead of waiting the
computation of the delay fails (`backoff_of_lt`).
-/

set_option autoImplicit false

namespace ThemeLocales

namespace Binary64

variable {num den m : ℕ} {e : ℤ} {negative : Bool}

/-- A ratio that is the value of a double rounds to it. -/
theorem ofRatio_of_value (hden : 0 < den) (hm : 0 < m) (hc : (finite negative m e).Canonical)
    (h : (num : ℚ) / den = m * 2 ^ e) : ofRatio negative num den = finite negative m e := by
  refine ofRatio_eq hden hm hc ?_
  have hmid : (num : ℚ) / den * 2 ^ (-e) * 4 = ((interval m e).mid : ℕ) := by
    have hcancel : (m : ℚ) * 2 ^ e * 2 ^ (-e) = m := by
      have := scaled_back (m : ℚ) (-e)
      rwa [neg_neg] at this
    rw [h, hcancel]
    simp [interval, mul_comm]
  rw [hmid]
  exact interval_holds_mid hm

theorem two_pow_split (k : ℕ) :
    ((2 ^ 52 : ℕ) : ℚ) * 2 ^ ((k : ℤ) - 52) = 2 ^ k := by
  rw [Nat.cast_pow, Nat.cast_ofNat, ← zpow_natCast (2 : ℚ) 52, ← zpow_add₀ (by norm_num),
    ← zpow_natCast (2 : ℚ) k]
  congr 1
  omega

/-- A power of two as a double. -/
def twoTo (k : ℕ) : Binary64 :=
  finite false (2 ^ 52) (k - 52)

/-- The exact value of a power of two. -/
theorem toRat?_twoTo (k : ℕ) : (twoTo k).toRat? = some (2 ^ k) := by
  rw [twoTo, toRat?_finite, if_neg (by decide), two_pow_split]

end Binary64

namespace Provider.Retry

open Binary64

theorem doubleOf_pow {k : ℕ} (h : k ≤ 1023) : doubleOf ((2 ^ k : ℕ) : ℤ) = .ok (twoTo k) := by
  have hcanonical : (finite false (2 ^ 52) ((k : ℤ) - 52)).Canonical := by
    refine ⟨?_, ?_, by decide, .inl le_rfl⟩
    · unfold leastExponent
      omega
    · unfold greatestExponent
      omega
  have hvalue : ((2 ^ k : ℕ) : ℚ) / ((1 : ℕ) : ℚ) = ((2 ^ 52 : ℕ) : ℚ) * 2 ^ ((k : ℤ) - 52) := by
    rw [two_pow_split, Nat.cast_one, div_one, Nat.cast_pow, Nat.cast_ofNat]
  have hsign : decide (((2 ^ k : ℕ) : ℤ) < 0) = false := by simp
  rw [doubleOf, ofInt?, hsign, Int.natAbs_natCast,
    ofRatio_of_value one_pos (by positivity) hcanonical hvalue]
  rfl

theorem doubleOf_pow_of_lt {k : ℕ} (h : 1023 < k) :
    doubleOf ((2 ^ k : ℕ) : ℤ) = .error .overflow := by
  have hsign : decide (((2 ^ k : ℕ) : ℤ) < 0) = false := by simp
  have hlarge : (overflowBound : ℚ) ≤ ((2 ^ k : ℕ) : ℚ) / ((1 : ℕ) : ℚ) := by
    have hexponent : 53 + greatestExponent ≤ k := by
      unfold greatestExponent
      omega
    rw [Nat.cast_one, div_one, Nat.cast_pow, Nat.cast_ofNat, ← zpow_natCast (2 : ℚ) k]
    exact overflowBound_lt.le.trans (zpow_le_zpow_right₀ (by norm_num) hexponent)
  rw [doubleOf, ofInt?, hsign, Int.natAbs_natCast, ofRatio_of_le one_pos hlarge]

/-- The base delay of one second, doubled. -/
theorem scaled_one (k : ℕ) : scaled (.int 1) ((k : ℤ) + 1) = doubleOf ((2 ^ k : ℕ) : ℤ) := by
  have hfirst : 1 ≤ (k : ℤ) + 1 := by omega
  have hexponent : ((k : ℤ) + 1 - 1).toNat = k := by omega
  rw [scaled, if_pos hfirst, hexponent, one_mul]
  rfl

/-- The delay after so many attempts that were followed by another one. -/
def delay (jitter : Binary64) (k : ℕ) : Document :=
  .real ((twoTo k).add jitter)

theorem backoff_of_le {k : ℕ} (h : k ≤ 1023) (jitter : Binary64) :
    backoff jitter (.int 1) ((k : ℤ) + 1) = .ok (delay jitter k) := by
  rw [backoff, scaled_one, doubleOf_pow h]
  rfl

theorem backoff_of_lt {k : ℕ} (h : 1023 < k) (jitter : Binary64) :
    backoff jitter (.int 1) ((k : ℤ) + 1) = .error .overflow := by
  rw [backoff, scaled_one, doubleOf_pow_of_lt h]
  rfl

end Provider.Retry

end ThemeLocales
