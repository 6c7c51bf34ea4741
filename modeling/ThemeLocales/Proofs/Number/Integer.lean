import Mathlib.Data.Nat.Dist
import ThemeLocales.Proofs.Number.Digits
import ThemeLocales.Number.Reading
import ThemeLocales.Proofs.Number.Rounding

/-!
# Integers that doubles are

A natural is exact when a double has its value. Rounding takes a natural to the multiple of a power
of two that is nearest to it, at fifty-three significant bits (`toInt?_ofRatio_one`). The result is
exact, no exact natural is nearer (`dist_nearestNatural_le`), and it is the natural itself just when
that is exact (`nearestNatural_eq_iff`). From half a place above the greatest double on, rounding
gives infinity (`ofRatio_one_of_le`).
-/

set_option autoImplicit false

namespace ThemeLocales.Binary64

/-- A double has this value. -/
def Exact (n : ℕ) : Prop :=
  ∃ m e : ℕ, n = m * 2 ^ e ∧ m < 2 ^ 53 ∧ e ≤ greatestExponent

/-- Half a place above the greatest double. -/
def overflowBound : ℕ :=
  2 ^ 54 * 2 ^ (greatestExponent.toNat - 1) - 2 ^ (greatestExponent.toNat - 1)

/-- The power of two whose multiples have the place of the last of fifty-three significant bits. -/
def lastPlace (n : ℕ) : ℕ :=
  2 ^ (Nat.log2 n - 52)

/-- The natural with fifty-three significant bits that is nearest to a natural. -/
def nearestNatural (n : ℕ) : ℕ :=
  roundedQuotient n (lastPlace n) * lastPlace n

/-- The greatest double has its last bit one place above the half. -/
theorem exists_overflowBound_eq :
    ∃ k : ℕ, greatestExponent = k + 1 ∧ overflowBound = 2 ^ 54 * 2 ^ k - 2 ^ k :=
  ⟨greatestExponent.toNat - 1, by decide, rfl⟩

theorem lastPlace_pos (n : ℕ) : 0 < lastPlace n :=
  Nat.two_pow_pos _

/-! ## Rounded quotients -/

/-- No multiple of the divisor is nearer than that by the rounded quotient. -/
theorem dist_roundedQuotient_le (num : ℕ) {den : ℕ} (hden : 0 < den) (q : ℕ) :
    Nat.dist num (roundedQuotient num den * den) ≤ Nat.dist num (q * den) := by
  have hsplit : den * (num / den) + num % den = num := Nat.div_add_mod num den
  have hrest : num % den < den := Nat.mod_lt _ hden
  have hup : (num / den + 1) * den = den * (num / den) + den := by
    rw [Nat.add_mul, Nat.one_mul, Nat.mul_comm]
  have hdown : num / den * den = den * (num / den) := Nat.mul_comm _ _
  -- a multiple is not above the one by the quotient, or not below the next one
  have hfar : q * den ≤ den * (num / den) ∨ den * (num / den) + den ≤ q * den := by
    rcases Nat.lt_or_ge (num / den) q with hq | hq
    · exact Or.inr (hup ▸ Nat.mul_le_mul_right den hq)
    · exact Or.inl (hdown ▸ Nat.mul_le_mul_right den hq)
  unfold roundedQuotient Nat.dist
  simp only
  split_ifs <;> omega

theorem roundedQuotient_one (n : ℕ) : roundedQuotient n 1 = n := by
  simp [roundedQuotient, Nat.mod_one]

/-- A quotient between two naturals is rounded to one between them. -/
theorem roundedQuotient_mem {num den a b : ℕ} (hden : 0 < den) (ha : a * den ≤ num)
    (hb : num < b * den) : a ≤ roundedQuotient num den ∧ roundedQuotient num den ≤ b := by
  have hlow : a ≤ num / den := (Nat.le_div_iff_mul_le hden).2 ha
  have hhigh : num / den < b := (Nat.div_lt_iff_lt_mul hden).2 hb
  unfold roundedQuotient
  simp only
  split_ifs <;> omega

/-- The greatest significand is odd, so from half a place above it on the quotient is rounded up. -/
theorem roundedQuotient_carry {num half : ℕ} (hlow : 2 ^ 54 * half - half ≤ num)
    (hhigh : num < 2 ^ 53 * (2 * half)) : roundedQuotient num (2 * half) = 2 ^ 53 := by
  have hquotient : num / (2 * half) = 2 ^ 53 - 1 := Nat.div_eq_of_lt_le (by omega) (by omega)
  have hsplit := Nat.div_add_mod num (2 * half)
  rw [hquotient, Nat.mul_comm, Nat.sub_one_mul] at hsplit
  unfold roundedQuotient
  simp only [hquotient]
  split_ifs with hbelow habove heven
  · omega
  · omega
  · cases heven
  · omega

/-! ## The nearest natural -/

theorem lastPlace_of_lt {n : ℕ} (h : n < 2 ^ 53) : lastPlace n = 1 := by
  have hlog : Nat.log2 n ≤ 52 := by
    rcases Nat.eq_zero_or_pos n with rfl | hn
    · decide
    · exact Nat.le_of_lt_succ ((Nat.log2_lt hn.ne').2 h)
  rw [lastPlace, Nat.sub_eq_zero_of_le hlog, pow_zero]

/-- What has no more than fifty-three bits keeps all of them. -/
theorem nearestNatural_of_lt {n : ℕ} (h : n < 2 ^ 53) : nearestNatural n = n := by
  rw [nearestNatural, lastPlace_of_lt h, roundedQuotient_one, Nat.mul_one]

/-- A longer natural has fifty-three places from its first bit to the last place that is kept. -/
theorem mul_lastPlace_le {n : ℕ} (h : 2 ^ 53 ≤ n) :
    2 ^ 52 * lastPlace n ≤ n ∧ n < 2 ^ 53 * lastPlace n := by
  have hn : n ≠ 0 := by
    have := Nat.two_pow_pos 53
    omega
  have hlog : 53 ≤ Nat.log2 n := (Nat.le_log2 hn).2 h
  rw [lastPlace, ← pow_add, ← pow_add, show 52 + (Nat.log2 n - 52) = Nat.log2 n by omega,
    show 53 + (Nat.log2 n - 52) = Nat.log2 n + 1 by omega]
  exact ⟨Nat.log2_self_le hn, Nat.lt_log2_self⟩

/-- An exact natural that is no smaller than the first bit of a natural is a multiple of its last
place. -/
theorem lastPlace_dvd {n w : ℕ} (h : 2 ^ 52 * lastPlace n ≤ w) (hw : Exact w) :
    lastPlace n ∣ w := by
  obtain ⟨m, e, rfl, hm, -⟩ := hw
  rw [lastPlace] at h ⊢
  refine Dvd.dvd.mul_left (pow_dvd_pow 2 ?_) m
  by_contra hlt
  have hpow : 2 ^ (e + 1) ≤ 2 ^ (Nat.log2 n - 52) := Nat.pow_le_pow_right (by decide) (by omega)
  have hscaled : m * 2 ^ e < 2 ^ 53 * 2 ^ e := Nat.mul_lt_mul_of_pos_right hm (Nat.two_pow_pos e)
  rw [pow_succ] at hpow
  omega

/-- No exact natural is nearer. -/
theorem dist_nearestNatural_le (n : ℕ) {w : ℕ} (hw : Exact w) :
    Nat.dist n (nearestNatural n) ≤ Nat.dist n w := by
  rcases Nat.lt_or_ge n (2 ^ 53) with hsmall | hlarge
  · rw [nearestNatural_of_lt hsmall, Nat.dist_self]
    exact Nat.zero_le _
  · obtain ⟨hfirst, -⟩ := mul_lastPlace_le hlarge
    have hnearest := dist_roundedQuotient_le n (lastPlace_pos n)
    rcases Nat.lt_or_ge w (2 ^ 52 * lastPlace n) with hbelow | habove
    · -- the natural with only the first bit is a multiple of the last place and between the two
      have h := hnearest (2 ^ 52)
      rw [← nearestNatural] at h
      unfold Nat.dist at h ⊢
      omega
    · obtain ⟨q, rfl⟩ := lastPlace_dvd habove hw
      have h := hnearest q
      rwa [Nat.mul_comm q, ← nearestNatural] at h

/-- Below the bound the last place is one that doubles have, and at the greatest one the last bits
are not rounded up to a further place. -/
theorem rounded_lt_overflowBound {n : ℕ} (hlarge : 2 ^ 53 ≤ n) (h : n < overflowBound) :
    (Nat.log2 n - 52 : ℕ) < greatestExponent ∨ (Nat.log2 n - 52 : ℕ) = greatestExponent ∧
      roundedQuotient n (lastPlace n) < 2 ^ 53 := by
  obtain ⟨k, hk, hbound⟩ := exists_overflowBound_eq
  have hplace := mul_lastPlace_le hlarge
  rw [hk]
  rw [hbound] at h
  rcases Nat.lt_trichotomy (Nat.log2 n - 52) (k + 1) with hlt | heq | hgt
  · exact Or.inl (by exact_mod_cast hlt)
  · refine Or.inr ⟨by exact_mod_cast heq, ?_⟩
    have hden : lastPlace n = 2 * 2 ^ k := by rw [lastPlace, heq, pow_succ, Nat.mul_comm]
    have hnearest := dist_roundedQuotient_le n (lastPlace_pos n) (2 ^ 53 - 1)
    have hbetween := roundedQuotient_mem (lastPlace_pos n) hplace.1 hplace.2
    by_contra hnot
    rw [show roundedQuotient n (lastPlace n) = 2 ^ 53 by omega, hden] at hnearest
    rw [hden] at hplace
    unfold Nat.dist at hnearest
    omega
  · exfalso
    have hpow : 2 ^ k * 2 ^ 2 ≤ lastPlace n := by
      rw [← pow_add]
      exact Nat.pow_le_pow_right (by decide) hgt
    omega

/-- Below the bound the nearest natural is exact. -/
theorem exact_nearestNatural {n : ℕ} (h : n < overflowBound) : Exact (nearestNatural n) := by
  rcases Nat.lt_or_ge n (2 ^ 53) with hsmall | hlarge
  · rw [nearestNatural_of_lt hsmall]
    exact ⟨n, 0, (Nat.mul_one n).symm, hsmall, by decide⟩
  · have hplace := mul_lastPlace_le hlarge
    have hbetween := roundedQuotient_mem (lastPlace_pos n) hplace.1 hplace.2
    have hfits := rounded_lt_overflowBound hlarge h
    rcases Nat.lt_or_eq_of_le hbetween.2 with hlt | heq
    · exact ⟨_, Nat.log2 n - 52, rfl, hlt, by omega⟩
    · refine ⟨2 ^ 52, Nat.log2 n - 52 + 1, ?_, by decide, by omega⟩
      rw [nearestNatural, heq, lastPlace, pow_succ _ (Nat.log2 n - 52)]
      omega

/-- No exact natural reaches the bound. -/
theorem Exact.lt_overflowBound {n : ℕ} (h : Exact n) : n < overflowBound := by
  obtain ⟨k, hk, hbound⟩ := exists_overflowBound_eq
  obtain ⟨m, e, rfl, hm, he⟩ := h
  have hpow : 2 ^ e ≤ 2 ^ k * 2 := by
    rw [← pow_succ]
    exact Nat.pow_le_pow_right (by decide) (by omega)
  have hle : m * 2 ^ e ≤ (2 ^ 53 - 1) * (2 ^ k * 2) := Nat.mul_le_mul (by omega) hpow
  have hpos : 0 < 2 ^ k := Nat.two_pow_pos k
  rw [hbound]
  omega

/-- Below the bound just the exact naturals are nearest to themselves. -/
theorem nearestNatural_eq_iff {n : ℕ} (h : n < overflowBound) :
    nearestNatural n = n ↔ Exact n := by
  refine ⟨fun heq => heq ▸ exact_nearestNatural h, fun hexact => ?_⟩
  have hnear := dist_nearestNatural_le n hexact
  rw [Nat.dist_self, Nat.le_zero] at hnear
  exact (Nat.eq_of_dist_eq_zero hnear).symm

/-! ## Doubles of naturals -/

theorem floorLog_one {n : ℕ} (hn : n ≠ 0) : floorLog n 1 = Nat.log2 n := by
  have hself : 2 ^ Nat.log2 n ≤ n := Nat.log2_self_le hn
  have hone : Nat.log2 1 = 0 := by decide
  simp [floorLog, hone, hself]

theorem toInt?_zero (negative : Bool) (e : ℤ) : (finite negative 0 e).toInt? = some 0 := by
  simp [toInt?]

/-- A double with whole units is an integer. -/
theorem toInt?_whole (negative : Bool) (m e : ℕ) :
    (finite negative m e).toInt? = some (Number.signed negative (m * 2 ^ e)) := by
  simp [toInt?, Number.signed, Nat.mod_one]

/-- So is one whose significand makes up for a fraction of a unit. -/
theorem toInt?_scaled (negative : Bool) (n e : ℕ) :
    (finite negative (n * 2 ^ e) (-e)).toInt? = some (Number.signed negative n) := by
  have hpow : 0 < 2 ^ e := Nat.two_pow_pos e
  simp [toInt?, Number.signed, Nat.mul_div_cancel _ hpow]

/-- The double of a natural that has more bits than doubles keep. -/
theorem ofRatio_one_of_ge {n : ℕ} (negative : Bool) (hlarge : 2 ^ 53 ≤ n) :
    ofRatio negative n 1 =
      if roundedQuotient n (lastPlace n) = 2 ^ 53 then
        if greatestExponent < (Nat.log2 n - 52 + 1 : ℕ) then infinity negative
        else finite negative (2 ^ 52) (Nat.log2 n - 52 + 1 : ℕ)
      else if greatestExponent < (Nat.log2 n - 52 : ℕ) then infinity negative
      else finite negative (roundedQuotient n (lastPlace n)) (Nat.log2 n - 52 : ℕ) := by
  have hn : n ≠ 0 := by
    have := Nat.two_pow_pos 53
    omega
  have hlog : 53 ≤ Nat.log2 n := (Nat.le_log2 hn).2 hlarge
  have hplace : max (floorLog n 1 - 52) leastExponent = (Nat.log2 n - 52 : ℕ) := by
    rw [floorLog_one hn, leastExponent]
    omega
  have hquotient : roundedQuotient (n * Nat.pow 2 (-((Nat.log2 n - 52 : ℕ) : ℤ)).toNat)
      (1 * Nat.pow 2 ((Nat.log2 n - 52 : ℕ) : ℤ).toNat) = roundedQuotient n (lastPlace n) := by
    simp [lastPlace]
  rw [ofRatio_of_rounded (by omega) hplace hquotient]
  push_cast
  rfl

/-- The double of a natural that has no more bits than doubles keep: the natural itself, with a
significand of full length. -/
theorem ofRatio_one_of_lt {n : ℕ} (negative : Bool) (hn : 0 < n) (hsmall : n < 2 ^ 53) :
    ofRatio negative n 1 =
      finite negative (n * 2 ^ (52 - Nat.log2 n)) (-((52 - Nat.log2 n : ℕ) : ℤ)) := by
  have hlog : Nat.log2 n ≤ 52 := Nat.le_of_lt_succ ((Nat.log2_lt hn.ne').2 hsmall)
  have hplace : max (floorLog n 1 - 52) leastExponent = -((52 - Nat.log2 n : ℕ) : ℤ) := by
    rw [floorLog_one hn.ne', leastExponent]
    omega
  -- shifting the natural to full length leaves nothing to round
  have hshort : n * 2 ^ (52 - Nat.log2 n) < 2 ^ 53 := by
    have hself : n < 2 ^ (Nat.log2 n + 1) := Nat.lt_log2_self
    calc n * 2 ^ (52 - Nat.log2 n) < 2 ^ (Nat.log2 n + 1) * 2 ^ (52 - Nat.log2 n) :=
          Nat.mul_lt_mul_of_pos_right hself (Nat.two_pow_pos _)
      _ = 2 ^ 53 := by rw [← pow_add, show Nat.log2 n + 1 + (52 - Nat.log2 n) = 53 by omega]
  have hquotient : roundedQuotient
      (n * Nat.pow 2 (- -((52 - Nat.log2 n : ℕ) : ℤ)).toNat)
      (1 * Nat.pow 2 (-((52 - Nat.log2 n : ℕ) : ℤ)).toNat) = n * 2 ^ (52 - Nat.log2 n) := by
    simp [roundedQuotient_one]
  have hgreatest : ¬ greatestExponent < -((52 - Nat.log2 n : ℕ) : ℤ) := by
    rw [greatestExponent]
    omega
  rw [ofRatio_of_rounded hn hplace hquotient, if_neg hshort.ne, if_neg hgreatest]

/-- Below the bound the double of a natural is the nearest natural. -/
theorem toInt?_ofRatio_one {n : ℕ} (negative : Bool) (h : n < overflowBound) :
    (ofRatio negative n 1).toInt? = some (Number.signed negative (nearestNatural n)) := by
  rcases Nat.lt_or_ge n (2 ^ 53) with hsmall | hlarge
  · rw [nearestNatural_of_lt hsmall]
    rcases Nat.eq_zero_or_pos n with rfl | hn
    · rw [ofRatio, if_pos rfl, toInt?_zero]
      cases negative <;> rfl
    · rw [ofRatio_one_of_lt negative hn hsmall, toInt?_scaled]
  · have hfits := rounded_lt_overflowBound hlarge h
    rw [ofRatio_one_of_ge negative hlarge]
    split_ifs with hcarry hinfinite hinfinite
    · omega
    · have hvalue : 2 ^ 52 * 2 ^ (Nat.log2 n - 52 + 1) = nearestNatural n := by
        rw [nearestNatural, hcarry, lastPlace, pow_succ _ (Nat.log2 n - 52)]
        omega
      rw [toInt?_whole, hvalue]
    · omega
    · rw [toInt?_whole, nearestNatural, lastPlace]

/-- From the bound on, the double of a natural is infinite. -/
theorem ofRatio_one_of_le {n : ℕ} (negative : Bool) (h : overflowBound ≤ n) :
    ofRatio negative n 1 = infinity negative := by
  obtain ⟨k, hk, hbound⟩ := exists_overflowBound_eq
  rw [hbound] at h
  have hpos : 0 < 2 ^ k := Nat.two_pow_pos k
  have hlarge : 2 ^ 53 ≤ n := by omega
  have hplace := mul_lastPlace_le hlarge
  rw [ofRatio_one_of_ge negative hlarge, hk]
  rcases Nat.lt_trichotomy (Nat.log2 n - 52) (k + 1) with hlt | heq | hgt
  · -- so short a natural is smaller than the bound
    exfalso
    have hpow : lastPlace n ≤ 2 ^ k := Nat.pow_le_pow_right (by decide) (by omega)
    omega
  · -- the last bit that is kept is rounded up, and one place more is too many
    have hden : lastPlace n = 2 * 2 ^ k := by rw [lastPlace, heq, pow_succ, Nat.mul_comm]
    have hcarry : roundedQuotient n (lastPlace n) = 2 ^ 53 := by
      rw [hden] at hplace ⊢
      exact roundedQuotient_carry h hplace.2
    have hover : ((k : ℤ) + 1 < (Nat.log2 n - 52 + 1 : ℕ)) := by omega
    rw [if_pos hcarry, if_pos hover]
  · have hover : (k : ℤ) + 1 < (Nat.log2 n - 52 : ℕ) := by omega
    have hover' : (k : ℤ) + 1 < (Nat.log2 n - 52 + 1 : ℕ) := by omega
    rw [if_pos hover, if_pos hover', ite_self]

/-! ## Decimals without a fraction -/

/-- What has more than four hundred decimal digits is beyond the bound. -/
theorem overflowBound_le_of_digitCount {n : ℕ} (h : 400 < digitCount n) : overflowBound ≤ n := by
  have hbound : overflowBound ≤ 10 ^ 400 := by decide +kernel
  have hfirst : 10 ^ 400 ≤ n := Nat.not_lt.1 (mt (digitCount_le_iff (by decide)).2 (Nat.not_le.2 h))
  exact hbound.trans hfirst

/-- A decimal without a fraction and an exponent is rounded as the natural that it is, however many
digits it has. -/
theorem ofDecimal_zero (negative : Bool) (n : ℕ) :
    ofDecimal negative n 0 = ofRatio negative n 1 := by
  rcases Nat.eq_zero_or_pos n with rfl | hn
  · rfl
  · have hdecimal : ofDecimal negative n 0 =
        if 400 < digitCount n then infinity negative else ofRatio negative n 1 := by
      have hlow : ¬ (digitCount n : ℤ) < -400 := by omega
      simp [ofDecimal, hn.ne', hlow]
    rw [hdecimal]
    split
    · next hlong => rw [ofRatio_one_of_le negative (overflowBound_le_of_digitCount hlong)]
    · rfl

end ThemeLocales.Binary64
