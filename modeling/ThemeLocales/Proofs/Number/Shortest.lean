import ThemeLocales.Proofs.Number.Digits
import ThemeLocales.Proofs.Number.Rounding

/-!
# The shortest decimal reads back

The decimal that the search finds lies in the rounding interval of the double (`shortest_holds`),
and every decimal in that interval reads back as the double (`ofDecimal_eq`). The search never ends
without a hit, since a grid of seventeen digits is finer than the grid of doubles.
-/

set_option autoImplicit false

namespace ThemeLocales.Binary64

variable {m point grid unit : ℕ} {e : ℤ} {i : Interval}

/-! ## One decimal grid -/

theorem contains_iff (hunit : 0 < unit) :
    i.contains point grid unit = true ↔ i.Holds (point * ((grid : ℚ) / unit)) := by
  have hunit' : (0 : ℚ) < unit := by exact_mod_cast hunit
  have hlow : i.low * unit < point * grid ↔ (i.low : ℚ) < point * ((grid : ℚ) / unit) := by
    rw [← mul_div_assoc, lt_div_iff₀ hunit']
    norm_cast
  have hhigh : point * grid < i.high * unit ↔ point * ((grid : ℚ) / unit) < i.high := by
    rw [← mul_div_assoc, div_lt_iff₀ hunit']
    norm_cast
  have heq : ∀ b : ℕ, point * grid = b * unit ↔ point * ((grid : ℚ) / unit) = b := by
    intro b
    rw [← mul_div_assoc, div_eq_iff hunit'.ne']
    norm_cast
  simp only [Interval.contains, Interval.Holds, Bool.or_eq_true, Bool.and_eq_true,
    decide_eq_true_eq, beq_iff_eq, hlow, hhigh, heq]

/-- A point that a grid offers lies in the interval. -/
theorem gridPoint?_holds (hunit : 0 < unit) (hmid : i.Holds i.mid)
    (h : gridPoint? i grid unit = some point) : i.Holds (point * ((grid : ℚ) / unit)) := by
  unfold gridPoint? at h
  simp only at h
  split_ifs at h with hrest hbelow habove
  · have hpoint : i.mid * unit / grid = point := by simpa using h
    have hunit' : (unit : ℚ) ≠ 0 := by exact_mod_cast hunit.ne'
    have hexact : (point : ℚ) * grid = i.mid * unit := by
      rw [← hpoint]
      exact_mod_cast Nat.div_mul_cancel (Nat.dvd_of_mod_eq_zero hrest)
    rwa [← mul_div_assoc, hexact, mul_div_cancel_right₀ _ hunit']
  · have hpoint : i.mid * unit / grid = point := by simpa using h
    rw [hpoint, Bool.and_eq_true] at hbelow
    exact (contains_iff hunit).1 hbelow.1
  · have hpoint : i.mid * unit / grid + 1 = point := by simpa using h
    rw [hpoint] at habove
    exact (contains_iff hunit).1 habove

/-- A grid that is fine enough offers a point. -/
theorem isSome_gridPoint? (hgrid : 0 < grid) (hlow : i.low ≤ i.mid)
    (hbelow : grid < 2 * ((i.mid - i.low) * unit))
    (habove : grid < 2 * ((i.high - i.mid) * unit)) : (gridPoint? i grid unit).isSome := by
  have hsplit : grid * (i.mid * unit / grid) + i.mid * unit % grid = i.mid * unit :=
    Nat.div_add_mod _ _
  have hrest : i.mid * unit % grid < grid := Nat.mod_lt _ hgrid
  rw [Nat.sub_mul] at hbelow habove
  have hlow' : i.low * unit ≤ i.mid * unit := Nat.mul_le_mul_right _ hlow
  have hhit : i.contains (i.mid * unit / grid) grid unit = true ∨
      i.contains (i.mid * unit / grid + 1) grid unit = true := by
    have hnext : (i.mid * unit / grid + 1) * grid = grid * (i.mid * unit / grid) + grid := by
      rw [Nat.add_mul, Nat.mul_comm, Nat.one_mul]
    have hthis : (i.mid * unit / grid) * grid = grid * (i.mid * unit / grid) := Nat.mul_comm _ _
    -- the nearer of the two points of the grid around the middle is inside
    rcases Nat.lt_or_ge grid (2 * (i.mid * unit % grid)) with hfar | hclose
    · right
      simp only [Interval.contains, hnext, Bool.or_eq_true, Bool.and_eq_true, decide_eq_true_eq]
      exact Or.inl ⟨by omega, by omega⟩
    · left
      simp only [Interval.contains, hthis, Bool.or_eq_true, Bool.and_eq_true, decide_eq_true_eq]
      exact Or.inl ⟨by omega, by omega⟩
  unfold gridPoint?
  simp only
  split_ifs with h₁ h₂ h₃
  · rfl
  · rfl
  · rfl
  · rcases hhit with hhit | hhit
    · simp [hhit, h₃] at h₂
    · exact absurd hhit h₃

/-! ## The search -/

/-- The width of a decimal grid in quarters of the unit of the last place. -/
theorem grid_ratio (place e : ℤ) :
    ((Nat.pow 10 place.toNat * Nat.pow 2 (2 - e).toNat : ℕ) : ℚ) /
      ((Nat.pow 2 (e - 2).toNat * Nat.pow 10 (-place).toNat : ℕ) : ℚ) =
      10 ^ place * 2 ^ (-e) * 4 := by
  have hten := zpow_eq_div (b := 10) (by decide) place
  have htwo := zpow_eq_div (b := 2) (by decide) (2 - e)
  rw [neg_sub] at htwo
  have hfour : (2 : ℚ) ^ (2 - e) = 2 ^ (-e) * 4 := by
    rw [sub_eq_add_neg, add_comm, zpow_add₀ (by norm_num)]
    norm_num
  push_cast at hten htwo ⊢
  rw [mul_assoc, ← hfour, hten, htwo, mul_comm ((Nat.pow 2 (e - 2).toNat : ℕ) : ℚ),
    mul_div_mul_comm]

theorem searchGrids_holds (magnitude : ℤ) (hmid : i.Holds i.mid) :
    ∀ fuel digits : ℕ, (∀ place : ℤ, place = magnitude - (digits + fuel : ℕ) + 1 →
      (gridPoint? i (Nat.pow 10 place.toNat * Nat.pow 2 (2 - e).toNat)
        (Nat.pow 2 (e - 2).toNat * Nat.pow 10 (-place).toNat)).isSome) →
    i.Holds ((searchGrids i e magnitude (fuel + 1) digits).1 *
      (10 ^ (searchGrids i e magnitude (fuel + 1) digits).2 * 2 ^ (-e) * 4)) := by
  have hunit : ∀ place : ℤ, 0 < Nat.pow 2 (e - 2).toNat * Nat.pow 10 (-place).toNat := fun _ =>
    Nat.mul_pos (Nat.pow_pos (by decide)) (Nat.pow_pos (by decide))
  intro fuel
  induction fuel with
  | zero =>
    intro digits hlast
    obtain ⟨point, hpoint⟩ := Option.isSome_iff_exists.1 (hlast _ rfl)
    simp only [Nat.add_zero] at hpoint
    simp only [searchGrids, hpoint]
    rw [← grid_ratio]
    exact gridPoint?_holds (hunit _) hmid hpoint
  | succ fuel ih =>
    intro digits hlast
    rw [searchGrids]
    split
    · next point hpoint =>
      rw [← grid_ratio]
      exact gridPoint?_holds (hunit _) hmid hpoint
    · exact ih (digits + 1) fun place hplace => hlast place (by rw [hplace]; congr 2; omega)

/-- The decimal logarithm of a ratio is not too great. -/
theorem pow_floorLogTen_le {num den : ℕ} (hnum : 0 < num) (hden : 0 < den) :
    (10 : ℚ) ^ floorLogTen num den ≤ (num : ℚ) / den := by
  have hden' : (0 : ℚ) < den := by exact_mod_cast hden
  unfold floorLogTen
  simp only
  rw [le_div_iff₀ hden']
  split_ifs with hle hplaces
  · have hquotient : 0 < num / den := Nat.div_pos hle hden
    have hcount := digitCount_pos (num / den)
    have hexp : ((digitCount (num / den) : ℤ) - 1) = ((digitCount (num / den) - 1 : ℕ) : ℤ) := by
      omega
    rw [hexp, zpow_natCast]
    have := Nat.mul_le_mul_right den (pow_pred_digitCount_le hquotient)
    exact_mod_cast this.trans (Nat.div_mul_le_self num den)
  · have hcount := digitCount_pos (den / num)
    have hexp : -((digitCount (den / num) : ℤ) - 1) = -((digitCount (den / num) - 1 : ℕ) : ℤ) := by
      omega
    rw [hexp, zpow_neg, zpow_natCast, inv_mul_le_iff₀ (by positivity), mul_comm]
    exact_mod_cast hplaces
  · rw [zpow_neg, zpow_natCast, inv_mul_le_iff₀ (by positivity), mul_comm]
    have := (Nat.div_lt_iff_lt_mul hnum).1 (lt_pow_digitCount (den / num))
    rw [Nat.mul_comm] at this
    exact_mod_cast this.le

/-- The exact value of a double as the ratio that the search is given. -/
theorem double_ratio (m : ℕ) (e : ℤ) :
    ((m * Nat.pow 2 e.toNat : ℕ) : ℚ) / ((Nat.pow 2 (-e).toNat : ℕ) : ℚ) = m * 2 ^ e := by
  have h := zpow_eq_div (b := 2) (by decide) e
  push_cast at h ⊢
  rw [h, mul_div_assoc]

theorem interval_holds_mid (hm : 0 < m) : (interval m e).Holds (interval m e).mid := by
  left
  constructor
  · have : (interval m e).low < (interval m e).mid := by
      unfold interval
      simp only
      split <;> omega
    exact_mod_cast this
  · have : (interval m e).mid < (interval m e).high := by
      unfold interval
      simp only
      omega
    exact_mod_cast this

/-- The width of a grid of seventeen digits against the unit of the last place. -/
theorem grid_width {place : ℤ} (h : (10 : ℚ) ^ (place + 16) ≤ m * 2 ^ e) :
    Nat.pow 10 place.toNat * Nat.pow 2 (2 - e).toNat * 10 ^ 16 ≤
      4 * (m * (Nat.pow 2 (e - 2).toNat * Nat.pow 10 (-place).toNat)) := by
  set grid := Nat.pow 10 place.toNat * Nat.pow 2 (2 - e).toNat with hgridDef
  set unit := Nat.pow 2 (e - 2).toNat * Nat.pow 10 (-place).toNat with hunitDef
  have hunit : 0 < unit := Nat.mul_pos (Nat.pow_pos (by decide)) (Nat.pow_pos (by decide))
  have hunit' : (0 : ℚ) < unit := by exact_mod_cast hunit
  have htwo : (0 : ℚ) < 2 ^ (-e) := zpow_pos (by norm_num) _
  have hscaled : (10 : ℚ) ^ (place + 16) * 2 ^ (-e) ≤ m := by
    have := mul_le_mul_of_nonneg_right h htwo.le
    rwa [← neg_neg e, neg_neg (-e), scaled_back] at this
  have hsixteen : (10 : ℚ) ^ (16 : ℤ) = 10 ^ 16 := by norm_num
  rw [zpow_add₀ (by norm_num), hsixteen] at hscaled
  have hwidth : (grid : ℚ) / unit * 10 ^ 16 ≤ 4 * m := by
    rw [hgridDef, hunitDef, grid_ratio]
    linarith
  rw [div_mul_eq_mul_div, div_le_iff₀ hunit', mul_assoc] at hwidth
  exact_mod_cast hwidth

/-- A grid of seventeen digits offers a point for every double. -/
theorem isSome_lastGrid {negative : Bool} (hm : 0 < m) (hc : (finite negative m e).Canonical)
    {place : ℤ} (h : (10 : ℚ) ^ (place + 16) ≤ m * 2 ^ e) :
    (gridPoint? (interval m e) (Nat.pow 10 place.toNat * Nat.pow 2 (2 - e).toNat)
      (Nat.pow 2 (e - 2).toNat * Nat.pow 10 (-place).toNat)).isSome := by
  obtain ⟨-, -, hm53, -⟩ := hc
  have hwidth := grid_width h
  have hgrid : 0 < Nat.pow 10 place.toNat * Nat.pow 2 (2 - e).toNat :=
    Nat.mul_pos (Nat.pow_pos (by decide)) (Nat.pow_pos (by decide))
  have hunit : 0 < Nat.pow 2 (e - 2).toNat * Nat.pow 10 (-place).toNat :=
    Nat.mul_pos (Nat.pow_pos (by decide)) (Nat.pow_pos (by decide))
  -- what remains is linear in the grid and the unit, for each of the two forms of the interval
  generalize Nat.pow 10 place.toNat * Nat.pow 2 (2 - e).toNat = grid at hwidth hgrid ⊢
  generalize Nat.pow 2 (e - 2).toNat * Nat.pow 10 (-place).toNat = unit at hwidth hunit ⊢
  have hm_unit : m * unit ≤ 2 ^ 53 * unit := Nat.mul_le_mul_right _ hm53.le
  have hpower : m = 2 ^ 52 → m * unit = 2 ^ 52 * unit := fun h => by rw [h]
  refine isSome_gridPoint? hgrid ?_ ?_ ?_
  · unfold interval
    simp only
    split <;> omega
  · unfold interval
    simp only
    split
    · next hat =>
      simp only [Nat.pow_eq, Bool.and_eq_true, decide_eq_true_eq] at hat
      have hone : 4 * m - (4 * m - 1) = 1 := by omega
      rw [hone, Nat.one_mul]
      have := hpower hat.1
      omega
    · have htwo : 4 * m - (4 * m - 2) = 2 := by omega
      rw [htwo]
      omega
  · have htwo : 4 * m + 2 - 4 * m = 2 := by omega
    simp only [interval, htwo]
    omega

/-- The shortest decimal of a double lies in its rounding interval. -/
theorem shortest_holds {negative : Bool} (hm : 0 < m) (hc : (finite negative m e).Canonical) :
    (interval m e).Holds ((shortest m e).1 * 10 ^ (shortest m e).2 * 2 ^ (-e) * 4) := by
  have hten : (10 : ℚ) ^ floorLogTen (m * Nat.pow 2 e.toNat) (Nat.pow 2 (-e).toNat) ≤ _ :=
    pow_floorLogTen_le (Nat.mul_pos hm (Nat.pow_pos (by decide))) (Nat.pow_pos (by decide))
  rw [double_ratio] at hten
  have h := searchGrids_holds (e := e)
    (floorLogTen (m * Nat.pow 2 e.toNat) (Nat.pow 2 (-e).toNat))
    (interval_holds_mid (e := e) hm) 16 1 ?_
  · rw [mul_assoc, mul_assoc, ← mul_assoc ((10 : ℚ) ^ _)]
    exact h
  · intro place hplace
    refine isSome_lastGrid hm hc ?_
    rwa [show place + 16 = floorLogTen (m * Nat.pow 2 e.toNat) (Nat.pow 2 (-e).toNat) by
      rw [hplace]
      push_cast
      ring]

/-! ## Reading -/

theorem two_pow_lt_ten_pow : (2 : ℚ) ^ (1200 : ℤ) < 10 ^ (400 : ℤ) := by
  rw [show (1200 : ℤ) = 3 * 400 by norm_num, zpow_mul]
  exact zpow_lt_zpow_left₀ (by norm_num) (by norm_num) (by norm_num)

/-- A decimal is smaller than the power of ten with one digit more. -/
theorem decimal_lt (digits : ℕ) (exponent : ℤ) :
    (digits : ℚ) * 10 ^ exponent < 10 ^ ((digitCount digits : ℤ) + exponent) := by
  have hten : (0 : ℚ) < 10 ^ exponent := zpow_pos (by norm_num) _
  rw [zpow_add₀ (by norm_num), zpow_natCast]
  refine mul_lt_mul_of_pos_right ?_ hten
  exact_mod_cast lt_pow_digitCount digits

/-- A decimal that is not zero is no smaller than the power of ten with as many digits. -/
theorem le_decimal {digits : ℕ} (hdigits : 0 < digits) (exponent : ℤ) :
    (10 : ℚ) ^ ((digitCount digits : ℤ) - 1 + exponent) ≤ digits * 10 ^ exponent := by
  have hten : (0 : ℚ) < 10 ^ exponent := zpow_pos (by norm_num) _
  have hcount := digitCount_pos digits
  rw [zpow_add₀ (by norm_num)]
  refine mul_le_mul_of_nonneg_right ?_ hten.le
  rw [show (digitCount digits : ℤ) - 1 = ((digitCount digits - 1 : ℕ) : ℤ) by omega,
    zpow_natCast]
  exact_mod_cast pow_pred_digitCount_le hdigits

/-- The ratio that a decimal is. -/
theorem decimal_eq_ratio (digits : ℕ) (exponent : ℤ) :
    (digits : ℚ) * 10 ^ exponent = ((digits * Nat.pow 10 exponent.toNat : ℕ) : ℚ) /
      ((Nat.pow 10 (-exponent).toNat : ℕ) : ℚ) := by
  have hpow := zpow_eq_div (b := 10) (by decide) exponent
  push_cast at hpow ⊢
  rw [hpow, mul_div_assoc]

/-- A positive decimal with a value in the range of doubles has an exponent far from both
cut-offs. -/
theorem magnitude_of_range {digits : ℕ} {exponent : ℤ} (hdigits : 0 < digits)
    (hlow : (2 : ℚ) ^ (-1200 : ℤ) ≤ digits * 10 ^ exponent)
    (hhigh : (digits : ℚ) * 10 ^ exponent ≤ 2 ^ (1200 : ℤ)) :
    -400 < (digitCount digits : ℤ) + exponent ∧ (digitCount digits : ℤ) - 1 + exponent < 400 := by
  have hleast : (10 : ℚ) ^ (-400 : ℤ) < 2 ^ (-1200 : ℤ) := by
    rw [zpow_neg, zpow_neg, inv_lt_inv₀ (by positivity) (by positivity)]
    exact two_pow_lt_ten_pow
  have hten : (1 : ℚ) < 10 := by norm_num
  constructor
  · apply (zpow_lt_zpow_iff_right₀ hten).1
    calc (10 : ℚ) ^ (-400 : ℤ) < 2 ^ (-1200 : ℤ) := hleast
      _ ≤ digits * 10 ^ exponent := hlow
      _ < 10 ^ ((digitCount digits : ℤ) + exponent) := decimal_lt digits exponent
  · apply (zpow_lt_zpow_iff_right₀ hten).1
    calc (10 : ℚ) ^ ((digitCount digits : ℤ) - 1 + exponent) ≤ digits * 10 ^ exponent :=
          le_decimal hdigits exponent
      _ ≤ 2 ^ (1200 : ℤ) := hhigh
      _ < 10 ^ (400 : ℤ) := two_pow_lt_ten_pow

/-- A number in the rounding interval of a double is in the range of doubles. -/
theorem Interval.Holds.range {negative : Bool} (hm : 0 < m)
    (hc : (finite negative m e).Canonical) {v : ℚ} (h : (interval m e).Holds (v * 2 ^ (-e) * 4)) :
    (2 : ℚ) ^ (-1200 : ℤ) ≤ v ∧ v ≤ 2 ^ (1200 : ℤ) := by
  obtain ⟨hleast, hgreatest, hm53, -⟩ := hc
  simp only [leastExponent, greatestExponent] at hleast hgreatest
  obtain ⟨hlow, hhigh⟩ := h.bounds hm
  have hm' : (1 : ℚ) ≤ m := by exact_mod_cast hm
  have hm53' : (m : ℚ) + 1 ≤ 2 ^ 53 := by exact_mod_cast hm53
  have hhalf : (2 : ℚ) ^ (-1 : ℤ) ≤ v * 2 ^ (-e) := by
    refine le_trans ?_ hlow
    norm_num
    linarith
  have hfull : v * 2 ^ (-e) < 2 ^ (53 : ℤ) := by
    refine hhigh.trans_lt ?_
    norm_num at hm53' ⊢
    linarith
  constructor
  · exact (zpow_le_zpow_right₀ (by norm_num) (by omega)).trans (le_scaled_iff.1 hhalf)
  · exact (scaled_lt_iff.1 hfull).le.trans (zpow_le_zpow_right₀ (by norm_num) (by omega))

/-- A decimal in the rounding interval of a positive double is not zero. -/
theorem Interval.Holds.digits_pos {negative : Bool} (hm : 0 < m)
    (hc : (finite negative m e).Canonical) {digits : ℕ} {exponent : ℤ}
    (h : (interval m e).Holds (digits * 10 ^ exponent * 2 ^ (-e) * 4)) : 0 < digits := by
  obtain ⟨hlow, -⟩ := h.range hm hc
  rcases Nat.eq_zero_or_pos digits with rfl | hdigits
  · rw [Nat.cast_zero, zero_mul] at hlow
    exact absurd hlow (not_le.2 (zpow_pos (by norm_num) _))
  · exact hdigits

/-- A decimal in the rounding interval of a double reads back as the double. -/
theorem ofDecimal_eq {negative : Bool} (hm : 0 < m) (hc : (finite negative m e).Canonical)
    {digits : ℕ} {exponent : ℤ}
    (h : (interval m e).Holds (digits * 10 ^ exponent * 2 ^ (-e) * 4)) :
    ofDecimal negative digits exponent = finite negative m e := by
  obtain ⟨hlow, hhigh⟩ := h.range hm hc
  have hdigits := h.digits_pos hm hc
  obtain ⟨hleast, hgreatest⟩ := magnitude_of_range hdigits hlow hhigh
  rw [decimal_eq_ratio] at h
  unfold ofDecimal
  simp only [Bool.or_eq_true, decide_eq_true_eq]
  rw [if_neg (by omega), if_neg (by omega)]
  exact ofRatio_eq (Nat.pow_pos (by decide)) hm hc h

end ThemeLocales.Binary64
