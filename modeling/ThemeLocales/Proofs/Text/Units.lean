import Mathlib.Data.List.Lex
import ThemeLocales.Text.Wide

/-!
# Texts by their code units

The code units of a text spell it (`ofUnits?_units`), so no two texts have the same ones
(`units_injective`). The comparison of units is the lexicographic order of number lists
(`unitsLE_iff_le`). It is also the order of the bytes in which the units are written with the high
byte first (`wideBytes_lt_iff`): a unit has two bytes at most, and the first of them decides.
-/

set_option autoImplicit false

namespace ThemeLocales.Text

/-! ## Units spell a text -/

section Characters

variable {c : Char}

theorem charAt?_toNat (c : Char) : charAt? c.toNat = some c := by
  have hvalid : c.toNat.isValidChar := c.valid
  rw [charAt?, if_pos hvalid, Char.ofNat_toNat]

/-- A character is no surrogate. -/
theorem isHighSurrogate_toNat (c : Char) : isHighSurrogate c.toNat = false := by
  have hvalid : c.toNat < 0xD800 ∨ 0xDFFF < c.toNat ∧ c.toNat < 0x110000 := c.valid
  simp only [isHighSurrogate, Bool.and_eq_false_iff, decide_eq_false_iff_not]
  omega

theorem charUnits_of_lt (h : c.toNat < 0x10000) : charUnits c = [c.toNat] := if_pos h

/-- A character beyond the first plane is a pair of surrogates, which have its number between
them. -/
theorem exists_charUnits_of_le (h : 0x10000 ≤ c.toNat) : ∃ u v, charUnits c = [u, v] ∧
    isHighSurrogate u = true ∧ isLowSurrogate v = true ∧
      0x10000 + (u - 0xD800) * 0x400 + (v - 0xDC00) = c.toNat := by
  have hvalid : c.toNat < 0xD800 ∨ 0xDFFF < c.toNat ∧ c.toNat < 0x110000 := c.valid
  refine ⟨_, _, if_neg (Nat.not_lt.2 h), ?_, ?_, ?_⟩
  · simp only [isHighSurrogate, Bool.and_eq_true, decide_eq_true_eq]
    omega
  · simp only [isLowSurrogate, Bool.and_eq_true, decide_eq_true_eq]
    omega
  · omega

end Characters

/-- Units are read back as the characters that they were written for. -/
theorem ofUnits?_flatMap (cs : List Char) : ofUnits? (cs.flatMap charUnits) = some cs := by
  induction cs with
  | nil => rfl
  | cons c cs ih =>
    rw [List.flatMap_cons]
    rcases Nat.lt_or_ge c.toNat 0x10000 with hlt | hge
    · -- a single unit, which begins no pair, whatever comes behind it
      rw [charUnits_of_lt hlt, List.singleton_append]
      cases hrest : cs.flatMap charUnits with
      | nil =>
        rw [hrest] at ih
        obtain rfl : [] = cs := Option.some.inj ih
        simp [ofUnits?, charAt?_toNat]
      | cons v rest =>
        rw [hrest] at ih
        simp [ofUnits?, isHighSurrogate_toNat, charAt?_toNat, ih]
    · obtain ⟨u, v, hunits, hhigh, hlow, hnumber⟩ := exists_charUnits_of_le hge
      rw [hunits]
      simp [ofUnits?, hhigh, hlow, hnumber, ih, Char.ofNat_toNat]

/-- The code units of a text spell it. -/
theorem ofUnits?_units (s : String) : ofUnits? (units s) = some s.toList :=
  ofUnits?_flatMap s.toList

theorem units_injective : Function.Injective units := by
  intro s t h
  have hlist : some s.toList = some t.toList := by
    rw [← ofUnits?_units s, ← ofUnits?_units t, h]
  exact String.toList_injective (Option.some.inj hlist)

/-- A unit has two bytes at most. -/
theorem lt_of_mem_units {s : String} {u : ℕ} (h : u ∈ units s) : u < 0x10000 := by
  obtain ⟨c, -, hu⟩ := List.mem_flatMap.1 h
  rcases Nat.lt_or_ge c.toNat 0x10000 with hlt | hge
  · rw [charUnits_of_lt hlt, List.mem_singleton] at hu
    exact hu ▸ hlt
  · obtain ⟨v, w, hunits, hhigh, hlow, -⟩ := exists_charUnits_of_le hge
    simp only [isHighSurrogate, isLowSurrogate, Bool.and_eq_true, decide_eq_true_eq] at hhigh hlow
    rw [hunits, List.mem_pair] at hu
    omega

/-! ## The order of units -/

/-- The comparison of units is the lexicographic order. -/
theorem unitsLE_iff_le (a b : List ℕ) : unitsLE a b = true ↔ a ≤ b := by
  induction a generalizing b with
  | nil => exact iff_of_true rfl (not_lt.1 (List.not_lt_nil b))
  | cons x xs ih =>
    cases b with
    | nil => exact iff_of_false Bool.false_ne_true (not_le.2 (List.nil_lt_cons x xs))
    | cons y ys =>
      rw [← not_lt, List.cons_lt_cons_iff, unitsLE]
      rcases Nat.lt_trichotomy x y with hlt | rfl | hlt
      · simp [hlt, hlt.not_gt, hlt.ne']
      · simp [ih]
      · simp [hlt, hlt.not_gt]

/-- Whether a text does not come after another in the order of their code units. -/
def unitsBefore (a b : String) : Bool :=
  unitsLE (units a) (units b)

theorem unitsBefore_total (a b : String) : (unitsBefore a b || unitsBefore b a) = true :=
  unitsLE_total (units a) (units b)

theorem unitsBefore_trans (a b c : String) (hab : unitsBefore a b = true)
    (hbc : unitsBefore b c = true) : unitsBefore a c = true :=
  unitsLE_trans hab hbc

/-- Of two texts that do not come after one another there is only one. -/
theorem unitsBefore_antisymm {a b : String} (hab : unitsBefore a b = true)
    (hba : unitsBefore b a = true) : a = b := by
  apply units_injective
  exact le_antisymm ((unitsLE_iff_le _ _).1 hab) ((unitsLE_iff_le _ _).1 hba)

/-! ## The order of bytes -/

/-- The two bytes of a unit, the high one first. -/
def unitBytes (u : ℕ) : List UInt8 :=
  [UInt8.ofNat (u / 256), UInt8.ofNat (u % 256)]

/-- The bytes of a text in units of two bytes each, the high byte of each first. -/
def wideBytes (s : String) : List UInt8 :=
  (units s).flatMap unitBytes

/-- Bytes of units compare as the units do. -/
theorem flatMap_unitBytes_lt_iff {us vs : List ℕ} (hus : ∀ u ∈ us, u < 0x10000)
    (hvs : ∀ v ∈ vs, v < 0x10000) :
    us.flatMap unitBytes < vs.flatMap unitBytes ↔ us < vs := by
  induction us generalizing vs with
  | nil =>
    cases vs with
    | nil => exact iff_of_false (List.not_lt_nil _) (List.not_lt_nil _)
    | cons v vs => exact iff_of_true (List.nil_lt_cons _ _) (List.nil_lt_cons _ _)
  | cons u us ih =>
    cases vs with
    | nil => exact iff_of_false (List.not_lt_nil _) (List.not_lt_nil _)
    | cons v vs =>
      have hrest : us.flatMap unitBytes < vs.flatMap unitBytes ↔ us < vs := by
        apply ih
        · intro w hw
          exact hus w (List.mem_cons_of_mem u hw)
        · intro w hw
          exact hvs w (List.mem_cons_of_mem v hw)
      have hu : u < 0x10000 := hus u List.mem_cons_self
      have hv : v < 0x10000 := hvs v List.mem_cons_self
      simp only [List.flatMap_cons, unitBytes, List.cons_append, List.nil_append,
        List.cons_lt_cons_iff, hrest, UInt8.lt_iff_toNat_lt, ← UInt8.toNat_inj, UInt8.toNat_ofNat']
      -- the high bytes decide unless they are equal, and then the low bytes do
      by_cases hlt : us < vs
      · simp only [hlt, and_true]
        omega
      · simp only [hlt, and_false, or_false]
        omega

/-- The bytes of texts compare as the units of the texts do. -/
theorem wideBytes_lt_iff (s t : String) : wideBytes s < wideBytes t ↔ units s < units t :=
  flatMap_unitBytes_lt_iff (fun _ => lt_of_mem_units) fun _ => lt_of_mem_units

end ThemeLocales.Text
