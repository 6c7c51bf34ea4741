import ThemeLocales.Proofs.Number.Integer
import ThemeLocales.Proofs.Template.Argument

/-!
# Integers as defaults

A bare number goes through a double on its way to a default. So an integer is the default that it
spells just when a double has its value. Any other integer gives the nearest one that a double has,
and beyond the greatest doubles it gives an infinity (`filterDefault_integer_eq_iff`).
-/

set_option autoImplicit false

namespace ThemeLocales.Template

open Binary64 Text

variable {digits : List Char}

/-- The call of the filter with an integer for a default. -/
def integerCall (negative : Bool) (digits : List Char) : String :=
  String.ofList ('t' :: ':' :: ' ' :: (Json.signChars negative ++ digits))

/-- An integer that a filter is called with is read as a number without a fraction. -/
theorem filterDefault_integerCall (negative : Bool) (hne : digits ≠ [])
    (hdigits : ∀ c ∈ digits, isAsciiDigit c = true) :
    filterDefault (integerCall negative digits) = numberDefault negative digits [] := by
  have hnumber : IsNumber (Json.signChars negative ++ (digits ++ Numeral.fractionChars []))
      (numberDefault negative digits []) := .intro negative hne hdigits (by simp)
  rw [Numeral.fractionChars, List.append_nil] at hnumber
  have hlast : (integerCall negative digits).toList.getLast? = digits.getLast? := by
    rw [integerCall, String.toList_ofList]
    exact List.getLast?_append_of_ne_nil ('t' :: ':' :: ' ' :: Json.signChars negative) hne
  have htight : Tight (integerCall negative digits).toList := by
    refine ⟨fun c hc => ?_, fun c hc => ?_⟩
    · rw [integerCall, String.toList_ofList] at hc
      cases hc
      decide
    · rw [hlast] at hc
      exact (hnumber.plain c (List.mem_append_right _ (List.mem_of_getLast? hc))).1
  have hcs : (integerCall negative digits).toList =
      't' :: ':' :: ([' '] ++ (Json.signChars negative ++ digits)) := by
    rw [integerCall, String.toList_ofList]
    rfl
  exact filterDefault_of_literal htight (by decide) hcs (.number hnumber) hnumber.newline_notMem

theorem numberDefault_of_toInt? {negative : Bool} {n : ℤ}
    (h : (ofRatio negative (digitsValue digits) 1).toInt? = some n) :
    numberDefault negative digits [] = .int n := by
  have hdecimal := ofDecimal_zero negative (digitsValue digits)
  simp only [numberDefault, List.append_nil, List.length_nil, Nat.cast_zero, neg_zero, hdecimal, h]

theorem numberDefault_of_infinite {negative : Bool}
    (h : ofRatio negative (digitsValue digits) 1 = infinity negative) :
    numberDefault negative digits [] = .real (infinity negative) := by
  have hdecimal := ofDecimal_zero negative (digitsValue digits)
  simp only [numberDefault, List.append_nil, List.length_nil, Nat.cast_zero, neg_zero, hdecimal, h,
    toInt?]

theorem signed_injective {negative : Bool} {m n : ℕ}
    (h : Number.signed negative m = Number.signed negative n) : m = n := by
  cases negative <;> simpa [Number.signed] using h

/-- An integer with no more digits than doubles have is the default just when a double has its
value; otherwise no double is nearer to it than the default. From half a place above the greatest
double on, the default is infinite. -/
theorem filterDefault_integer_eq_iff (negative : Bool) (hne : digits ≠ [])
    (hdigits : ∀ c ∈ digits, isAsciiDigit c = true) :
    (filterDefault (integerCall negative digits) =
        .int (Number.signed negative (digitsValue digits)) ↔ Exact (digitsValue digits)) ∧
      (digitsValue digits < overflowBound → ∃ v, Exact v ∧
        filterDefault (integerCall negative digits) = .int (Number.signed negative v) ∧
          ∀ w, Exact w → Nat.dist (digitsValue digits) v ≤ Nat.dist (digitsValue digits) w) ∧
      (overflowBound ≤ digitsValue digits →
        filterDefault (integerCall negative digits) = .real (infinity negative)) := by
  rw [filterDefault_integerCall negative hne hdigits]
  have hfinite : digitsValue digits < overflowBound → numberDefault negative digits [] =
      .int (Number.signed negative (nearestNatural (digitsValue digits))) :=
    fun h => numberDefault_of_toInt? (toInt?_ofRatio_one negative h)
  have hinfinite : overflowBound ≤ digitsValue digits →
      numberDefault negative digits [] = .real (infinity negative) :=
    fun h => numberDefault_of_infinite (ofRatio_one_of_le negative h)
  refine ⟨⟨fun hsame => ?_, fun hexact => ?_⟩, fun h => ?_, hinfinite⟩
  -- an infinity is no integer, so a default that is the integer comes from below the bound
  · rcases Nat.lt_or_ge (digitsValue digits) overflowBound with h | h
    · rw [hfinite h] at hsame
      exact (nearestNatural_eq_iff h).1 (signed_injective (Document.int.inj hsame))
    · rw [hinfinite h] at hsame
      cases hsame
  · have h := hexact.lt_overflowBound
    rw [hfinite h, (nearestNatural_eq_iff h).2 hexact]
  · exact ⟨_, exact_nearestNatural h, hfinite h, fun w hw => dist_nearestNatural_le _ hw⟩

/-- For the least natural that no double has. -/
theorem filterDefault_integer_eq_iff_odd : "9007199254740993".toList ≠ [] ∧
    (∀ c ∈ "9007199254740993".toList, isAsciiDigit c = true) ∧
      digitsValue "9007199254740993".toList < overflowBound ∧ ∃ v, Exact v ∧
        filterDefault (integerCall true "9007199254740993".toList) =
          .int (Number.signed true v) ∧
        ∀ w, Exact w → Nat.dist (digitsValue "9007199254740993".toList) v ≤
          Nat.dist (digitsValue "9007199254740993".toList) w := by
  have hne : "9007199254740993".toList ≠ [] := by decide
  have hdigits : ∀ c ∈ "9007199254740993".toList, isAsciiDigit c = true :=
    List.all_eq_true.1 (by decide)
  have hbound : digitsValue "9007199254740993".toList < overflowBound := by decide +kernel
  exact ⟨hne, hdigits, hbound, (filterDefault_integer_eq_iff true hne hdigits).2.1 hbound⟩

/-- A tie goes to the even neighbour. -/
theorem filterDefault_odd : filterDefault "t: 9007199254740993" = .int 9007199254740992 ∧
    filterDefault "t: 9007199254740993" ≠ .int 9007199254740993 := by
  have h : filterDefault "t: 9007199254740993" = .int 9007199254740992 := by rfl
  refine ⟨h, ?_⟩
  rw [h]
  simp

end ThemeLocales.Template
