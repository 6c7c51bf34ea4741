import ThemeLocales.Text.Blank
import ThemeLocales.Text.Search

/-!
# Regions of a template

A region is what stands between double braces, or between a brace with a percent sign on either
side. Its inner text loses the blanks at both ends; in the second form it also loses one dash at
each end. A region ends at the first closing mark after its opening mark; an opening mark without a
closing one opens nothing.
-/

set_option autoImplicit false

namespace ThemeLocales.Template

open Text

/-- A text without one dash at its front. -/
def withoutLeadingDash : List Char → List Char
  | '-' :: rest => rest
  | cs => cs

/-- A text without one dash at its end. -/
def withoutTrailingDash (cs : List Char) : List Char :=
  (withoutLeadingDash cs.reverse).reverse

/-- The region that opens at the front of a text: its inner text, and what follows it. -/
def regionAt? (cs : List Char) : Option (List Char × List Char) :=
  match after? ['{', '{'] cs with
  | some rest =>
    (cutAt? ['}', '}'] (trimStart rest)).map fun (inner, after) => (trimEnd inner, after)
  | none =>
    match after? ['{', '%'] cs with
    | some rest =>
      (cutAt? ['%', '}'] (trimStart (withoutLeadingDash rest))).map fun (inner, after) =>
        (trimEnd (withoutTrailingDash inner), after)
    | none => none

theorem length_withoutLeadingDash_le (cs : List Char) :
    (withoutLeadingDash cs).length ≤ cs.length := by
  unfold withoutLeadingDash
  split <;> simp

/-- What follows a region is shorter than the text. -/
theorem length_lt_of_regionAt? {cs inner rest : List Char}
    (h : regionAt? cs = some (inner, rest)) : rest.length < cs.length := by
  unfold regionAt? at h
  split at h
  · next tail ht =>
    simp only [Option.map_eq_some_iff, Prod.mk.injEq, Prod.exists] at h
    obtain ⟨b, r, hbr, -, rfl⟩ := h
    have h₁ := length_cutAt?_le hbr
    have h₂ := length_trimStart_le tail
    rw [eq_append_of_after? ht]
    simp only [List.cons_append, List.nil_append, List.length_cons]
    omega
  · split at h
    · next tail ht =>
      simp only [Option.map_eq_some_iff, Prod.mk.injEq, Prod.exists] at h
      obtain ⟨b, r, hbr, -, rfl⟩ := h
      have h₁ := length_cutAt?_le hbr
      have h₂ := length_trimStart_le (withoutLeadingDash tail)
      have h₃ := length_withoutLeadingDash_le tail
      rw [eq_append_of_after? ht]
      simp only [List.cons_append, List.nil_append, List.length_cons]
      omega
    · simp at h

/-- The inner texts of all regions, from left to right. -/
def regionsOf (cs : List Char) : List (List Char) :=
  match _h : regionAt? cs with
  | some (inner, rest) => inner :: regionsOf rest
  | none =>
    match cs with
    | [] => []
    | _ :: rest => regionsOf rest
termination_by cs.length
decreasing_by
  · exact length_lt_of_regionAt? _h
  · simp

/-- The inner texts of all regions of a template. -/
def regions (text : String) : List String :=
  (regionsOf text.toList).map String.ofList

end ThemeLocales.Template
