import ThemeLocales.Proofs.Template.Argument
import ThemeLocales.Proofs.Template.Occurrence

/-!
# Dashes inside the marks

A dash next to a mark controls the blanks around a region and is no part of what the region says.
Between percent signs it is taken off at either end (`regionAt?_percents_dashed`). Between braces it
stays (`regionAt?_braces_dashed`). There a dash before the key does no harm, since a key ends its
segment, but one behind the call hides the default (`scanKeys_dashed`).
-/

set_option autoImplicit false

namespace ThemeLocales.Template

open Text

/-- A text that is one region is scanned for the keys of that region. -/
theorem scanKeys_of_regionAt? {cs region : List Char} (h : regionAt? cs = some (region, []))
    (hbar : '|' ∈ region) :
    scanKeys (String.ofList cs) = scanRegion [] (String.ofList region) := by
  have hregions : regions (String.ofList cs) = [String.ofList region] := by
    rw [regions, String.toList_ofList, regionsOf_of_regionAt? h, regionsOf_nil]
    rfl
  have hkept : (String.ofList region).toList.contains '|' = true := by
    rw [String.toList_ofList]
    exact List.elem_eq_true_of_mem hbar
  have hfilter : [String.ofList region].filter (fun found => found.toList.contains '|') =
      [String.ofList region] := List.filter_eq_self.2 (List.forall_mem_singleton.2 hkept)
  rw [scanKeys, hregions, hfilter]
  rfl

namespace Occurrence

variable {o : Occurrence}

/-- The occurrence as it stands in a template, with dashes inside its marks. -/
def dashed (o : Occurrence) (before after : Bool) : List Char :=
  o.delimiters.opening ++ dashChars before ++ o.front ++ o.inner ++ o.back ++ dashChars after ++
    o.delimiters.closing

/-- What a dash keeps before the key in a region between braces. -/
def lead (o : Occurrence) (before : Bool) : List Char :=
  if before then '-' :: o.front else []

/-- What a dash keeps behind the call in a region between braces. -/
def trail (o : Occurrence) (after : Bool) : List Char :=
  if after then o.back ++ ['-'] else []

theorem lead_head (o : Occurrence) (before : Bool) :
    ∀ c ∈ (o.lead before).head?, isBlank c = false := by
  intro c hc
  cases before with
  | true =>
    cases hc
    decide
  | false => cases hc

theorem trail_last (o : Occurrence) (after : Bool) :
    ∀ c ∈ (o.trail after).getLast?, isBlank c = false := by
  intro c hc
  cases after with
  | true =>
    have hlast : (o.trail true).getLast? = some '-' := List.getLast?_concat
    rw [hlast] at hc
    cases hc
    decide
  | false => cases hc

/-- Dashes bring no closing mark into a text. -/
theorem lacks_dashChars_append (d : Delimiters) (dashed : Bool) {cs : List Char}
    (h : Lacks d.closingSign '}' cs) : Lacks d.closingSign '}' (dashChars dashed ++ cs) := by
  have hdash : '-' ≠ d.closingSign := by cases d <;> decide
  cases dashed with
  | true => exact (lacks_cons hdash).2 h
  | false => exact h

theorem lacks_lead_append (h : o.WellFormed) (before : Bool) {cs : List Char}
    (hcs : Lacks '}' '}' cs) : Lacks '}' '}' (o.lead before ++ cs) := by
  cases before with
  | true => exact (lacks_cons (by decide)).2 (lacks_blanks_append h.front .braces hcs)
  | false => exact hcs

/-- Between percent signs the dashes are no part of the region. -/
theorem regionAt?_percents_dashed (h : o.WellFormed) (hd : o.delimiters = .percents)
    (before after : Bool) : regionAt? (o.dashed before after) = some (o.inner, []) := by
  have hend := lacks_dashChars_append .percents after (lacks_iff.2 (.singleton '%'))
  have hlacks := lacks_inner_append h .percents hend
  have hregion := regionAt?_percents_append before after [] h.front h.back (inner_inner h)
    (by simpa only [List.append_assoc, Delimiters.closingSign] using hlacks)
  simpa [dashed, hd, Delimiters.opening, Delimiters.closing, Delimiters.closingSign] using hregion

/-- Between braces they are, with the blanks that they keep from the marks. -/
theorem regionAt?_braces_dashed (h : o.WellFormed) (hd : o.delimiters = .braces)
    (before after : Bool) :
    regionAt? (o.dashed before after) = some (o.lead before ++ o.inner ++ o.trail after, []) := by
  have hinner := inner_inner h
  have htight := hinner.toTight.around hinner.ne_nil (o.lead_head before) (o.trail_last after)
  have hne : o.lead before ++ o.inner ++ o.trail after ≠ [] := by simp [hinner.ne_nil]
  have hend := lacks_dashChars_append .braces after (lacks_iff.2 (.singleton '}'))
  have hlacks := lacks_lead_append h before (lacks_inner_append h .braces hend)
  have hnone : Blanks [] := by simp [Blanks]
  -- blanks between a mark and a dash there are none, so only a mark without a dash loses some
  have hfront : Blanks (if before then [] else o.front) := by
    split
    · exact hnone
    · exact h.front
  have hback : Blanks (if after then [] else o.back) := by
    split
    · exact hnone
    · exact h.back
  have hregion := regionAt?_braces_append [] hfront hback htight hne (by
    cases after <;> simpa [trail, dashChars, Delimiters.closingSign] using hlacks)
  cases before <;> cases after <;>
    simpa [dashed, hd, lead, trail, dashChars, Delimiters.opening, Delimiters.closing,
      Delimiters.closingSign] using hregion

theorem tight_filterCall_trail (h : o.WellFormed) (after : Bool) :
    Tight (filterCall o.default? o.beforeDefault ++ o.trail after) := by
  obtain ⟨last, hlast, -⟩ := exists_getLast?_filterCall h
  have hne := List.ne_nil_of_mem (List.mem_of_getLast? hlast)
  have htight : Tight ([] ++ filterCall o.default? o.beforeDefault ++ o.trail after) :=
    (tight_filterCall h).around hne (by simp) (o.trail_last after)
  rwa [List.nil_append] at htight

/-- With a dash behind it, a call has no default. -/
theorem filterDefault_trail (h : o.WellFormed) :
    filterDefault (String.ofList (filterCall o.default? o.beforeDefault ++ o.trail true)) =
      .string "" := by
  have htight := tight_filterCall_trail h true
  have hlast : (filterCall o.default? o.beforeDefault ++ o.trail true).getLast? = some '-' := by
    rw [trail, if_pos rfl, ← List.append_assoc, List.getLast?_concat]
  rw [← String.toList_ofList (l := filterCall o.default? o.beforeDefault ++ o.trail true)]
    at htight hlast
  exact filterDefault_of_last htight hlast (by decide) (by decide)

/-- The scan of what stands between braces adds the key, but a dash behind the call costs the
default. -/
theorem scanRegion_braces (h : o.WellFormed) {quote : Char} {text : List Char}
    (hdefault : o.default? = some (quote, text)) (before after : Bool) (table : KeyTable) :
    scanRegion table (String.ofList (o.lead before ++ o.inner ++ o.trail after)) =
      addKey table (String.ofList o.key)
        (.string (if after then "" else String.ofList text)) := by
  have hlead : '|' ∉ o.lead before := by
    cases before <;> simp [lead, bar_not_mem_blanks h.front]
  have htrail : '|' ∉ o.trail after := by
    cases after <;> simp [trail, bar_not_mem_blanks h.back]
  have hfirst : Tight (o.lead before ++ quotedWith o.quote o.key) := by
    have htight : Tight (o.lead before ++ quotedWith o.quote o.key ++ []) :=
      (tight_quotedWith h.quote o.key).around (by simp [quotedWith]) (o.lead_head before) (by simp)
    rwa [List.append_nil] at htight
  have hcall : isFilterCall (filterCall o.default? o.beforeDefault ++ o.trail after) = true := by
    rw [hdefault]
    rfl
  rw [scanRegion_around h hlead htrail hfirst (tight_filterCall_trail h after) hcall]
  -- a dash behind the call is read as a part of its argument, so the default is lost
  cases after with
  | true => rw [filterDefault_trail h, if_pos rfl]
  | false =>
    have hquoted := filterDefault_filterCall o.default? h.beforeDefault
      fun quote text hsome => (h.default (quote, text) hsome).imp_right Plain.line
    rw [trail, if_neg Bool.false_ne_true, List.append_nil, hquoted, hdefault]
    rfl

end Occurrence

open Occurrence in
/-- A dash inside a mark changes nothing, save one behind a call between braces: there the default
is lost. -/
theorem scanKeys_dashed {o : Occurrence} (h : o.WellFormed) {quote : Char} {text : List Char}
    (hdefault : o.default? = some (quote, text)) (before after : Bool) :
    scanKeys (String.ofList (o.dashed before after)) =
      [(String.ofList o.key,
        .string (if o.delimiters = .braces ∧ after = true then "" else String.ofList text))] := by
  have hbar : '|' ∈ o.inner := by simp [Occurrence.inner]
  cases hd : o.delimiters with
  | braces =>
    have hregion := regionAt?_braces_dashed h hd before after
    rw [scanKeys_of_regionAt? hregion (by simp [hbar]), scanRegion_braces h hdefault]
    simp [addKey, Assoc.contains, Assoc.get?, Assoc.set]
  | percents =>
    have hregion := regionAt?_percents_dashed h hd before after
    rw [scanKeys_of_regionAt? hregion hbar, scanRegion_inner h, binding, hdefault]
    simp [addKey, Assoc.contains, Assoc.get?, Assoc.set, calledDefault]

/-- A key in single quotes with a default, between double braces. -/
def braced : Occurrence :=
  ⟨.braces, '\'', ['k'], some ('\'', ['d']), [' '], [' '], [' '], [' '], [' ']⟩

theorem scanKeys_dashed_braced : braced.WellFormed ∧ braced.default? = some ('\'', ['d']) ∧
    scanKeys (String.ofList (braced.dashed true true)) = [("k", .string "")] ∧
      scanKeys (String.ofList (braced.dashed true false)) = [("k", .string "d")] := by
  have hkey : ∀ c ∈ ['k'], isKeyCharacter c = true := List.forall_mem_singleton.2 (by decide)
  have hwell : braced.WellFormed := ⟨by decide, hkey, by decide, by decide, by decide, by decide,
    by decide, by decide, by decide⟩
  exact ⟨hwell, rfl, scanKeys_dashed hwell rfl true true, scanKeys_dashed hwell rfl true false⟩

/-- The dashes take the default away between braces and leave it between percent signs. -/
theorem scanKeys_dash_ne :
    scanKeys "\x7b\x7b- 'k' | t: 'd' -\x7d\x7d" ≠ [("k", .string "d")] ∧
      scanKeys "\x7b%- 'k' | t: 'd' -%\x7d" = [("k", .string "d")] := by
  have hbraces : regionAt? "\x7b\x7b- 'k' | t: 'd' -\x7d\x7d".toList =
      some ("- 'k' | t: 'd' -".toList, []) := rfl
  have hpercents : regionAt? "\x7b%- 'k' | t: 'd' -%\x7d".toList =
      some ("'k' | t: 'd'".toList, []) := rfl
  have hscan := scanKeys_of_regionAt? hbraces (by decide)
  have hscan' := scanKeys_of_regionAt? hpercents (by decide)
  rw [String.ofList_toList, String.ofList_toList] at hscan hscan'
  have hlost : scanRegion [] "- 'k' | t: 'd' -" = [("k", .string "")] := rfl
  rw [hscan, hscan', hlost]
  exact ⟨by simp, rfl⟩

end ThemeLocales.Template
