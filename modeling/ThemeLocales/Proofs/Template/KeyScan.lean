import ThemeLocales.Proofs.Template.Region
import ThemeLocales.Proofs.Template.Segment
import ThemeLocales.Template.KeyScan

/-!
# A scan invents no key

Each key that a scan finds stands in a region of the text, in quotes, and is piped into the filter
there (`piped_of_contains_scanKeys`). The machine that runs along the segments of a region remembers
at most the segment directly before. That is its invariant, `waitingSegments_scanSegment`.
-/

set_option autoImplicit false

namespace ThemeLocales.Template

open Text

variable {key : String} {table : KeyTable}

theorem contains_addKey {other : String} {value : Document}
    (h : Assoc.contains key (addKey table other value) = true) :
    Assoc.contains key table = true ∨ key = other := by
  unfold addKey at h
  split at h
  · exact Or.inl h
  · by_cases hkey : key = other
    · exact Or.inr hkey
    · rw [Assoc.contains, Assoc.get?_set_of_ne hkey] at h
      exact Or.inl h

/-! ## The machine -/

/-- The segment that waits for a filter, if one does. -/
def waitingSegments : ScanState → List String
  | .idle => []
  | .waiting segment => [segment]

/-- A literal is directly followed by a filter for its key. -/
def Chained (key : String) (segments : List String) : Prop :=
  ∃ before segment, [before, segment] <:+: segments ∧ isTranslationFilter segment before = true ∧
    keyLiteral? before = some key

theorem Chained.mono {segments more : List String} (h : Chained key segments)
    (hmore : segments <:+: more) : Chained key more := by
  obtain ⟨before, segment, hpair, hrest⟩ := h
  exact ⟨before, segment, hpair.trans hmore, hrest⟩

/-- What waits after a step is the segment of that step, if anything does. -/
theorem waitingSegments_scanSegment (state : ScanState × KeyTable) (segment : String) :
    waitingSegments (scanSegment state segment).1 <:+ [segment] := by
  unfold scanSegment
  split
  · exact List.suffix_refl _
  · split
    · split <;> exact List.nil_suffix
    · exact List.suffix_refl _

/-- A step adds at most the key of the literal that waits, and then for a filter. -/
theorem contains_scanSegment {state : ScanState × KeyTable} {segment : String}
    (h : Assoc.contains key (scanSegment state segment).2 = true) :
    Assoc.contains key state.2 = true ∨ Chained key (waitingSegments state.1 ++ [segment]) := by
  unfold scanSegment at h
  split at h
  · exact Or.inl h
  · next before table =>
    split at h
    · next hfilter =>
      split at h
      · next other hliteral =>
        rcases contains_addKey h with h | rfl
        · exact Or.inl h
        · exact Or.inr ⟨before, segment, List.infix_refl _, hfilter, hliteral⟩
      · exact Or.inl h
    · exact Or.inl h

/-- The run of the machine adds only keys of literals that a filter directly follows. -/
theorem contains_foldl_scanSegment {segments : List String} {state : ScanState × KeyTable}
    (h : Assoc.contains key (segments.foldl scanSegment state).2 = true) :
    Assoc.contains key state.2 = true ∨ Chained key (waitingSegments state.1 ++ segments) := by
  induction segments generalizing state with
  | nil => exact Or.inl h
  | cons segment rest ih =>
    have hsplit : waitingSegments state.1 ++ segment :: rest =
        waitingSegments state.1 ++ [segment] ++ rest := by simp
    rcases ih h with h | h
    · rcases contains_scanSegment h with h | h
      · exact Or.inl h
      · rw [hsplit]
        exact Or.inr (h.mono (List.prefix_append _ _).isInfix)
    · -- What waits after the step is the end of what the step has seen.
      obtain ⟨before, hbefore⟩ := waitingSegments_scanSegment state segment
      refine Or.inr (h.mono ⟨waitingSegments state.1 ++ before, [], ?_⟩)
      rw [hsplit, ← hbefore]
      simp

theorem contains_scanRegion {region : String}
    (h : Assoc.contains key (scanRegion table region) = true) :
    Assoc.contains key table = true ∨ Chained key (segments region) :=
  contains_foldl_scanSegment h

theorem contains_foldl_scanRegion {found : List String}
    (h : Assoc.contains key (found.foldl scanRegion table) = true) :
    Assoc.contains key table = true ∨ ∃ region ∈ found, Chained key (segments region) := by
  induction found generalizing table with
  | nil => exact Or.inl h
  | cons region rest ih =>
    rcases ih h with h | ⟨other, hother, h⟩
    · exact (contains_scanRegion h).imp_right fun h => ⟨region, List.mem_cons_self, h⟩
    · exact Or.inr ⟨other, List.mem_cons_of_mem region hother, h⟩

/-! ## No key is invented -/

/-- In a region a key stands between two equal quotes, and after blanks, a bar and blanks comes the
letter of the filter. A blank, a colon or a bar follows the letter, or the region ends there. -/
def Piped (key region : List Char) : Prop :=
  ∃ front quote blanks blanks' back, isQuote quote = true ∧ Blanks blanks ∧ Blanks blanks' ∧
    region = front ++ quote :: key ++ quote :: blanks ++ '|' :: blanks' ++ 't' :: back ∧
      ∀ c ∈ back.head?, isBlank c = true ∨ c = ':' ∨ c = '|'

/-- Two segments beside each other are two pieces of the region beside each other, trimmed. -/
theorem exists_infix_splitOn_of_segments {region before segment : String}
    (h : [before, segment] <:+: segments region) :
    ∃ first second : List Char, [first, second] <:+: region.toList.splitOn '|' ∧
      String.ofList (trim first) = before ∧ String.ofList (trim second) = segment := by
  obtain ⟨start, stop, heq⟩ := h
  have hmap : segments region =
      (region.toList.splitOn '|').map fun piece => String.ofList (trim piece) := by
    simp [segments, pieces, trimmed, Function.comp_def]
  rw [hmap, eq_comm, List.map_eq_append_iff] at heq
  obtain ⟨rest, after, hrest, hfront, -⟩ := heq
  obtain ⟨start', middle, rfl, -, hmiddle⟩ := List.map_eq_append_iff.1 hfront
  obtain ⟨first, tail, rfl, hfirst, htail⟩ := List.map_eq_cons_iff.1 hmiddle
  obtain ⟨second, tail, rfl, hsecond, htail⟩ := List.map_eq_cons_iff.1 htail
  obtain rfl := List.map_eq_nil_iff.1 htail
  exact ⟨first, second, ⟨start', after, hrest.symm⟩, hfirst, hsecond⟩

/-- Where a filter directly follows a literal, its key is piped into the filter. -/
theorem piped_of_chained {region : String} (h : Chained key (segments region)) :
    Piped key.toList region.toList ∧ ∀ c ∈ key.toList, isKeyCharacter c = true := by
  obtain ⟨before, segment, hpair, hfilter, hliteral⟩ := h
  obtain ⟨first, second, hpieces, rfl, rfl⟩ := exists_infix_splitOn_of_segments hpair
  obtain ⟨before, after, hregion, hafter⟩ := exists_of_infix_splitOn hpieces
  -- Both pieces were trimmed, and what was trimmed stands around the bar.
  obtain ⟨left, right, -, hright, hfirst, htight⟩ := exists_blanks_trim first
  obtain ⟨left', right', hleft', hright', hsecond, -⟩ := exists_blanks_trim second
  obtain ⟨front, quote, hquote, hquoted, hkey⟩ :=
    exists_of_keyLiteral? (by rwa [String.toList_ofList]) hliteral
  rw [isTranslationFilter, Bool.and_eq_true, String.toList_ofList] at hfilter
  obtain ⟨rest, hcall, hrest⟩ := exists_of_isFilterCall hfilter.1
  rw [String.toList_ofList] at hquoted
  refine ⟨⟨before ++ left ++ front, quote, right, left', rest ++ right' ++ after, hquote, hright,
    hleft', ?_, fun c hc => ?_⟩, hkey⟩
  · rw [hregion, hfirst, hsecond, hquoted, hcall]
    simp [quotedWith]
  · -- After the letter comes more of the segment, or a blank that was trimmed, or the next bar.
    cases rest with
    | cons d rest => exact (hrest c hc).imp_right Or.inl
    | nil =>
      cases hblank : right' with
      | cons d right' =>
        rw [hblank] at hc
        cases hc
        exact Or.inl (hright' _ (hblank ▸ List.mem_cons_self))
      | nil =>
        rw [hblank] at hc
        rcases hafter with rfl | hafter
        · cases hc
        · exact Or.inr (Or.inr (Option.some.inj ((Option.mem_def.1 hc).symm.trans hafter)))

/-- A scan invents no key: it has neither quotes nor backslashes in it, and it is piped into the
filter in a region that the text encloses between marks. -/
theorem piped_of_contains_scanKeys {text : String}
    (h : Assoc.contains key (scanKeys text) = true) :
    (∀ c ∈ key.toList, isQuote c = false ∧ c ≠ '\\') ∧
      ∃ region ∈ regions text, Encloses text.toList region.toList ∧
        Piped key.toList region.toList := by
  rcases contains_foldl_scanRegion h with h | ⟨region, hregion, h⟩
  · cases h
  · have hmem := (List.mem_filter.1 hregion).1
    obtain ⟨hpiped, hkey⟩ := piped_of_chained h
    exact ⟨fun c hc => isKeyCharacter_iff.1 (hkey c hc), region, hmem,
      encloses_of_mem_regions hmem, hpiped⟩

/-- Of two literals side by side it is the second that is piped into the filter. -/
theorem piped_of_contains_scanKeys_adjacent :
    (∀ c ∈ "a".toList, isQuote c = false ∧ c ≠ '\\') ∧
      ∃ region ∈ regions "\x7b\x7b x | t | 'b''a' | t: 5 \x7d\x7d",
        Encloses "\x7b\x7b x | t | 'b''a' | t: 5 \x7d\x7d".toList region.toList ∧
          Piped "a".toList region.toList :=
  piped_of_contains_scanKeys (by decide +kernel)

end ThemeLocales.Template
