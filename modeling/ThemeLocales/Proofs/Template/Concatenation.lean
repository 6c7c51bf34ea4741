import ThemeLocales.Proofs.Template.Region
import ThemeLocales.Proofs.Text.Replace
import ThemeLocales.Template.KeyScan

/-!
# Scanning a text that goes on

A text is closed when no opening mark begins outside of its regions and none can begin with its last
character. A scan of a closed text is the front of the scan of every text that it begins
(`scan_append`): the regions of the whole are those of the two parts, and the keys are those of the
first part and then those of the second that are new.

The first statement is about places. `sites` lists the regions with the positions between which they
stand (`inner_sites`), and a text that goes on has the sites of the closed text followed by those of
the rest, shifted by its length (`sites_append`). No region of the closed text is longer for what
comes after it (`regionAt?_extend`), and where the search passed over a character it still does
(`regionAt?_append_of_none`). The second statement is about tables and holds
for any regions: what a scan adds to a table does not depend on the table, but for the keys that the
table has already (`scanRegion_extended`).
-/

set_option autoImplicit false

namespace ThemeLocales.Template

open Text

variable {cs inner rest : List Char} {c : Char}

/-! ## Places of regions -/

/-- A region as it stands in a text: its inner text, the position of its opening mark, and the
position behind its closing mark. -/
structure Site where
  inner : List Char
  start : Nat
  stop : Nat
  deriving DecidableEq, Repr

/-- The site in a text that has some characters more in front. -/
def Site.shift (n : Nat) (site : Site) : Site :=
  ⟨site.inner, site.start + n, site.stop + n⟩

/-- The regions of a text at their places, from left to right. -/
def sites (cs : List Char) : List Site :=
  match _h : regionAt? cs with
  | some (inner, rest) =>
    ⟨inner, 0, cs.length - rest.length⟩ :: (sites rest).map (Site.shift (cs.length - rest.length))
  | none =>
    match cs with
    | [] => []
    | _ :: rest => (sites rest).map (Site.shift 1)
termination_by cs.length
decreasing_by
  · exact length_lt_of_regionAt? _h
  · simp

theorem sites_of_regionAt? (h : regionAt? cs = some (inner, rest)) :
    sites cs = ⟨inner, 0, cs.length - rest.length⟩ ::
      (sites rest).map (Site.shift (cs.length - rest.length)) := by
  rw [sites]
  split
  · next found hfound =>
    rw [h] at hfound
    cases hfound
    rfl
  · next hnone =>
    rw [h] at hnone
    cases hnone

theorem sites_cons_of_none (h : regionAt? (c :: cs) = none) :
    sites (c :: cs) = (sites cs).map (Site.shift 1) := by
  rw [sites]
  split
  · next hsome =>
    rw [h] at hsome
    cases hsome
  · rfl

@[simp] theorem sites_nil : sites [] = [] := by
  rw [sites]
  rfl

theorem shift_comp_shift (m n : Nat) : Site.shift m ∘ Site.shift n = Site.shift (n + m) := by
  funext site
  simp only [Function.comp_apply, Site.shift, Nat.add_assoc]

/-- The sites are those of the regions that are found. -/
theorem inner_sites (cs : List Char) : (sites cs).map Site.inner = regionsOf cs := by
  have hshift : ∀ n, Site.inner ∘ Site.shift n = Site.inner := fun n => rfl
  induction cs using searchRec with
  | nil => rw [sites_nil, regionsOf_nil, List.map_nil]
  | region cs inner rest h ih =>
    rw [sites_of_regionAt? h, regionsOf_of_regionAt? h, List.map_cons, List.map_map, hshift, ih]
  | passed c cs h ih =>
    rw [sites_cons_of_none h, regionsOf_cons_of_none h, List.map_map, hshift, ih]

/-- What follows a region is the end of the text. -/
theorem eq_drop_of_regionAt? (h : regionAt? cs = some (inner, rest)) :
    rest = cs.drop (cs.length - rest.length) := by
  obtain ⟨d, dash, -, dash', -, front, back, -, -, hcs⟩ := beginsWithRegion_of_regionAt? h
  rw [← List.suffix_iff_eq_drop, hcs]
  exact List.suffix_append _ rest

/-! ## Closed texts -/

/-- A position is in no region of a text. -/
def Outside (cs : List Char) (i : Nat) : Prop :=
  ∀ site ∈ sites cs, i < site.start ∨ site.stop ≤ i

instance (cs : List Char) (i : Nat) : Decidable (Outside cs i) :=
  inferInstanceAs (Decidable (∀ site ∈ sites cs, i < site.start ∨ site.stop ≤ i))

/-- No opening mark begins outside of the regions of a text, and none can begin with its last
character. -/
structure Closed (cs : List Char) : Prop where
  opening : ∀ i < cs.length, Outside cs i → ∀ d : Delimiters, ¬ d.opening <+: cs.drop i
  last : cs.getLast? ≠ some '{'

theorem getLast?_ne_of_suffix {front : List Char} (h : (front ++ cs).getLast? ≠ some c) :
    cs.getLast? ≠ some c := by
  intro hlast
  rw [List.getLast?_append, hlast] at h
  exact h rfl

/-- What comes behind a region of a closed text is closed. -/
theorem Closed.behind_region (hcs : Closed cs) (h : regionAt? cs = some (inner, rest)) :
    Closed rest := by
  have hlength := length_lt_of_regionAt? h
  have hrest := eq_drop_of_regionAt? h
  constructor
  · intro i hi hout d hopening
    -- the position in the whole text is outside of the region in front and of all that follow
    apply hcs.opening (cs.length - rest.length + i) (by omega)
    · intro site hsite
      rw [sites_of_regionAt? h] at hsite
      rcases List.mem_cons.1 hsite with rfl | hsite
      · exact Or.inr (Nat.le_add_right _ i)
      · obtain ⟨found, hfound, rfl⟩ := List.mem_map.1 hsite
        have hplace := hout found hfound
        simp only [Site.shift]
        omega
    · rw [← List.drop_drop, ← hrest]
      exact hopening
  · have hlast := hcs.last
    rw [← List.take_append_drop (cs.length - rest.length) cs, ← hrest] at hlast
    exact getLast?_ne_of_suffix hlast

/-- What comes behind a character of a closed text is closed, if no region begins with it. -/
theorem Closed.behind_character (hcs : Closed (c :: cs)) (h : regionAt? (c :: cs) = none) :
    Closed cs := by
  constructor
  · intro i hi hout
    apply hcs.opening (i + 1) (Nat.succ_lt_succ hi)
    intro site hsite
    rw [sites_cons_of_none h] at hsite
    obtain ⟨found, hfound, rfl⟩ := List.mem_map.1 hsite
    have hplace := hout found hfound
    simp only [Site.shift]
    omega
  · have hlast : ([c] ++ cs).getLast? ≠ some '{' := hcs.last
    exact getLast?_ne_of_suffix hlast

/-! ## Texts that go on -/

theorem trimStart_append_of_ne_nil (h : trimStart cs ≠ []) (more : List Char) :
    trimStart (cs ++ more) = trimStart cs ++ more := by
  rw [trimStart, List.dropWhile_append, if_neg]
  · rfl
  · rw [List.isEmpty_iff]
    exact h

theorem withoutLeadingDash_append (h : cs ≠ []) (more : List Char) :
    withoutLeadingDash (cs ++ more) = withoutLeadingDash cs ++ more := by
  obtain ⟨c, tail, rfl⟩ := List.exists_cons_of_ne_nil h
  by_cases hc : c = '-'
  · subst hc
    rfl
  · have hhead : ∀ ds : List Char, (c :: ds).head? ≠ some '-' := by
      intro ds heq
      exact hc (Option.some.inj heq)
    rw [withoutLeadingDash_of_head (hhead tail), List.cons_append,
      withoutLeadingDash_of_head (hhead (tail ++ more))]

/-- What is cut is not empty. -/
theorem ne_nil_of_cutAt? {x y : Char} {front back : List Char}
    (h : cutAt? [x, y] cs = some (front, back)) : cs ≠ [] := by
  rw [eq_append_of_cutAt? h]
  simp

/-- A region is no longer for what comes behind it. -/
theorem regionAt?_extend (h : regionAt? cs = some (inner, rest)) (more : List Char) :
    regionAt? (cs ++ more) = some (inner, rest ++ more) := by
  -- the blanks and the dash behind the opening mark end in the text itself, because the closing mark
  -- comes after them
  rcases regionAt?_cases h with ⟨tail, body, rfl, hcut, rfl⟩ | ⟨tail, body, rfl, hcut, rfl⟩
  · have hmore : cutAt? ['}', '}'] (trimStart (tail ++ more)) = some (body, rest ++ more) := by
      rw [trimStart_append_of_ne_nil (ne_nil_of_cutAt? hcut)]
      exact cutAt?_append hcut more
    rw [List.cons_append, List.cons_append, regionAt?_braces, hmore, Option.map_some]
  · have htrim := ne_nil_of_cutAt? hcut
    have htail : tail ≠ [] := by
      rintro rfl
      exact htrim rfl
    have hmore : cutAt? ['%', '}'] (trimStart (withoutLeadingDash (tail ++ more))) =
        some (body, rest ++ more) := by
      rw [withoutLeadingDash_append htail, trimStart_append_of_ne_nil htrim]
      exact cutAt?_append hcut more
    rw [List.cons_append, List.cons_append, regionAt?_percents, hmore, Option.map_some]

theorem regionAt?_eq_none (h : ∀ d : Delimiters, ¬ d.opening <+: cs) : regionAt? cs = none := by
  have hbraces : after? ['{', '{'] cs = none := after?_eq_none_iff.2 (h .braces)
  have hpercents : after? ['{', '%'] cs = none := after?_eq_none_iff.2 (h .percents)
  simp only [regionAt?, hbraces, hpercents]

/-- Where the search passes over a character of a closed text, it does so whatever comes behind the
text. -/
theorem regionAt?_append_of_none (hcs : Closed (c :: cs)) (h : regionAt? (c :: cs) = none)
    (more : List Char) : regionAt? (c :: cs ++ more) = none := by
  -- the front of the text is in no region: those that are found begin behind its first character
  have hopening : ∀ d : Delimiters, ¬ d.opening <+: c :: cs := by
    apply hcs.opening 0 (Nat.succ_pos _)
    intro site hsite
    rw [sites_cons_of_none h] at hsite
    obtain ⟨found, -, rfl⟩ := List.mem_map.1 hsite
    exact Or.inl (Nat.succ_pos _)
  apply regionAt?_eq_none
  intro d hprefix
  have hmark : d.opening.length = 2 := by cases d <;> rfl
  cases cs with
  | nil =>
    -- the text is one character, and that is not a brace
    apply hcs.last
    cases d <;> exact congrArg some (List.cons_prefix_cons.1 hprefix).1.symm
  | cons e tail =>
    -- the mark is not longer than the text, so it would stand in the text alone
    have hlength : d.opening.length ≤ (c :: e :: tail).length := by
      rw [hmark, List.length_cons, List.length_cons]
      omega
    apply hopening d
    exact List.prefix_of_prefix_length_le hprefix (List.prefix_append _ more) hlength

/-- The sites of a closed text stay when the text goes on, and those of the rest come behind
them. -/
theorem sites_append (hcs : Closed cs) (more : List Char) :
    sites (cs ++ more) = sites cs ++ (sites more).map (Site.shift cs.length) := by
  -- the search takes the same steps in both texts, and what it has not read yet stays closed
  induction cs using searchRec with
  | nil =>
    have hnone : Site.shift 0 = id := rfl
    rw [sites_nil, List.nil_append, List.nil_append, List.length_nil, hnone, List.map_id]
  | region cs inner rest h ih =>
    have hlength := length_lt_of_regionAt? h
    have hwidth : (cs ++ more).length - (rest ++ more).length = cs.length - rest.length := by
      simp only [List.length_append]
      omega
    have hsum : rest.length + (cs.length - rest.length) = cs.length := by omega
    rw [sites_of_regionAt? (regionAt?_extend h more), sites_of_regionAt? h, hwidth,
      ih (hcs.behind_region h), List.map_append, List.map_map, shift_comp_shift, hsum,
      List.cons_append]
  | passed c cs h ih =>
    have hnone : regionAt? (c :: (cs ++ more)) = none := regionAt?_append_of_none hcs h more
    rw [List.cons_append, sites_cons_of_none hnone, sites_cons_of_none h,
      ih (hcs.behind_character h), List.map_append, List.map_map, shift_comp_shift,
      List.length_cons]

theorem regionsOf_append_of_closed (hcs : Closed cs) (more : List Char) :
    regionsOf (cs ++ more) = regionsOf cs ++ regionsOf more := by
  rw [← inner_sites, ← inner_sites, ← inner_sites, sites_append hcs, List.map_append, List.map_map]
  rfl

/-! ## Tables that are there before -/

/-- A table with the entries of a second table behind it whose keys are new. -/
def extended (table more : KeyTable) : KeyTable :=
  table ++ more.filter fun e => !Assoc.contains e.1 table

@[simp] theorem extended_nil (table : KeyTable) : extended table [] = table :=
  List.append_nil table

theorem mem_keys_extended {table more : KeyTable} {key : String} :
    key ∈ Assoc.keys (extended table more) ↔ key ∈ Assoc.keys table ∨ key ∈ Assoc.keys more := by
  simp only [Assoc.keys, extended, List.map_append, List.mem_append]
  constructor
  · rintro (htable | hmore)
    · exact Or.inl htable
    · obtain ⟨e, he, rfl⟩ := List.mem_map.1 hmore
      exact Or.inr (List.mem_map_of_mem (List.mem_filter.1 he).1)
  · rintro (htable | hmore)
    · exact Or.inl htable
    · by_cases htable : key ∈ Assoc.keys table
      · exact Or.inl htable
      · obtain ⟨e, he, rfl⟩ := List.mem_map.1 hmore
        refine Or.inr (List.mem_map_of_mem (List.mem_filter.2 ⟨he, ?_⟩))
        rw [Bool.not_eq_true', ← Bool.not_eq_true, Assoc.contains_iff]
        exact htable

/-- A key is added to a table that is extended, or to the table that extends it. -/
theorem addKey_extended (table more : KeyTable) (key : String) (value : Document) :
    addKey (extended table more) key value = extended table (addKey more key value) := by
  rw [addKey_eq, addKey_eq]
  by_cases hmore : key ∈ Assoc.keys more
  · rw [if_pos hmore, if_pos (mem_keys_extended.2 (Or.inr hmore))]
  · rw [if_neg hmore]
    -- a key of the first table is added to the second, where the filter drops it
    by_cases htable : key ∈ Assoc.keys table
    · rw [if_pos (mem_keys_extended.2 (Or.inl htable)), extended, extended, List.filter_append]
      have hcontains : Assoc.contains key table = true := Assoc.contains_iff.2 htable
      simp [hcontains]
    · have hnew : ¬ key ∈ Assoc.keys (extended table more) := by
        rw [mem_keys_extended, not_or]
        exact ⟨htable, hmore⟩
      have hcontains : Assoc.contains key table = false := by
        rw [← Bool.not_eq_true, Assoc.contains_iff]
        exact htable
      rw [if_neg hnew, extended, extended, List.filter_append, List.append_assoc]
      simp [hcontains]

theorem scanSegment_extended (table : KeyTable) (state : ScanState × KeyTable) (segment : String) :
    scanSegment (state.map id (extended table)) segment =
      (scanSegment state segment).map id (extended table) := by
  obtain ⟨memory, more⟩ := state
  cases memory with
  | idle => rfl
  | waiting before =>
    simp only [scanSegment, Prod.map_apply, id]
    split
    · cases keyLiteral? before with
      | none => rfl
      | some key => exact congrArg _ (addKey_extended table more key _)
    · rfl

/-- The scan of a region adds the same to a table that is extended and to the table that extends
it. -/
theorem scanRegion_extended (table more : KeyTable) (region : String) :
    scanRegion (extended table more) region = extended table (scanRegion more region) := by
  have hfold : (segments region).foldl scanSegment
      (Prod.map id (extended table) (.idle, more)) =
        ((segments region).foldl scanSegment (.idle, more)).map id (extended table) :=
    List.foldl_hom (Prod.map id (extended table)) (scanSegment_extended table)
  exact congrArg Prod.snd hfold

theorem foldl_scanRegion_extended (table more : KeyTable) (found : List String) :
    found.foldl scanRegion (extended table more) =
      extended table (found.foldl scanRegion more) :=
  List.foldl_hom (extended table) (scanRegion_extended table)

/-- The scan of a closed text that goes on: the regions of the rest follow those of the text, and
of the keys of the rest those follow that the text does not have. -/
theorem scan_append (a b : String) (ha : Closed a.toList) :
    regions (a ++ b) = regions a ++ regions b ∧
      scanKeys (a ++ b) =
        scanKeys a ++ (scanKeys b).filter fun e => !Assoc.contains e.1 (scanKeys a) := by
  have hregions : regions (a ++ b) = regions a ++ regions b := by
    simp only [regions, String.toList_append, regionsOf_append_of_closed ha, List.map_append]
  refine ⟨hregions, ?_⟩
  -- the regions of the second text are scanned into the table of the first
  have hfold := foldl_scanRegion_extended (scanKeys a) []
    ((regions b).filter fun region => region.toList.contains '|')
  rw [extended_nil] at hfold
  rw [scanKeys, hregions, List.filter_append, List.foldl_append]
  exact hfold

/-- A closed text with an opening mark inside of its region. -/
def closedText : String :=
  "\x7b\x7b 'a' | t: '\x7b%' \x7d\x7d \x7b-"

/-- A text with marks that cross and marks that nothing closes. -/
def crossedText : String :=
  "%- 'b' | t -%\x7d\x7b\x7b 'a' | t: 'z' \x7d\x7d \x7b% 'c' | t %\x7d\x7d \x7b\x7b 'd' %\x7d"

theorem scan_append_crossed :
    Closed closedText.toList ∧
      regions (closedText ++ crossedText) =
        ["'a' | t: '\x7b%'", "'a' | t: 'z'", "'c' | t"] ∧
      scanKeys (closedText ++ crossedText) = [("a", .string "\x7b%"), ("c", .string "")] := by
  have hclosed : Closed closedText.toList := by
    constructor
    · intro i hi hout d
      revert i
      cases d <;> decide +kernel
    · decide +kernel
  have hregions : regions closedText = ["'a' | t: '\x7b%'"] := by cbv
  have hmore : regions crossedText = ["'a' | t: 'z'", "'c' | t"] := by cbv
  have hkeys : scanKeys closedText = [("a", .string "\x7b%")] := by
    rw [scanKeys, hregions]
    rfl
  have hmoreKeys : scanKeys crossedText = [("a", .string "z"), ("c", .string "")] := by
    rw [scanKeys, hmore]
    rfl
  have hscan := scan_append closedText crossedText hclosed
  rw [hregions, hmore, hkeys, hmoreKeys] at hscan
  exact ⟨hclosed, hscan⟩

end ThemeLocales.Template
