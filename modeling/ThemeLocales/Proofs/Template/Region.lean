import ThemeLocales.Proofs.Text.Search
import ThemeLocales.Template.Region

/-!
# Where regions stand

Every region that is found stands between two marks of one kind (`encloses_of_mem_regions`). In the
other direction, a text between two marks is found when the closing mark does not show up earlier
(`regionAt?_append`), and what has no opening mark is passed over (`regionsOf_append`).
-/

set_option autoImplicit false

namespace ThemeLocales.Template

open Text

/-- The two kinds of marks around a region. -/
inductive Delimiters
  | braces
  | percents
  deriving DecidableEq, Repr

namespace Delimiters

/-- The mark before a region. -/
def opening : Delimiters → List Char
  | braces => ['{', '{']
  | percents => ['{', '%']

/-- The first character of the mark after a region; a brace follows. -/
def closingSign : Delimiters → Char
  | braces => '}'
  | percents => '%'

/-- The mark after a region. -/
def closing (d : Delimiters) : List Char :=
  [d.closingSign, '}']

/-- What may stand between a mark and the blanks inside it. -/
def dashes : Delimiters → List (List Char)
  | braces => [[]]
  | percents => [[], ['-']]

end Delimiters

/-- A text begins with a region: an inner text between marks, with blanks around it, and what comes
after it. -/
def BeginsWithRegion (cs inner rest : List Char) : Prop :=
  ∃ d : Delimiters, ∃ dash ∈ d.dashes, ∃ dash' ∈ d.dashes, ∃ front back,
    Blanks front ∧ Blanks back ∧
      cs = d.opening ++ dash ++ front ++ inner ++ back ++ dash' ++ d.closing ++ rest

/-- A text has a region with an inner text somewhere. -/
def Encloses (cs inner : List Char) : Prop :=
  ∃ before region rest, cs = before ++ region ∧ BeginsWithRegion region inner rest

variable {cs inner rest : List Char}

/-! ## Regions that are found -/

theorem exists_withoutLeadingDash (cs : List Char) :
    ∃ dash ∈ Delimiters.percents.dashes, cs = dash ++ withoutLeadingDash cs := by
  unfold withoutLeadingDash
  split
  · exact ⟨['-'], by simp [Delimiters.dashes], rfl⟩
  · exact ⟨[], by simp [Delimiters.dashes], rfl⟩

theorem exists_withoutTrailingDash (cs : List Char) :
    ∃ dash ∈ Delimiters.percents.dashes, cs = withoutTrailingDash cs ++ dash := by
  obtain ⟨dash, hdash, hcs⟩ := exists_withoutLeadingDash cs.reverse
  -- At most one dash is taken, so it reads the same backwards.
  have hsame : dash.reverse = dash := by
    rcases List.mem_cons.1 hdash with rfl | hdash
    · rfl
    · obtain rfl := List.mem_singleton.1 hdash
      rfl
  refine ⟨dash, hdash, ?_⟩
  calc cs = (dash ++ withoutLeadingDash cs.reverse).reverse := by rw [← hcs, List.reverse_reverse]
    _ = withoutTrailingDash cs ++ dash := by rw [List.reverse_append, hsame]; rfl

theorem regionAt?_braces (tail : List Char) :
    regionAt? ('{' :: '{' :: tail) =
      (cutAt? ['}', '}'] (trimStart tail)).map fun (body, rest) => (trimEnd body, rest) := by
  simp [regionAt?, after?]

theorem regionAt?_percents (tail : List Char) :
    regionAt? ('{' :: '%' :: tail) =
      (cutAt? ['%', '}'] (trimStart (withoutLeadingDash tail))).map fun (body, rest) =>
        (trimEnd (withoutTrailingDash body), rest) := by
  simp [regionAt?, after?]

/-- The two ways to find a region. -/
theorem regionAt?_cases (h : regionAt? cs = some (inner, rest)) :
    (∃ tail body, cs = '{' :: '{' :: tail ∧
      cutAt? ['}', '}'] (trimStart tail) = some (body, rest) ∧ inner = trimEnd body) ∨
    ∃ tail body, cs = '{' :: '%' :: tail ∧
      cutAt? ['%', '}'] (trimStart (withoutLeadingDash tail)) = some (body, rest) ∧
        inner = trimEnd (withoutTrailingDash body) := by
  rw [regionAt?] at h
  split at h
  · next tail htail =>
    obtain ⟨⟨body, after⟩, hcut, heq⟩ := Option.map_eq_some_iff.1 h
    cases heq
    exact Or.inl ⟨tail, body, eq_append_of_after? htail, hcut, rfl⟩
  · split at h
    · next tail htail =>
      obtain ⟨⟨body, after⟩, hcut, heq⟩ := Option.map_eq_some_iff.1 h
      cases heq
      exact Or.inr ⟨tail, body, eq_append_of_after? htail, hcut, rfl⟩
    · cases h

theorem beginsWithRegion_of_regionAt? (h : regionAt? cs = some (inner, rest)) :
    BeginsWithRegion cs inner rest := by
  rcases regionAt?_cases h with ⟨tail, body, rfl, hcut, rfl⟩ | ⟨tail, body, rfl, hcut, rfl⟩
  · obtain ⟨front, hfront, htrim, -⟩ := exists_blanks_trimStart tail
    obtain ⟨back, hback, hbody, -⟩ := exists_blanks_trimEnd body
    refine ⟨.braces, [], by simp [Delimiters.dashes], [], by simp [Delimiters.dashes], front, back,
      hfront, hback, ?_⟩
    have hwhole : tail = front ++ (trimEnd body ++ back ++ ['}', '}'] ++ rest) := by
      rw [← hbody, ← eq_append_of_cutAt? hcut, ← htrim]
    conv_lhs => rw [hwhole]
    simp [Delimiters.opening, Delimiters.closing, Delimiters.closingSign]
  · obtain ⟨dash, hdash, htail⟩ := exists_withoutLeadingDash tail
    obtain ⟨front, hfront, htrim, -⟩ := exists_blanks_trimStart (withoutLeadingDash tail)
    obtain ⟨dash', hdash', hbody⟩ := exists_withoutTrailingDash body
    obtain ⟨back, hback, hbody', -⟩ := exists_blanks_trimEnd (withoutTrailingDash body)
    refine ⟨.percents, dash, hdash, dash', hdash', front, back, hfront, hback, ?_⟩
    have hwhole : tail = dash ++ (front ++ (trimEnd (withoutTrailingDash body) ++ back ++ dash' ++
        ['%', '}'] ++ rest)) := by
      rw [← hbody', ← hbody, ← eq_append_of_cutAt? hcut, ← htrim, ← htail]
    conv_lhs => rw [hwhole]
    simp [Delimiters.opening, Delimiters.closing, Delimiters.closingSign]

theorem regionsOf_of_regionAt? (h : regionAt? cs = some (inner, rest)) :
    regionsOf cs = inner :: regionsOf rest := by
  rw [regionsOf]
  split
  · next found hfound =>
    rw [h] at hfound
    cases hfound
    rfl
  · next hnone =>
    rw [h] at hnone
    cases hnone

theorem regionsOf_cons_of_none {c : Char} (h : regionAt? (c :: cs) = none) :
    regionsOf (c :: cs) = regionsOf cs := by
  rw [regionsOf]
  split
  · next hsome =>
    rw [h] at hsome
    cases hsome
  · rfl

@[simp] theorem regionsOf_nil : regionsOf [] = [] := by
  rw [regionsOf]
  rfl

/-- Induction along the search for regions, which goes on behind a region where one begins and else
behind one character. -/
@[elab_as_elim]
theorem searchRec {motive : List Char → Prop} (nil : motive [])
    (region : ∀ cs inner rest, regionAt? cs = some (inner, rest) → motive rest → motive cs)
    (passed : ∀ c cs, regionAt? (c :: cs) = none → motive cs → motive (c :: cs))
    (cs : List Char) : motive cs := by
  induction hn : cs.length using Nat.strong_induction_on generalizing cs with
  | h n ih =>
    subst hn
    cases hregion : regionAt? cs with
    | some found =>
      have hlength := length_lt_of_regionAt? hregion
      exact region cs found.1 found.2 hregion (ih _ hlength found.2 rfl)
    | none =>
      cases cs with
      | nil => exact nil
      | cons c cs => exact passed c cs hregion (ih _ (Nat.lt_succ_self _) cs rfl)

/-- Every region that is found is enclosed by marks. -/
theorem encloses_of_mem_regionsOf (h : inner ∈ regionsOf cs) : Encloses cs inner := by
  induction cs using searchRec with
  | nil => simp at h
  | region cs found rest hregion ih =>
    have hbegins := beginsWithRegion_of_regionAt? hregion
    rw [regionsOf_of_regionAt? hregion] at h
    rcases List.mem_cons.1 h with rfl | h
    · exact ⟨[], cs, rest, rfl, hbegins⟩
    · obtain ⟨before, region, after, heq, hafter⟩ := ih h
      obtain ⟨d, dash, -, dash', -, front, back, -, -, hcs⟩ := hbegins
      refine ⟨d.opening ++ dash ++ front ++ found ++ back ++ dash' ++ d.closing ++ before, region,
        after, ?_, hafter⟩
      rw [hcs, heq]
      simp
  | passed c cs hnone ih =>
    rw [regionsOf_cons_of_none hnone] at h
    obtain ⟨before, region, after, heq, hafter⟩ := ih h
    exact ⟨c :: before, region, after, by rw [heq, List.cons_append], hafter⟩

theorem encloses_of_mem_regions {text region : String} (h : region ∈ regions text) :
    Encloses text.toList region.toList := by
  obtain ⟨inner, hinner, rfl⟩ := List.mem_map.1 h
  rw [String.toList_ofList]
  exact encloses_of_mem_regionsOf hinner

/-! ## Regions that are to be found -/

/-- An inner text as it stands between marks: no blank and no dash at its ends. -/
structure Inner (cs : List Char) : Prop extends Tight cs where
  ne_nil : cs ≠ []
  head_ne : cs.head? ≠ some '-'
  last_ne : cs.getLast? ≠ some '-'

theorem withoutLeadingDash_of_head (h : cs.head? ≠ some '-') : withoutLeadingDash cs = cs := by
  unfold withoutLeadingDash
  split
  · exact absurd rfl h
  · rfl

/-- Blanks next to a mark are no dash. -/
theorem head?_blanks_append {front : List Char} (hfront : Blanks front) (h : cs.head? ≠ some '-') :
    (front ++ cs).head? ≠ some '-' := by
  cases front with
  | nil => exact h
  | cons c rest =>
    intro heq
    have hblank := hfront c List.mem_cons_self
    cases heq
    revert hblank
    decide

theorem getLast?_append_blanks {back : List Char} (hback : Blanks back)
    (h : cs.getLast? ≠ some '-') : (cs ++ back).getLast? ≠ some '-' := by
  rw [← List.head?_reverse, List.reverse_append]
  refine head?_blanks_append (fun c hc => hback c (List.mem_reverse.1 hc)) ?_
  rwa [List.head?_reverse]

/-- A dash for the control of blanks, where there is one. -/
def dashChars (dashed : Bool) : List Char :=
  if dashed then ['-'] else []

theorem withoutLeadingDash_dashChars (dashed : Bool) (h : cs.head? ≠ some '-') :
    withoutLeadingDash (dashChars dashed ++ cs) = cs := by
  cases dashed with
  | true => rfl
  | false => exact withoutLeadingDash_of_head h

theorem withoutTrailingDash_dashChars (dashed : Bool) (h : cs.getLast? ≠ some '-') :
    withoutTrailingDash (cs ++ dashChars dashed) = cs := by
  have hreverse : (dashChars dashed).reverse = dashChars dashed := by cases dashed <;> rfl
  rw [withoutTrailingDash, List.reverse_append, hreverse, withoutLeadingDash_dashChars,
    List.reverse_reverse]
  rwa [List.head?_reverse]

section Marks

variable {front back : List Char}

theorem trimStart_append_tight (hfront : Blanks front) (hinner : Tight inner) (hne : inner ≠ [])
    (tail : List Char) : trimStart (front ++ (inner ++ tail)) = inner ++ tail := by
  rw [trimStart_append hfront, trimStart_of_head]
  intro c hc
  rw [List.head?_append_of_ne_nil _ hne] at hc
  exact hinner.head c hc

/-- A text between double braces is a region, if the closing braces do not show up in it. -/
theorem regionAt?_braces_append (rest : List Char) (hfront : Blanks front) (hback : Blanks back)
    (hinner : Tight inner) (hne : inner ≠ []) (h : Lacks '}' '}' (inner ++ back ++ ['}'])) :
    regionAt? ('{' :: '{' :: (front ++ (inner ++ (back ++ '}' :: '}' :: rest)))) =
      some (inner, rest) := by
  have hend : trimEnd (inner ++ back) = inner := by
    rw [trimEnd_append hback, trimEnd_of_last hinner.last]
  rw [regionAt?_braces, trimStart_append_tight hfront hinner hne, ← List.append_assoc,
    cutAt?_pair rest h]
  simp only [Option.map_some, hend]

/-- So is one between percent signs, which may have a dash inside them. -/
theorem regionAt?_percents_append (before after : Bool) (rest : List Char) (hfront : Blanks front)
    (hback : Blanks back) (hinner : Inner inner)
    (h : Lacks '%' '}' (inner ++ back ++ dashChars after ++ ['%'])) :
    regionAt? ('{' :: '%' :: (dashChars before ++
      (front ++ (inner ++ (back ++ (dashChars after ++ '%' :: '}' :: rest)))))) =
        some (inner, rest) := by
  have hhead : (front ++ (inner ++ (back ++ (dashChars after ++ '%' :: '}' :: rest)))).head? ≠
      some '-' := by
    refine head?_blanks_append hfront ?_
    rw [List.head?_append_of_ne_nil _ hinner.ne_nil]
    exact hinner.head_ne
  have hend : trimEnd (withoutTrailingDash (inner ++ back ++ dashChars after)) = inner := by
    rw [withoutTrailingDash_dashChars _ (getLast?_append_blanks hback hinner.last_ne),
      trimEnd_append hback, trimEnd_of_last hinner.last]
  rw [regionAt?_percents, withoutLeadingDash_dashChars _ hhead,
    trimStart_append_tight hfront hinner.toTight hinner.ne_nil, ← List.append_assoc,
    ← List.append_assoc, cutAt?_pair rest h]
  simp only [Option.map_some, hend]

/-- A text between two marks of one kind is a region, if the closing mark does not show up in it. -/
theorem regionAt?_append (d : Delimiters) (rest : List Char) (hfront : Blanks front)
    (hback : Blanks back) (hinner : Inner inner)
    (h : Lacks d.closingSign '}' (inner ++ back ++ [d.closingSign])) :
    regionAt? (d.opening ++ front ++ inner ++ back ++ d.closing ++ rest) = some (inner, rest) := by
  cases d with
  | braces =>
    have hregion := regionAt?_braces_append rest hfront hback hinner.toTight hinner.ne_nil h
    simpa [Delimiters.opening, Delimiters.closing, Delimiters.closingSign] using hregion
  | percents =>
    have hregion := regionAt?_percents_append false false rest hfront hback hinner
      (by simpa [dashChars, Delimiters.closingSign] using h)
    simpa [Delimiters.opening, Delimiters.closing, Delimiters.closingSign, dashChars] using hregion

end Marks

/-- A text in which no region begins, whatever comes after it. -/
structure Filler (cs : List Char) : Prop where
  braces : Lacks '{' '{' cs
  percents : Lacks '{' '%' cs
  last : cs.getLast? ≠ some '{'

instance (cs : List Char) : Decidable (Filler cs) :=
  decidable_of_iff (Lacks '{' '{' cs ∧ Lacks '{' '%' cs ∧ cs.getLast? ≠ some '{')
    ⟨fun ⟨hbraces, hpercents, hlast⟩ => ⟨hbraces, hpercents, hlast⟩,
      fun h => ⟨h.braces, h.percents, h.last⟩⟩

/-- What has no opening mark is passed over. -/
theorem regionsOf_append (h : Filler cs) (rest : List Char) :
    regionsOf (cs ++ rest) = regionsOf rest := by
  induction cs with
  | nil => rfl
  | cons c cs ih =>
    have hbraces := lacks_iff.1 h.braces
    have hpercents := lacks_iff.1 h.percents
    -- no region opens here: a brace of the filler is not followed by what opens one
    have hnone : regionAt? (c :: (cs ++ rest)) = none := by
      by_cases hc : c = '{'
      · subst hc
        cases cs with
        | nil => exact absurd rfl h.last
        | cons d cs =>
          have hd := (List.isChain_cons_cons.1 hbraces).1
          have hd' := (List.isChain_cons_cons.1 hpercents).1
          simp_all [regionAt?, after?, eq_comm]
      · simp [regionAt?, after?, Ne.symm hc]
    rw [List.cons_append, regionsOf_cons_of_none hnone]
    cases cs with
    | nil => rfl
    | cons d cs =>
      exact ih ⟨lacks_iff.2 hbraces.tail, lacks_iff.2 hpercents.tail, by
        simpa [List.getLast?_cons_cons] using h.last⟩

end ThemeLocales.Template
