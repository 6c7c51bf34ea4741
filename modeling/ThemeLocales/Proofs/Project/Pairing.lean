import ThemeLocales.Proofs.Document.Completed
import ThemeLocales.Proofs.Document.Order
import ThemeLocales.Proofs.Project.Reconcile

/-!
# Two ways of pairing list items

The translation walk pairs the items of two lists by their index, a merge pairs them after it has
sorted both lists. For a list of translations the walk changes nothing, while a merge leaves the
translations in the order of their code units, whatever the main list says (`merge_textList`). The
two agree on a list exactly when its translations are in that order, and an extraction after a
translation leaves a list as the merge does (`translations_sorted`).
-/

set_option autoImplicit false

namespace ThemeLocales

namespace Document

/-- Functions that change none of some values leave the values as they are. -/
theorem applyEach_eq_self {fs : List (Document → Document)} {ds : List Document}
    (hlength : fs.length = ds.length) (h : ∀ f ∈ fs, ∀ d ∈ ds, f d = d) :
    applyEach fs ds = ds := by
  induction fs generalizing ds with
  | nil =>
    rw [List.length_eq_zero_iff.1 hlength.symm]
    rfl
  | cons f fs ih =>
    cases ds with
    | nil => simp at hlength
    | cons d ds =>
      rw [applyEach, h f List.mem_cons_self d List.mem_cons_self]
      rw [ih (by simpa using hlength) fun g hg x hx =>
        h g (List.mem_cons_of_mem f hg) x (List.mem_cons_of_mem d hx)]

variable {texts translations : List String}

/-- A merge along a list of texts sorts a list of translations and changes none of them. -/
theorem merge_textList (hlength : translations.length = texts.length)
    (hne : ∀ t ∈ translations, t ≠ "") :
    merge .structureOnly (textList translations) (textList texts) =
      textList (translations.mergeSort Text.unitsBefore) := by
  rw [textList, textList, merge_list, items, sorted_strings, sorted_strings, textList]
  congr 1
  apply applyEach_eq_self
  · simp [hlength]
  · intro f hf d hd
    obtain ⟨u, hu, rfl⟩ := List.mem_map.1 hf
    obtain ⟨text, -, rfl⟩ := List.mem_map.1 hu
    obtain ⟨t, ht, rfl⟩ := List.mem_map.1 hd
    -- a text that is not empty is content, so it stays where the main list has a text
    have hcontent : (string t).isContent = true := by
      simpa [isContent] using hne t (List.mem_mergeSort.1 ht)
    exact settle_of_stays .structureOnly (string text) (Or.inr hcontent)

/-- A walk along a list of texts leaves a list of translations alone. -/
theorem completed_textList (answer : String → String)
    (hlength : translations.length = texts.length) (hne : ∀ t ∈ translations, t ≠ "") :
    completed answer (textList texts) (textList translations) = textList translations := by
  symm
  apply eq_completed
  refine .list (filledItems_self ?_)
  induction texts generalizing translations with
  | nil =>
    rw [List.length_eq_zero_iff.1 hlength]
    exact .nil
  | cons text texts ih =>
    cases translations with
    | nil => simp at hlength
    | cons t translations =>
      refine .cons (.kept ?_) (ih (by simpa using hlength) fun t' ht' =>
        hne t' (List.mem_cons_of_mem t ht'))
      simpa [isTranslated] using hne t List.mem_cons_self

/-- Sorting translations changes nothing exactly when they are in order. -/
theorem mergeSort_eq_self_iff :
    translations.mergeSort Text.unitsBefore = translations ↔
      translations.Pairwise fun a b => Text.unitsBefore a b = true := by
  constructor
  · intro h
    rw [← h]
    exact List.pairwise_mergeSort Text.unitsBefore_trans Text.unitsBefore_total translations
  · exact List.mergeSort_of_pairwise

end Document

namespace Project

open Document

variable {texts translations : List String}

/-- Cleaning leaves no item of a list, because the extracted tree has no lists. -/
theorem eq_nil_of_clean {origin extracted : Document} {path : List String}
    (hlist : extracted.ListFree)
    (h : at? path (reconcileMain origin extracted true) = some (textList texts)) :
    texts = [] ∧ ∃ r, at? path extracted = some r := by
  change at? path ((merge .preserve origin extracted).prune extracted) = some (textList texts) at h
  rw [at?_prune, Option.bind_eq_some_iff] at h
  obtain ⟨v, -, hv⟩ := h
  obtain ⟨r, hr, hpruned⟩ := Option.map_eq_some_iff.1 hv
  refine ⟨?_, r, hr⟩
  have hitems : r.items = [] := by
    have hkind := hlist r (part_of_at? hr)
    cases r <;> first | rfl | simp [kind] at hkind
  cases v with
  | list ds =>
    have hnone : pruneItems ds [] = [] := by cases ds <;> rfl
    rw [prune, hitems, hnone] at hpruned
    exact List.map_eq_nil_iff.1 (Document.list.inj hpruned).symm
  | _ => cases hpruned

/-- A walk leaves translations of a list of texts where they are, and a merge sorts them. So a merge
leaves them where they are exactly when they are in the order of their code units, and so does an
extraction, at every path at which the main document still has the list. -/
theorem translations_sorted (hlength : translations.length = texts.length)
    (hne : ∀ t ∈ translations, t ≠ "") :
    (∀ answer, completed answer (textList texts) (textList translations) =
      textList translations) ∧
    merge .structureOnly (textList translations) (textList texts) =
      textList (translations.mergeSort Text.unitsBefore) ∧
    (merge .structureOnly (textList translations) (textList texts) = textList translations ↔
      translations.Pairwise fun a b => Text.unitsBefore a b = true) ∧
    ∀ (main target extracted : Document) (path : List String) (clean : Bool),
      extracted.ListFree → at? path target = some (textList translations) →
      at? path (reconcileMain main extracted clean) = some (textList texts) →
      at? path (reconcileTarget target (reconcileMain main extracted clean) extracted clean) =
        some (textList (translations.mergeSort Text.unitsBefore)) := by
  have hmerge := merge_textList hlength hne
  refine ⟨fun answer => completed_textList answer hlength hne, hmerge, ?_, ?_⟩
  · rw [hmerge, ← mergeSort_eq_self_iff]
    exact ⟨fun h => textList_injective h, fun h => congrArg textList h⟩
  · intro main target extracted path clean hlist htarget hmain
    have hmerged : at? path (merge .structureOnly target (reconcileMain main extracted clean)) =
        some (textList (translations.mergeSort Text.unitsBefore)) := by
      rw [at?_merge_of_at? .structureOnly hmain, htarget]
      exact congrArg some hmerge
    cases clean with
    | false => exact hmerged
    | true =>
      -- cleaning leaves a list only where the extraction has none, so there are no translations
      obtain ⟨rfl, r, hr⟩ := eq_nil_of_clean hlist hmain
      obtain rfl := List.length_eq_zero_iff.1 hlength
      change at? path ((merge .structureOnly target _).prune extracted) = _
      rw [at?_prune, hmerged, hr, List.mergeSort_nil]
      rfl

/-- Of three translations in a list the first two change places, and the third, whose first letter
comes after all letters without accents, stays the last. -/
theorem translations_sorted_fruit :
    at? ["fruit"] (reconcileTarget (.map [("fruit", textList ["Pomme", "Poire", "Érable"])])
        (reconcileMain (.map [("fruit", textList ["Apple", "Pear", "Maple"])])
          (.map [("title", .string "Fruit")]) false)
        (.map [("title", .string "Fruit")]) false) =
      some (textList ["Poire", "Pomme", "Érable"]) := by
  have hsorted : ["Pomme", "Poire", "Érable"].mergeSort Text.unitsBefore =
      ["Poire", "Pomme", "Érable"] := by
    have hfirst : Text.unitsBefore "Pomme" "Poire" = false := by decide +kernel
    have hsecond : Text.unitsBefore "Poire" "Érable" = true := by decide +kernel
    have hthird : Text.unitsBefore "Pomme" "Érable" = true := by decide +kernel
    simp [List.mergeSort, hfirst, hsecond, hthird]
  have hlength : ["Pomme", "Poire", "Érable"].length = ["Apple", "Pear", "Maple"].length := rfl
  have htree : (Document.map [("title", .string "Fruit")]).ListFree :=
    listFree_map_iff.2 (by simpa using listFree_of_scalar rfl)
  obtain ⟨-, -, -, hextraction⟩ := translations_sorted hlength (by decide)
  rw [hextraction _ _ _ ["fruit"] false htree rfl rfl, hsorted]

/-- A merge does not leave translations at the index of the texts they belong to: the walk gives
each text its own translation, and the merge exchanges the two. -/
theorem merge_textList_ne :
    completed (fun text => if text = "Apple" then "Pomme" else "Birne")
        (textList ["Apple", "Pear"]) .null = textList ["Pomme", "Birne"] ∧
      merge .structureOnly (textList ["Pomme", "Birne"]) (textList ["Apple", "Pear"]) =
        textList ["Birne", "Pomme"] ∧
      textList ["Birne", "Pomme"] ≠ textList ["Pomme", "Birne"] := by
  have hsorted : ["Pomme", "Birne"].mergeSort Text.unitsBefore = ["Birne", "Pomme"] := by
    have hafter : Text.unitsBefore "Pomme" "Birne" = false := by decide +kernel
    simp [List.mergeSort, hafter]
  refine ⟨rfl, ?_, fun h => absurd (textList_injective h) (by decide)⟩
  rw [merge_textList (by decide) (by decide), hsorted]

end Project

end ThemeLocales
