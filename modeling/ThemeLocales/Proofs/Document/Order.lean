import Mathlib.Data.List.Sort
import ThemeLocales.Document.Merge
import ThemeLocales.Proofs.Text.Units

/-!
# The order of list items

Sorting is stable: the items come out in the order of the code units of their text forms, and those
of one form in the order in which they were. Distinct texts have distinct forms, so a list of texts
is sorted in one way only, whatever order it comes in (`mergeSort_eq_of_perm`), and the text in each
place is the one that has that rank (`getElem?_mergeSort_iff`).

A merge sorts both lists before it pairs them. So a merge of lists of texts does not depend on the
order of either list (`exists_merge_textList_of_perm`).
-/

set_option autoImplicit false

namespace ThemeLocales.Document

open Text

/-! ## Sorting is stable -/

theorem sortsBefore_total (a b : Document) : (sortsBefore a b || sortsBefore b a) = true :=
  unitsLE_total _ _

theorem sortsBefore_trans (a b c : Document) (hab : sortsBefore a b = true)
    (hbc : sortsBefore b c = true) : sortsBefore a c = true :=
  unitsLE_trans hab hbc

theorem perm_sorted (ds : List Document) : (sorted ds).Perm ds :=
  List.mergeSort_perm ds sortsBefore

/-- The items come in the order of their code units. -/
theorem pairwise_sorted (ds : List Document) :
    (sorted ds).Pairwise fun a b => units (sortText a) ≤ units (sortText b) := by
  apply (List.pairwise_mergeSort sortsBefore_trans sortsBefore_total ds).imp
  intro a b hab
  exact (unitsLE_iff_le _ _).1 hab

/-- Items of one form keep their order. -/
theorem filter_sorted (ds : List Document) (form : String) :
    (sorted ds).filter (fun d => sortText d = form) = ds.filter fun d => sortText d = form := by
  have hsame : (ds.filter fun d => sortText d = form).Pairwise
      fun a b => sortsBefore a b = true := by
    apply List.pairwise_of_forall_mem_list
    intro a ha b hb
    have hform : sortText a = sortText b := by
      rw [of_decide_eq_true (List.mem_filter.1 ha).2, of_decide_eq_true (List.mem_filter.1 hb).2]
    rw [sortsBefore, sortUnits, sortUnits, hform]
    exact unitsLE_refl _
  have hsublist : (ds.filter fun d => sortText d = form).Sublist (sorted ds) :=
    List.sublist_mergeSort sortsBefore_trans sortsBefore_total hsame List.filter_sublist
  -- all of them are there in their order, and there are no more of this form
  have hkept := hsublist.filter fun d => sortText d = form
  simp only [List.filter_filter, Bool.and_self] at hkept
  apply (hkept.eq_of_length ?_).symm
  exact ((perm_sorted ds).symm.filter _).length_eq

/-! ## Lists of texts -/

/-- A list of texts. -/
def textList (texts : List String) : Document :=
  .list (texts.map .string)

theorem textList_injective {texts others : List String} (h : textList texts = textList others) :
    texts = others := by
  have hinjective : Function.Injective (Document.string : String → Document) := by
    intro a b hab
    cases hab
    rfl
  exact List.map_injective_iff.2 hinjective (Document.list.inj h)

/-- Texts are sorted as items of a list by their own code units. -/
theorem sorted_strings (texts : List String) :
    sorted (texts.map .string) = (texts.mergeSort Text.unitsBefore).map .string :=
  (List.map_mergeSort (r := Text.unitsBefore) (s := sortsBefore) (f := .string)
    fun _ _ _ _ => rfl).symm

/-- Texts are sorted in one way only. -/
theorem mergeSort_eq_of_perm {texts others : List String} (h : texts.Perm others) :
    texts.mergeSort unitsBefore = others.mergeSort unitsBefore := by
  have hsorted := List.pairwise_mergeSort unitsBefore_trans unitsBefore_total
  apply List.Perm.eq_of_pairwise _ (hsorted texts) (hsorted others)
  · exact (List.mergeSort_perm texts _).trans (h.trans (List.mergeSort_perm others _).symm)
  · intro a b _ _ hab hba
    exact unitsBefore_antisymm hab hba

/-! ## Ranks -/

/-- A text has a rank among some texts, counted from zero by their code units: no more than `i` of
them come before it, and more than `i` do not come after it. -/
structure RanksAt (texts : List String) (i : ℕ) (s : String) : Prop where
  mem : s ∈ texts
  before : texts.countP (fun t => units t < units s) ≤ i
  upTo : i < texts.countP fun t => units t ≤ units s

instance (texts : List String) (i : ℕ) (s : String) : Decidable (RanksAt texts i s) :=
  decidable_of_iff (s ∈ texts ∧ texts.countP (fun t => units t < units s) ≤ i ∧
      i < texts.countP fun t => units t ≤ units s)
    ⟨fun ⟨hmem, hbefore, hupTo⟩ => ⟨hmem, hbefore, hupTo⟩, fun h => ⟨h.mem, h.before, h.upTo⟩⟩

variable {texts others : List String} {i : ℕ} {s t : String}

theorem RanksAt.perm (h : RanksAt texts i s) (hperm : texts.Perm others) : RanksAt others i s where
  mem := hperm.mem_iff.1 h.mem
  before := hperm.countP_eq _ ▸ h.before
  upTo := hperm.countP_eq _ ▸ h.upTo

/-- When a text comes before another, all texts up to the first come before the second. -/
theorem countP_le_of_lt (h : units s < units t) :
    texts.countP (fun u => units u ≤ units s) ≤ texts.countP fun u => units u < units t := by
  apply List.countP_mono_left
  intro u _ hu
  exact decide_eq_true (lt_of_le_of_lt (of_decide_eq_true hu) h)

/-- No two texts have the same rank. -/
theorem RanksAt.unique (hs : RanksAt texts i s) (ht : RanksAt texts i t) : s = t := by
  rcases lt_trichotomy (units s) (units t) with hlt | heq | hlt
  · have hcount : texts.countP _ ≤ texts.countP _ := countP_le_of_lt hlt
    exact absurd (hs.upTo.trans_le (hcount.trans ht.before)) (lt_irrefl i)
  · exact units_injective heq
  · have hcount : texts.countP _ ≤ texts.countP _ := countP_le_of_lt hlt
    exact absurd (ht.upTo.trans_le (hcount.trans hs.before)) (lt_irrefl i)

/-- In a list that is in order, each text has its place as a rank. -/
theorem ranksAt_of_pairwise (h : texts.Pairwise fun a b => units a ≤ units b)
    (hi : texts[i]? = some s) : RanksAt texts i s := by
  induction texts generalizing i with
  | nil => cases hi
  | cons first rest ih =>
    obtain ⟨hfirst, hrest⟩ := List.pairwise_cons.1 h
    cases i with
    | zero =>
      obtain rfl : first = s := Option.some.inj hi
      refine ⟨List.mem_cons_self, ?_, ?_⟩
      · -- no text of the list comes before the first
        apply Nat.le_of_eq
        apply List.countP_eq_zero.2
        intro t ht
        rcases List.mem_cons.1 ht with rfl | ht
        · simp
        · simpa using hfirst t ht
      · exact List.countP_pos_iff.2 ⟨first, List.mem_cons_self, by simp⟩
    | succ i =>
      -- The first text is not behind this one, so it moves its rank by one at most.
      have hrank := ih hrest hi
      have hle : units first ≤ units s := hfirst s hrank.mem
      refine ⟨List.mem_cons_of_mem first hrank.mem, ?_, ?_⟩
      · rw [List.countP_cons]
        have hone : (if decide (units first < units s) = true then 1 else 0) ≤ 1 := by
          split <;> decide
        exact Nat.add_le_add hrank.before hone
      · rw [List.countP_cons, if_pos (decide_eq_true hle)]
        exact Nat.succ_lt_succ hrank.upTo

/-- The text in each place of the sorted list is the one with that rank. -/
theorem getElem?_mergeSort_iff :
    (texts.mergeSort unitsBefore)[i]? = some s ↔ RanksAt texts i s := by
  have hsorted : (texts.mergeSort unitsBefore).Pairwise fun a b => units a ≤ units b := by
    apply (List.pairwise_mergeSort unitsBefore_trans unitsBefore_total texts).imp
    intro a b hab
    exact (unitsLE_iff_le _ _).1 hab
  have hperm := List.mergeSort_perm texts unitsBefore
  constructor
  · intro h
    exact (ranksAt_of_pairwise hsorted h).perm hperm
  · intro h
    -- there is a text in this place, and it has the rank of the place as well
    have hlt : i < (texts.mergeSort unitsBefore).length := by
      rw [hperm.length_eq]
      exact h.upTo.trans_le List.countP_le_length
    have hfound := List.getElem?_eq_getElem hlt
    rw [hfound, ((ranksAt_of_pairwise hsorted hfound).perm hperm).unique h]

theorem existsUnique_ranksAt (h : i < texts.length) : ∃! s, RanksAt texts i s := by
  have hlt : i < (texts.mergeSort unitsBefore).length := by
    rw [List.length_mergeSort]
    exact h
  refine ⟨_, getElem?_mergeSort_iff.1 (List.getElem?_eq_getElem hlt), ?_⟩
  intro t ht
  exact ht.unique (getElem?_mergeSort_iff.1 (List.getElem?_eq_getElem hlt))

/-! ## Merging lists of texts -/

theorem length_applyEach (fs : List (Document → Document)) (ds : List Document) :
    (applyEach fs ds).length = fs.length := by
  induction fs generalizing ds with
  | nil => rfl
  | cons f fs ih => cases ds <;> simp [applyEach, ih]

/-- Each function is applied to the value in its place, or to null behind the last value. -/
theorem getElem?_applyEach (fs : List (Document → Document)) (ds : List Document) (i : ℕ) :
    (applyEach fs ds)[i]? = fs[i]?.map fun f => f (orNull ds[i]?) := by
  induction fs generalizing ds i with
  | nil => rfl
  | cons f fs ih =>
    cases ds <;> cases i <;> simp [applyEach, ih, orNull]

/-- Lists of texts are merged in the order of their code units. -/
theorem merge_textLists (policy : Policy) (origin update : List String) :
    merge policy (textList origin) (textList update) =
      .list (applyEach ((update.mergeSort unitsBefore).map fun u => settle policy (.string u))
        ((origin.mergeSort unitsBefore).map .string)) := by
  rw [textList, textList, merge_list, items, sorted_strings, sorted_strings, List.map_map]
  rfl

/-- A sort of items is stable and goes by the code units of their text forms, or, what is the same,
by the bytes of these units. So a merge of two lists of texts depends neither on the order of the
existing texts nor on that of the update: the result has the length of the update, and in each place
the existing text of that rank, if there is one and it is not empty. -/
theorem exists_merge_textList_of_perm (policy : Policy) (origin update : List String) :
    (∀ ds : List Document, (sorted ds).Perm ds ∧
      (sorted ds).Pairwise (fun a b => units (sortText a) ≤ units (sortText b)) ∧
      ∀ form, (sorted ds).filter (fun d => sortText d = form) =
        ds.filter fun d => sortText d = form) ∧
    (∀ s t, wideBytes s < wideBytes t ↔ units s < units t) ∧
    (∀ i < origin.length, ∃! s, RanksAt origin i s) ∧
    ∃ result : List Document, result.length = update.length ∧
      (∀ origin' update' : List String, origin'.Perm origin → update'.Perm update →
        merge policy (textList origin') (textList update') = .list result) ∧
      ∀ i < update.length, ∀ s, RanksAt origin i s → s ≠ "" →
        result[i]? = some (.string s) := by
  refine ⟨fun ds => ⟨perm_sorted ds, pairwise_sorted ds, filter_sorted ds⟩, wideBytes_lt_iff,
    fun i => existsUnique_ranksAt, ?_⟩
  refine ⟨applyEach ((update.mergeSort unitsBefore).map fun u => settle policy (.string u))
    ((origin.mergeSort unitsBefore).map .string), ?_, ?_, ?_⟩
  · rw [length_applyEach, List.length_map, List.length_mergeSort]
  · intro origin' update' horigin hupdate
    rw [merge_textLists, mergeSort_eq_of_perm horigin, mergeSort_eq_of_perm hupdate]
  · intro i hi s hrank hne
    have hlt : i < (update.mergeSort unitsBefore).length := by
      rw [List.length_mergeSort]
      exact hi
    have hcontent : (string s).isContent = true := decide_eq_true hne
    rw [getElem?_applyEach, List.getElem?_map, List.getElem?_map,
      getElem?_mergeSort_iff.2 hrank, List.getElem?_eq_getElem hlt]
    -- a text that is not empty is content, so it stays whatever the update has in its place
    exact congrArg some (settle_of_stays policy _ (Or.inr hcontent))

/-- Among three texts, one is empty and the two others are in another order by their code points
than by their code units. -/
theorem exists_merge_textList_of_perm_signs : ∃ result : List Document, result.length = 4 ∧
    merge .preserve (textList ["😀", "�", ""]) (textList ["d", "b", "a", "c"]) = .list result ∧
    result[1]? = some (.string "😀") ∧ result[2]? = some (.string "�") := by
  obtain ⟨-, -, -, result, hlength, hmerge, hresult⟩ :=
    exists_merge_textList_of_perm .preserve ["�", "", "😀"] ["a", "b", "c", "d"]
  exact ⟨result, hlength, hmerge _ _ (by decide) (by decide),
    hresult 1 (by decide) "😀" (by decide +kernel) (by decide),
    hresult 2 (by decide) "�" (by decide +kernel) (by decide)⟩

end ThemeLocales.Document
