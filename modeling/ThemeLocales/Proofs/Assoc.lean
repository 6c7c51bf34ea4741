import Mathlib.Data.List.Basic
import Mathlib.Data.List.Induction
import Mathlib.Data.List.Nodup
import ThemeLocales.Assoc

/-!
# Tables made of entries

Entries that are set one after the other make a table without repeated keys. Its keys stand where
they come first (`keys_ofEntries`) and have the values that they come with last (`get?_ofEntries`),
and no other table does (`eq_of_keys_eq`).
-/

set_option autoImplicit false

namespace ThemeLocales.Assoc

universe u v

variable {κ : Type u} {α : Type v} [DecidableEq κ]

/-! ## First occurrences -/

/-- A new member comes last, and one that is there already stays where it is. -/
theorem eraseDups_concat (found : List κ) (k : κ) :
    (found ++ [k]).eraseDups = if k ∈ found then found.eraseDups else found.eraseDups ++ [k] := by
  rw [List.eraseDups_append]
  split
  · next h => simp [List.removeAll, h]
  · next h => simp [List.removeAll, h, List.eraseDups_cons]

theorem nodup_eraseDups (found : List κ) : found.eraseDups.Nodup := by
  induction found using List.reverseRecOn with
  | nil => exact List.nodup_nil
  | append_singleton found k ih =>
    rw [eraseDups_concat]
    split
    · exact ih
    · next hk =>
      rw [List.nodup_append]
      refine ⟨ih, List.nodup_singleton k, fun x hx y hy => ?_⟩
      rw [List.mem_singleton.1 hy]
      rintro rfl
      exact hk (List.mem_eraseDups.1 hx)

/-- Removing repetitions does not depend on what the members are called. -/
theorem eraseDups_map {f : κ → κ} (hf : Function.Injective f) (found : List κ) :
    (found.map f).eraseDups = found.eraseDups.map f := by
  induction found using List.reverseRecOn with
  | nil => rfl
  | append_singleton found k ih =>
    rw [List.map_append, List.map_singleton, eraseDups_concat, eraseDups_concat, ih]
    simp only [List.mem_map_of_injective hf]
    split
    · rfl
    · rw [List.map_append, List.map_singleton]

/-! ## Two keys set one after the other -/

/-- Setting a key again leaves nothing of what it was set to first. -/
theorem set_set (key : κ) (new value : α) (table : List (κ × α)) :
    set key new (set key value table) = set key new table := by
  induction table with
  | nil => simp [set]
  | cons entry rest ih =>
    obtain ⟨k, v⟩ := entry
    by_cases h : k = key <;> simp [set, h, ih]

/-- Two keys are there in whichever order they are set. -/
theorem perm_keys_set_comm (key other : κ) (value new : α) (table : List (κ × α)) :
    (keys (set key value (set other new table))).Perm
      (keys (set other new (set key value table))) := by
  simp only [keys_set]
  by_cases hkey : key ∈ keys table <;> by_cases hother : other ∈ keys table <;>
    simp only [hkey, hother, if_true, if_false, List.mem_append, List.mem_singleton, true_or,
      false_or, List.Perm.refl]
  -- both keys are new, so they come last in the order in which they are set
  by_cases heq : key = other
  · subst heq
    exact List.Perm.refl _
  · simp only [heq, Ne.symm heq, if_false, List.append_assoc]
    exact (List.perm_append_comm).append_left _

/-! ## Tables -/

theorem ofEntries_concat (entries : List (κ × α)) (entry : κ × α) :
    ofEntries (entries ++ [entry]) = set entry.1 entry.2 (ofEntries entries) := by
  simp [ofEntries]

/-- The keys stand in order of their first occurrence. -/
theorem keys_ofEntries (entries : List (κ × α)) :
    keys (ofEntries entries) = (entries.map Prod.fst).eraseDups := by
  induction entries using List.reverseRecOn with
  | nil => rfl
  | append_singleton entries entry ih =>
    rw [ofEntries_concat, keys_set, ih, List.map_append, List.map_singleton, eraseDups_concat]
    simp only [List.mem_eraseDups]

/-- The last occurrence of a key decides its value. -/
theorem get?_ofEntries (key : κ) (entries : List (κ × α)) :
    get? key (ofEntries entries) = get? key entries.reverse := by
  induction entries using List.reverseRecOn with
  | nil => rfl
  | append_singleton entries entry ih =>
    rw [ofEntries_concat, List.reverse_concat]
    by_cases h : entry.1 = key
    · subst h
      simp [get?_set_self, get?]
    · rw [get?_set_of_ne (Ne.symm h), ih]
      simp [get?, h]

theorem nodup_keys_ofEntries (entries : List (κ × α)) : (keys (ofEntries entries)).Nodup := by
  rw [keys_ofEntries]
  exact nodup_eraseDups _

theorem mem_of_mem_ofEntries {entries : List (κ × α)} {entry : κ × α}
    (h : entry ∈ ofEntries entries) : entry ∈ entries := by
  induction entries using List.reverseRecOn with
  | nil => exact h
  | append_singleton entries last ih =>
    rw [ofEntries_concat] at h
    rcases eq_or_mem_of_mem_set h with rfl | h
    · exact List.mem_append_right _ (List.mem_singleton_self _)
    · exact List.mem_append_left _ (ih h)

/-- Without repeated keys, the order of the entries does not matter to what a key has. -/
theorem get?_of_perm {table table' : List (κ × α)} (hnodup : (keys table).Nodup)
    (hperm : table.Perm table') (key : κ) : get? key table = get? key table' := by
  have hnodup' : (keys table').Nodup := (hperm.map Prod.fst).nodup_iff.1 hnodup
  cases hkey : get? key table with
  | none =>
    rw [get?_eq_none_iff, (hperm.map Prod.fst).mem_iff] at hkey
    exact (get?_eq_none_iff.2 hkey).symm
  | some value => exact (get?_of_mem hnodup' (hperm.mem_iff.1 (mem_of_get? hkey))).symm

/-- Without repeated keys, a table is known by its keys and what it has at them. -/
theorem eq_of_keys_eq {table table' : List (κ × α)} (hnodup : (keys table).Nodup)
    (hkeys : keys table = keys table') (hget : ∀ key, get? key table = get? key table') :
    table = table' := by
  induction table generalizing table' with
  | nil => exact (List.map_eq_nil_iff.1 hkeys.symm).symm
  | cons entry rest ih =>
    obtain ⟨key, value⟩ := entry
    cases table' with
    | nil => cases hkeys
    | cons entry' rest' =>
      obtain ⟨key', value'⟩ := entry'
      obtain ⟨rfl, hrest⟩ := List.cons.inj hkeys
      have hnew : key ∉ rest.map Prod.fst := (List.nodup_cons.1 hnodup).1
      have hnew' : key ∉ rest'.map Prod.fst := hrest ▸ hnew
      have hvalue : value = value' := by simpa [get?] using hget key
      have htail : ∀ other, get? other rest = get? other rest' := by
        intro other
        by_cases h : key = other
        · -- only the first entries have this key, so neither rest is asked for it
          subst h
          rw [get?_eq_none_iff.2 hnew, get?_eq_none_iff.2 hnew']
        · simpa [get?, h] using hget other
      rw [hvalue, ih (List.nodup_cons.1 hnodup).2 hrest htail]

end ThemeLocales.Assoc
