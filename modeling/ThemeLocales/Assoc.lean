/-!
# Ordered tables

Tables as lists of entries, in the order in which their keys were first set. `get?` and `set` are
the two operations that everything else uses: `set` replaces a value in place and appends a new key
at the end. The laws below say what `get?` finds after a `set`, in a table made of two, in a table
whose values were mapped and in one that was filtered by its keys.
-/

set_option autoImplicit false

namespace ThemeLocales.Assoc

universe u v

variable {κ : Type u} {α : Type v} [DecidableEq κ]

/-- The value at a key. -/
def get? (key : κ) : List (κ × α) → Option α
  | [] => none
  | (k, v) :: rest => if k = key then some v else get? key rest

/-- Whether a key has a value. -/
def contains (key : κ) (table : List (κ × α)) : Bool :=
  (get? key table).isSome

/-- Sets the value at a key, in place when the key is there, else at the end. -/
def set (key : κ) (value : α) : List (κ × α) → List (κ × α)
  | [] => [(key, value)]
  | (k, v) :: rest => if k = key then (k, value) :: rest else (k, v) :: set key value rest

/-- Removes a key. -/
def erase (key : κ) (table : List (κ × α)) : List (κ × α) :=
  table.filter fun (k, _) => k ≠ key

/-- The keys, in order. -/
def keys (table : List (κ × α)) : List κ :=
  table.map Prod.fst

/-- The table that results from setting entries one after the other. -/
def ofEntries (entries : List (κ × α)) : List (κ × α) :=
  entries.foldl (fun table (k, v) => set k v table) []

@[simp] theorem get?_nil (key : κ) : get? key ([] : List (κ × α)) = none := rfl

theorem get?_set_self (key : κ) (value : α) (table : List (κ × α)) :
    get? key (set key value table) = some value := by
  induction table with
  | nil => simp [set, get?]
  | cons entry rest ih =>
    obtain ⟨k, v⟩ := entry
    by_cases h : k = key <;> simp [set, get?, h, ih]

theorem get?_set_of_ne {key other : κ} (h : other ≠ key) (value : α) (table : List (κ × α)) :
    get? other (set key value table) = get? other table := by
  induction table with
  | nil => simp [set, get?, h.symm]
  | cons entry rest ih =>
    obtain ⟨k, v⟩ := entry
    by_cases hk : k = key
    · subst hk
      simp [set, get?, h.symm]
    · simp only [set, hk, if_false, get?, ih]

theorem get?_append (key : κ) (xs ys : List (κ × α)) :
    get? key (xs ++ ys) = (get? key xs).or (get? key ys) := by
  induction xs with
  | nil => rfl
  | cons entry rest ih =>
    obtain ⟨k, v⟩ := entry
    by_cases h : k = key <;> simp [get?, h, ih]

theorem get?_map {β : Type v} (f : κ → α → β) (key : κ) (table : List (κ × α)) :
    get? key (table.map fun e => (e.1, f e.1 e.2)) = (get? key table).map (f key) := by
  induction table with
  | nil => rfl
  | cons entry rest ih =>
    obtain ⟨k, v⟩ := entry
    by_cases h : k = key
    · subst h
      simp [get?]
    · simp only [List.map_cons, get?, h, if_false, ih]

theorem get?_filter (p : κ → Bool) (key : κ) (table : List (κ × α)) :
    get? key (table.filter fun e => p e.1) = if p key then get? key table else none := by
  induction table with
  | nil => simp
  | cons entry rest ih =>
    obtain ⟨k, v⟩ := entry
    by_cases h : k = key
    · subst h
      by_cases hp : p k <;> simp [get?, hp, ih]
    · by_cases hp : p k <;> simp [get?, h, hp, ih]

theorem mem_of_get? {key : κ} {value : α} {table : List (κ × α)}
    (h : get? key table = some value) : (key, value) ∈ table := by
  induction table with
  | nil => simp at h
  | cons entry rest ih =>
    obtain ⟨k, v⟩ := entry
    by_cases hk : k = key
    · subst hk
      simp only [get?, if_true, Option.some.injEq] at h
      simp [h]
    · simp only [get?, hk, if_false] at h
      exact List.mem_cons_of_mem _ (ih h)

/-- In a table without repeated keys, every entry is found at its key. -/
theorem get?_of_mem {key : κ} {value : α} {table : List (κ × α)}
    (hkeys : (table.map Prod.fst).Nodup) (h : (key, value) ∈ table) :
    get? key table = some value := by
  induction table with
  | nil => simp at h
  | cons entry rest ih =>
    obtain ⟨k, v⟩ := entry
    simp only [List.map_cons, List.nodup_cons] at hkeys
    rcases List.mem_cons.1 h with heq | hrest
    · cases heq
      simp [get?]
    · have hne : k ≠ key := by
        rintro rfl
        exact hkeys.1 (List.mem_map_of_mem hrest)
      simpa only [get?, hne, if_false] using ih hkeys.2 hrest

theorem get?_eq_none_iff {key : κ} {table : List (κ × α)} :
    get? key table = none ↔ key ∉ table.map Prod.fst := by
  induction table with
  | nil => simp
  | cons entry rest ih =>
    obtain ⟨k, v⟩ := entry
    by_cases h : k = key
    · simp [get?, h]
    · simp only [get?, h, if_false, ih, List.map_cons, List.mem_cons, not_or]
      exact ⟨fun hrest => ⟨fun hk => h hk.symm, hrest⟩, fun hboth => hboth.2⟩

theorem contains_iff {key : κ} {table : List (κ × α)} :
    contains key table = true ↔ key ∈ table.map Prod.fst := by
  rw [contains, Option.isSome_iff_ne_none, ne_eq, get?_eq_none_iff, Classical.not_not]

/-- Setting a key keeps the keys and appends the new one, if it is new. -/
theorem keys_set (key : κ) (value : α) (table : List (κ × α)) :
    keys (set key value table) = if key ∈ keys table then keys table else keys table ++ [key] := by
  induction table with
  | nil => simp [set, keys]
  | cons entry rest ih =>
    obtain ⟨k, v⟩ := entry
    by_cases h : k = key
    · simp [set, keys, h]
    · have h' : key ≠ k := fun hk => h hk.symm
      simp only [keys] at ih
      simp only [set, h, if_false, keys, List.map_cons, List.mem_cons, h', false_or, ih]
      by_cases hmem : key ∈ rest.map Prod.fst <;> simp [hmem]

theorem eq_or_mem_of_mem_set {key : κ} {value : α} {table : List (κ × α)} {e : κ × α}
    (h : e ∈ set key value table) : e = (key, value) ∨ e ∈ table := by
  induction table with
  | nil => exact Or.inl (List.mem_singleton.1 h)
  | cons entry rest ih =>
    obtain ⟨k, v⟩ := entry
    by_cases hk : k = key
    · subst hk
      simp only [set, if_true] at h
      rcases List.mem_cons.1 h with h | h
      · exact Or.inl h
      · exact Or.inr (List.mem_cons_of_mem _ h)
    · simp only [set, hk, if_false] at h
      rcases List.mem_cons.1 h with h | h
      · exact Or.inr (h ▸ List.mem_cons_self)
      · exact (ih h).imp_right (List.mem_cons_of_mem _)

/-- A new key goes to the end. -/
theorem set_of_not_mem {key : κ} {table : List (κ × α)} (value : α)
    (h : key ∉ table.map Prod.fst) : set key value table = table ++ [(key, value)] := by
  induction table with
  | nil => rfl
  | cons entry rest ih =>
    obtain ⟨k, v⟩ := entry
    simp only [List.map_cons, List.mem_cons, not_or] at h
    have hk : k ≠ key := fun heq => h.1 heq.symm
    simp only [set, hk, if_false, ih h.2, List.cons_append]

/-- Setting a key to what it has changes nothing. -/
theorem set_of_get? {key : κ} {value : α} {table : List (κ × α)}
    (h : get? key table = some value) : set key value table = table := by
  induction table with
  | nil => cases h
  | cons e rest ih =>
    obtain ⟨k, v⟩ := e
    by_cases hk : k = key
    · subst hk
      simp only [get?, if_true, Option.some.injEq] at h
      simp [set, h]
    · simp only [get?, hk, if_false] at h
      simp [set, hk, ih h]

theorem nodup_keys_set {key : κ} {table : List (κ × α)} (value : α)
    (h : (keys table).Nodup) : (keys (set key value table)).Nodup := by
  rw [keys_set]
  split
  · exact h
  · next hk =>
    rw [List.nodup_append]
    refine ⟨h, by simp, ?_⟩
    rintro a ha b hb rfl
    simp only [List.mem_cons, List.not_mem_nil, or_false] at hb
    exact hk (hb ▸ ha)

/-- Entries with new keys go to the end one after the other. -/
theorem foldl_set_of_nodup {table entries : List (κ × α)}
    (h : ((table ++ entries).map Prod.fst).Nodup) :
    entries.foldl (fun table (k, v) => set k v table) table = table ++ entries := by
  induction entries generalizing table with
  | nil => rw [List.foldl_nil, List.append_nil]
  | cons entry rest ih =>
    have hnew : entry.1 ∉ table.map Prod.fst := by
      rw [List.map_append, List.nodup_append] at h
      intro hmem
      exact h.2.2 entry.1 hmem entry.1 List.mem_cons_self rfl
    have hset : set entry.1 entry.2 table = table ++ [entry] := set_of_not_mem entry.2 hnew
    rw [← List.singleton_append, ← List.append_assoc] at h ⊢
    rw [List.singleton_append, List.foldl_cons, ← ih h, ← hset]

/-- Entries without repeated keys are a table as they stand. -/
theorem ofEntries_of_nodup {entries : List (κ × α)} (h : (entries.map Prod.fst).Nodup) :
    ofEntries entries = entries :=
  foldl_set_of_nodup h

end ThemeLocales.Assoc
