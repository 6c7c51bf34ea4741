import Mathlib.Data.List.Perm.Basic
import ThemeLocales.Proofs.Document.Assign
import ThemeLocales.Proofs.Document.Expand
import ThemeLocales.Proofs.Document.Walk
import ThemeLocales.Proofs.Text.Search

/-!
# Which keys of a table an expansion holds

Expanding a table assigns its values one after the other, so a later key can take the place of an
earlier one: it overrides a key that lies below it, and a key that it lies below. An expansion holds
the value of a key just when no later key overrides it, and it has no other leaves
(`at?_expand_iff`, `mem_leaves_expand`). If no key of the table lies below another one, flattening
the expansion gives the table back, up to the order of its entries: `lasting_expand`.
-/

set_option autoImplicit false

namespace ThemeLocales.Document

/-! ## Keys below keys -/

/-- A dotted key lies below another one: it is that one, a dot, and any text. -/
def Under (front key : String) : Prop :=
  ∃ rest, key = front ++ "." ++ rest

/-- One of two keys lies below the other. -/
def Overrides (later key : String) : Prop :=
  Under later key ∨ Under key later

theorem keyPath_append (front rest : String) :
    keyPath (front ++ "." ++ rest) = keyPath front ++ keyPath rest := by
  have htext : front ++ "." ++ rest = String.ofList (front.toList ++ '.' :: rest.toList) := by
    apply String.toList_injective
    simp
  rw [htext, keyPath, Text.pieces_append_cons, String.ofList_toList, String.ofList_toList]
  rfl

theorem keyPath_ne_nil (key : String) : keyPath key ≠ [] :=
  Text.pieces_ne_nil '.' key

theorem keyPath_injective {key other : String} (h : keyPath key = keyPath other) : key = other :=
  Text.pieces_injective h

/-- A key lies below another one when its path goes on where the path of the other one ends. -/
theorem under_iff {front key : String} :
    Under front key ↔ keyPath front <+: keyPath key ∧ keyPath front ≠ keyPath key := by
  constructor
  · rintro ⟨rest, rfl⟩
    rw [keyPath_append]
    refine ⟨List.prefix_append _ _, fun heq => keyPath_ne_nil rest ?_⟩
    exact List.self_eq_append_right.1 heq
  · rintro ⟨⟨more, hmore⟩, hne⟩
    have hnil : more ≠ [] := by
      rintro rfl
      exact hne (by simpa using hmore)
    refine ⟨".".intercalate more, ?_⟩
    have hjoined : ".".intercalate (keyPath key) = key := Text.intercalate_pieces '.' key
    have hfront : ".".intercalate (keyPath front) = front := Text.intercalate_pieces '.' front
    rw [← hjoined, ← hmore, String.intercalate_append_of_ne_nil (keyPath_ne_nil front) hnil, hfront]

instance (front key : String) : Decidable (Under front key) :=
  decidable_of_iff _ under_iff.symm

instance (later key : String) : Decidable (Overrides later key) :=
  inferInstanceAs (Decidable (_ ∨ _))

theorem not_overrides_iff {later key : String} (hne : later ≠ key) : ¬ Overrides later key ↔
    ¬ keyPath later <+: keyPath key ∧ ¬ keyPath key <+: keyPath later := by
  have hpaths : keyPath later ≠ keyPath key := fun heq => hne (keyPath_injective heq)
  rw [Overrides, under_iff, under_iff, not_or]
  simp [hpaths, hpaths.symm]

/-! ## One assignment after the others -/

section Expand

variable {table before after : List (String × Document)} {key : String} {value new : Document}
  {path : List String}

theorem expand_concat (table : List (String × Document)) (key : String) (value : Document) :
    expand (table ++ [(key, value)]) = map (setAt value (keyPath key) (expand table).entries) := by
  rw [expand, List.foldl_append]
  rfl

/-- What the last entry of a table leaves: its own value, and the scalars that are neither above
nor below it. -/
theorem at?_expand_concat (hnew : new.kind = .scalar) (hvalue : value.kind = .scalar) :
    at? path (expand (table ++ [(key, new)])) = some value ↔
      path = keyPath key ∧ new = value ∨
        ¬ keyPath key <+: path ∧ ¬ path <+: keyPath key ∧
          at? path (expand table) = some value := by
  rw [expand_concat]
  -- the path is at or below the new key, above it, or apart from it
  by_cases hbelow : keyPath key <+: path
  · obtain ⟨rest, rfl⟩ := hbelow
    rw [at?_setAt_append (keyPath_ne_nil key)]
    by_cases hrest : rest = []
    · subst hrest
      simp [at?]
    · simp [at?_scalar hnew hrest, hrest]
  · have hne : path ≠ keyPath key := by
      rintro rfl
      exact hbelow List.prefix_rfl
    by_cases habove : path <+: keyPath key
    · obtain ⟨fs, hfs⟩ := exists_at?_setAt_of_front habove hne new (expand table).entries
      have hmap : map fs ≠ value := by
        rintro rfl
        cases hvalue
      simp [hfs, hmap, hne, habove]
    · rw [at?_setAt_of_apart hbelow habove]
      simp only [hne, hbelow, habove, false_and, not_false_iff, true_and, false_or]
      rfl

/-- The value of a key is in the expansion just when no later key overrides it. -/
theorem at?_expand_iff (hkeys : ((before ++ (key, value) :: after).map Prod.fst).Nodup)
    (hvalues : ∀ e ∈ before ++ (key, value) :: after, e.2.kind = .scalar) :
    at? (keyPath key) (expand (before ++ (key, value) :: after)) = some value ↔
      ∀ later ∈ after, ¬ Overrides later.1 key := by
  have hvalue : value.kind = .scalar := hvalues (key, value) (by simp)
  induction after using List.reverseRecOn with
  | nil => simp [at?_expand_concat hvalue hvalue]
  | append_singleton after last ih =>
    -- the induction goes from the end, as the last entry overrides those before it
    have hassoc : before ++ (key, value) :: (after ++ [last]) =
        (before ++ (key, value) :: after) ++ [last] := by simp
    rw [hassoc] at hkeys hvalues ⊢
    rw [List.map_append, List.nodup_append] at hkeys
    have hne : last.1 ≠ key := fun heq =>
      hkeys.2.2 key (by simp) last.1 (by simp) heq.symm
    have hpath : keyPath key ≠ keyPath last.1 := fun heq => hne (keyPath_injective heq).symm
    have hlast : last.2.kind = .scalar := hvalues last (by simp)
    have hearlier : at? (keyPath key) (expand (before ++ (key, value) :: after)) = some value ↔
        ∀ later ∈ after, ¬ Overrides later.1 key :=
      ih hkeys.1 fun e he => hvalues e (List.mem_append_left _ he)
    rw [at?_expand_concat hlast hvalue, hearlier]
    simp only [hpath, false_and, false_or, List.mem_append, List.mem_singleton, or_imp, forall_and,
      forall_eq, not_overrides_iff hne]
    tauto

/-- Whatever scalar an expansion has at a path is the value of an entry whose key is that path. -/
theorem exists_entry_of_at?_expand (hvalues : ∀ e ∈ table, e.2.kind = .scalar)
    (hvalue : value.kind = .scalar) (h : at? path (expand table) = some value) :
    ∃ key, (key, value) ∈ table ∧ path = keyPath key := by
  induction table using List.reverseRecOn with
  | nil =>
    cases path with
    | nil =>
      cases h
      cases hvalue
    | cons name rest => cases h
  | append_singleton table last ih =>
    obtain ⟨key, new⟩ := last
    rcases (at?_expand_concat (hvalues (key, new) (by simp)) hvalue).1 h with
      ⟨hpath, rfl⟩ | ⟨-, -, hearlier⟩
    · exact ⟨key, by simp, hpath⟩
    · obtain ⟨key, hmem, hpath⟩ := ih (fun e he => hvalues e (List.mem_append_left _ he)) hearlier
      exact ⟨key, List.mem_append_left _ hmem, hpath⟩

end Expand

/-! ## Flattening -/

/-- How a step is written in a dotted key. -/
def Step.text : Step → String
  | .key name => name
  | .index i => toString i

/-- The entry of a leaf: its dotted key and its value. -/
def Leaf.entry (leaf : Leaf) : String × Document :=
  (".".intercalate (leaf.1.map Step.text), leaf.2)

/-- The table of the leaves of a document. -/
def flatten (d : Document) : List (String × Document) :=
  (leaves d).map Leaf.entry

/-- The leaf that an entry of a table stands for. -/
def leafOf (entry : String × Document) : Leaf :=
  ((keyPath entry.1).map Step.key, entry.2)

theorem leafOf_injective : Function.Injective leafOf := by
  rintro ⟨key, value⟩ ⟨key', value'⟩ h
  have hstep : Function.Injective (@Step.key String) := fun _ _ => Step.key.inj
  obtain ⟨hposition, hvalue⟩ := Prod.ext_iff.1 h
  exact Prod.ext (keyPath_injective (List.map_injective_iff.2 hstep hposition)) hvalue

@[simp] theorem entry_leafOf (entry : String × Document) : (leafOf entry).entry = entry := by
  have htexts : Step.text ∘ Step.key = id := rfl
  refine Prod.ext ?_ rfl
  rw [Leaf.entry, leafOf, List.map_map, htexts, List.map_id]
  exact Text.intercalate_pieces '.' entry.1

section Table

variable {table : List (String × Document)}

/-- The leaves of an expansion are those entries of the table that it still has. -/
theorem mem_leaves_expand (hvalues : ∀ e ∈ table, e.2.kind = .scalar) {leaf : Leaf} :
    leaf ∈ leaves (expand table) ↔ ∃ e ∈ table, leaf = leafOf e ∧
      at? (keyPath e.1) (expand table) = some e.2 := by
  rw [mem_leaves_iff (tree_expand hvalues)]
  constructor
  · rintro ⟨hscalar, path, hposition, hat⟩
    obtain ⟨key, hmem, rfl⟩ := exists_entry_of_at?_expand hvalues hscalar hat
    exact ⟨(key, leaf.2), hmem, Prod.ext hposition rfl, hat⟩
  · rintro ⟨e, he, rfl, hat⟩
    exact ⟨hvalues e he, keyPath e.1, rfl, hat⟩

/-- An expansion holds the values of just those keys of its table that no later key overrides, and
nothing else. A table none of whose keys lies below another one is what its expansion flattens
to. -/
theorem lasting_expand (hkeys : (table.map Prod.fst).Nodup)
    (hvalues : ∀ e ∈ table, e.2.kind = .scalar) :
    (∀ before key value after, table = before ++ (key, value) :: after →
      (at? (keyPath key) (expand table) = some value ↔
        ∀ later ∈ after, ¬ Overrides later.1 key)) ∧
    (∀ leaf ∈ leaves (expand table), ∃ before key value after,
      table = before ++ (key, value) :: after ∧ (∀ later ∈ after, ¬ Overrides later.1 key) ∧
        leaf = ((keyPath key).map Step.key, value)) ∧
    ((∀ e ∈ table, ∀ e' ∈ table, ¬ Under e.1 e'.1) → (flatten (expand table)).Perm table) := by
  have hlasting : ∀ before key value after, table = before ++ (key, value) :: after →
      (at? (keyPath key) (expand table) = some value ↔
        ∀ later ∈ after, ¬ Overrides later.1 key) := by
    rintro before key value after rfl
    exact at?_expand_iff hkeys hvalues
  refine ⟨hlasting, ?_, ?_⟩
  · intro leaf hleaf
    obtain ⟨e, he, rfl, hat⟩ := (mem_leaves_expand hvalues).1 hleaf
    obtain ⟨before, after, hsplit⟩ := List.append_of_mem he
    exact ⟨before, e.1, e.2, after, hsplit, (hlasting _ _ _ _ hsplit).1 hat, rfl⟩
  · intro happart
    -- both sides have no repetitions, so the same leaves make a permutation
    have hperm : (leaves (expand table)).Perm (table.map leafOf) := by
      refine (List.perm_ext_iff_of_nodup (nodup_leaves (tree_expand hvalues))
        ((List.Nodup.of_map _ hkeys).map leafOf_injective)).2 fun leaf => ?_
      rw [mem_leaves_expand hvalues, List.mem_map]
      constructor
      · rintro ⟨e, he, rfl, -⟩
        exact ⟨e, he, rfl⟩
      · rintro ⟨e, he, rfl⟩
        obtain ⟨before, after, hsplit⟩ := List.append_of_mem he
        refine ⟨e, he, rfl, (hlasting _ _ _ _ hsplit).2 fun later hlater => ?_⟩
        have hmem : later ∈ table := by simp [hsplit, hlater]
        exact not_or.2 ⟨happart later hmem e he, happart e he later hmem⟩
    have hback : (table.map leafOf).map Leaf.entry = table := by
      rw [List.map_map]
      exact List.map_id'' entry_leafOf table
    exact (hperm.map Leaf.entry).trans (List.Perm.of_eq hback)

/-- A title gives way to the titles below it, in the order of the table; keys side by side come
back, the empty key among them. -/
theorem lasting_expand_menu :
    at? ["menu"] (expand [("menu", string "Menu"), ("menu.", int 3)]) ≠ some (string "Menu") ∧
      at? ["menu", ""] (expand [("menu", string "Menu"), ("menu.", int 3)]) = some (int 3) ∧
      (flatten (expand [("menu.home", string "Home"), ("", int 3), ("menu.cart", null)])).Perm
        [("menu.home", string "Home"), ("", int 3), ("menu.cart", null)] := by
  have hpath : keyPath "menu" = ["menu"] := by decide +kernel
  have hpath' : keyPath "menu." = ["menu", ""] := by decide +kernel
  have hkeys : (([("menu", string "Menu"), ("menu.", int 3)] : List (String × Document)).map
      Prod.fst).Nodup := by decide
  have hvalues : ∀ e ∈ [("menu", string "Menu"), ("menu.", int 3)], e.2.kind = .scalar := by
    simp [kind]
  obtain ⟨hlasting, -, -⟩ := lasting_expand hkeys hvalues
  refine ⟨?_, ?_, (lasting_expand (by decide) (by simp [kind])).2.2 ?_⟩
  · intro hat
    rw [← hpath] at hat
    exact (hlasting [] _ _ _ rfl).1 hat ("menu.", int 3) (by simp) (by decide +kernel)
  · rw [← hpath']
    exact (hlasting [("menu", string "Menu")] _ _ [] rfl).2 (by simp)
  · simp only [List.forall_mem_cons]
    decide +kernel

end Table

end ThemeLocales.Document
