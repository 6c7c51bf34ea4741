import ThemeLocales.Document.Path
import ThemeLocales.Proofs.Document.Merge
import Mathlib.Data.List.Induction

/-!
# Documents that are expanded from tables

Assigning values at paths keeps every property that setting values at keys keeps (`Settable.setAt`),
so the document that a table expands to is as good as the values of the table. Such a property is
that a document is storable and plain (`sound_expand`).
-/

set_option autoImplicit false

namespace ThemeLocales.Document

/-- What a plain document consists of: maps, texts and numbers. -/
def IsPlain (d : Document) : Prop :=
  d.kind = .mapping ∨ d.isNumber = true ∨ ∃ s, d = string s

theorem not_isPlain_list (ds : List Document) : ¬ (list ds).IsPlain := by
  rintro (h | h | ⟨s, h⟩)
  · simp [kind] at h
  · simp [isNumber] at h
  · cases h

/-- A document without lists, nulls and truth values. -/
def Plain (d : Document) : Prop :=
  ∀ n, Part n d → n.IsPlain

theorem Plain.part {n d : Document} (hd : d.Plain) (h : Part n d) : n.Plain :=
  fun m hm => hd m (hm.trans h)

theorem plain_map_iff {es : List (String × Document)} :
    (map es).Plain ↔ ∀ e ∈ es, e.2.Plain := by
  constructor
  · exact fun h e he => h.part (.value he .self)
  · intro h n hn
    rcases part_map_iff.1 hn with rfl | ⟨e, he, hpart⟩
    · exact Or.inl rfl
    · exact h e he n hpart

theorem plain_of_isPlain {d : Document} (hd : d.kind = .scalar) (h : d.IsPlain) : d.Plain :=
  fun _ hn => eq_of_part_scalar hd hn ▸ h

@[simp] theorem plain_string (s : String) : (string s).Plain :=
  plain_of_isPlain rfl (Or.inr (Or.inr ⟨s, rfl⟩))

/-- Merging plain documents gives a plain document. -/
theorem plain_merge {policy : Policy} {origin update : Document} (horigin : origin.Plain)
    (hupdate : update.Plain) : (merge policy origin update).Plain := by
  intro n hn
  cases mergePart_of_part hn with
  | empty h => exact Or.inr (Or.inr ⟨"", h⟩)
  | kept hx _ hn => exact horigin n (hn.trans hx)
  | taken _ hn => exact hupdate n hn
  | @merged x y _ hy hkind heq =>
    cases y with
    | map es =>
      rw [heq, merge_map]
      exact Or.inl rfl
    | list us => exact absurd (hupdate _ hy) (not_isPlain_list us)
    | _ => exact absurd rfl hkind

/-- A document that is both storable and plain. -/
structure Sound (d : Document) : Prop where
  storable : d.Storable
  plain : d.Plain

theorem sound_map_iff {es : List (String × Document)} :
    (map es).Sound ↔ (es.map Prod.fst).Nodup ∧ ∀ e ∈ es, e.2.Sound := by
  constructor
  · rintro ⟨hstorable, hplain⟩
    obtain ⟨hkeys, hvalues⟩ := storable_map_iff.1 hstorable
    exact ⟨hkeys, fun e he => ⟨hvalues e he, plain_map_iff.1 hplain e he⟩⟩
  · rintro ⟨hkeys, hvalues⟩
    exact ⟨storable_map_iff.2 ⟨hkeys, fun e he => (hvalues e he).storable⟩,
      plain_map_iff.2 fun e he => (hvalues e he).plain⟩

@[simp] theorem sound_string (s : String) : (string s).Sound :=
  ⟨storable_string s, plain_string s⟩

theorem sound_map_nil : (map []).Sound :=
  sound_map_iff.2 ⟨List.nodup_nil, by simp⟩

/-- A sound document is a tree. -/
theorem Sound.tree {d : Document} (h : d.Sound) : d.Tree where
  keys hpart := (h.storable.part hpart).fits
  listFree n hn := by
    have hplain := h.plain n hn
    cases n with
    | list ds => exact absurd hplain (not_isPlain_list ds)
    | _ => nofun

theorem sound_merge {policy : Policy} {origin update : Document} (horigin : origin.Sound)
    (hupdate : update.Sound) : (merge policy origin update).Sound :=
  ⟨storable_merge horigin.storable hupdate.storable, plain_merge horigin.plain hupdate.plain⟩

theorem sound_map_set {es : List (String × Document)} {value : Document}
    (hes : (map es).Sound) (hvalue : value.Sound) (key : String) :
    (map (Assoc.set key value es)).Sound := by
  rw [sound_map_iff] at hes ⊢
  refine ⟨Assoc.nodup_keys_set value hes.1, fun e he => ?_⟩
  rcases Assoc.eq_or_mem_of_mem_set he with rfl | he
  · exact hvalue
  · exact hes.2 e he

/-! ## What assignments keep -/

/-- A property of documents that a map keeps when a value with it is set, and that the values of a
map have. -/
structure Settable (P : Document → Prop) : Prop where
  nil : P (map [])
  set : ∀ {es value}, P (map es) → P value → ∀ key, P (map (Assoc.set key value es))
  value : ∀ {es e}, P (map es) → e ∈ es → P e.2

section Settable

variable {P : Document → Prop} {es : List (String × Document)}

/-- What stands at a key has the property when it is read as a map. -/
theorem Settable.entries (h : Settable P) (hes : P (map es)) (key : String) :
    P (map (orNull (Assoc.get? key es)).entries) := by
  cases hget : Assoc.get? key es with
  | none => exact h.nil
  | some v =>
    have hv := h.value hes (Assoc.mem_of_get? hget)
    cases v with
    | map fs => exact hv
    | _ => exact h.nil

theorem Settable.setAt {value : Document} (h : Settable P) (hvalue : P value) {path : List String}
    (hes : P (map es)) : P (map (setAt value path es)) := by
  induction path generalizing es with
  | nil => exact hes
  | cons key rest ih =>
    cases rest with
    | nil => exact h.set hes hvalue key
    | cons next rest => exact h.set hes (ih (h.entries hes key)) key

/-- A table whose values have the property expands to a document with it. -/
theorem Settable.expand (h : Settable P) {table : List (String × Document)}
    (hvalues : ∀ e ∈ table, P e.2) : P (expand table) := by
  induction table using List.reverseRecOn with
  | nil => exact h.nil
  | append_singleton table e ih =>
    rw [Document.expand, List.foldl_append]
    exact h.setAt (hvalues e (by simp)) (ih fun x hx => hvalues x (List.mem_append_left _ hx))

end Settable

theorem settable_sound : Settable Sound where
  nil := sound_map_nil
  set hes hvalue key := sound_map_set hes hvalue key
  value hes he := (sound_map_iff.1 hes).2 _ he

/-- A table with sound values expands to a sound document. -/
theorem sound_expand {table : List (String × Document)} (h : ∀ e ∈ table, e.2.Sound) :
    (expand table).Sound :=
  settable_sound.expand h

theorem settable_tree : Settable Tree where
  nil := tree_map_iff.2 ⟨List.nodup_nil, by simp⟩
  set hes hvalue key := by
    rw [tree_map_iff] at hes ⊢
    refine ⟨Assoc.nodup_keys_set _ hes.1, fun e he => ?_⟩
    rcases Assoc.eq_or_mem_of_mem_set he with rfl | he
    · exact hvalue
    · exact hes.2 e he
  value hes he := (tree_map_iff.1 hes).2 _ he

/-- A table of scalars expands to a tree. -/
theorem tree_expand {table : List (String × Document)}
    (hvalues : ∀ e ∈ table, e.2.kind = .scalar) : (expand table).Tree :=
  settable_tree.expand fun e he => tree_of_scalar (hvalues e he)

end ThemeLocales.Document
