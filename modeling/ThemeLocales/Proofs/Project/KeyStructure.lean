import ThemeLocales.Proofs.Project.Reconcile

/-!
# The key structure of reconciled documents

After an extraction that cleans unused keys, the main document and every target have exactly the
structure of the extracted tree: a map wherever the tree has one, with the same keys
(`exists_keys_reconcile`). Nothing is asked of the documents that were there before. Where they have
a list, a text or null and the tree has a map, the map wins.

The proof keeps the two directions apart. A merge gives every map and every key of its update
(`covers_merge`), whatever it is merged into, and so does a merge along a document that has them
already (`Covers.trans`). Pruning by the tree then takes away all other keys and no map of the tree
(`Covers.prune`). A target is not merged with the tree that prunes it but with the main document;
it is enough that the main document has the structure of the tree when this is done.
-/

set_option autoImplicit false

namespace ThemeLocales.Document

/-- Wherever the reference has a map the document has one too, with at least the same keys. -/
def Covers (d reference : Document) : Prop :=
  ∀ path es, at? path reference = some (.map es) →
    ∃ ds, at? path d = some (.map ds) ∧ ∀ key ∈ Assoc.keys es, key ∈ Assoc.keys ds

/-- Wherever the reference has a map the document has one too, with exactly the same keys. -/
def KeyedLike (d reference : Document) : Prop :=
  ∀ path es, at? path reference = some (.map es) →
    ∃ ds, at? path d = some (.map ds) ∧ ∀ key, key ∈ Assoc.keys ds ↔ key ∈ Assoc.keys es

/-- A key of a table is one at which something is found. -/
theorem mem_keys_iff {key : String} {es : List (String × Document)} :
    key ∈ Assoc.keys es ↔ (Assoc.get? key es).isSome := by
  rw [Assoc.keys, ← Assoc.contains_iff, Assoc.contains]

theorem KeyedLike.covers {d reference : Document} (h : KeyedLike d reference) :
    Covers d reference := by
  intro path es hes
  obtain ⟨ds, hds, hkeys⟩ := h path es hes
  exact ⟨ds, hds, fun key hkey => (hkeys key).2 hkey⟩

theorem Covers.trans {a b c : Document} (hab : Covers a b) (hbc : Covers b c) : Covers a c := by
  intro path cs hcs
  obtain ⟨bs, hbs, hbkeys⟩ := hbc path cs hcs
  obtain ⟨as, has, hakeys⟩ := hab path bs hbs
  exact ⟨as, has, fun key hkey => hakeys key (hbkeys key hkey)⟩

/-- A merge covers its update, whatever the update is merged into. -/
theorem covers_merge (policy : Policy) (origin update : Document) :
    Covers (merge policy origin update) update := by
  intro path es hes
  have hmerged : at? path (merge policy origin update) = _ := at?_merge_of_at? policy hes
  rw [merge_map_eq_map] at hmerged
  refine ⟨_, hmerged, ?_⟩
  intro key hkey
  rw [keys_merge_map, List.mem_append, List.mem_filter, decide_eq_true_eq]
  by_cases hold : key ∈ Assoc.keys (orNull (at? path origin)).entries
  · exact Or.inl hold
  · exact Or.inr ⟨hkey, hold⟩

/-- What covers a reference and is pruned by it has exactly its structure. -/
theorem Covers.prune {d reference : Document} (h : Covers d reference) :
    KeyedLike (d.prune reference) reference := by
  intro path es hes
  obtain ⟨ds, hds, hkeys⟩ := h path es hes
  refine ⟨pruneEntries ds es, ?_, ?_⟩
  · rw [at?_prune, hds, hes]
    rfl
  · intro key
    -- an entry stays when both documents have its key, and the pruned one covers the other
    have hget := get?_pruneEntries key ds es
    constructor
    · intro hkey
      rw [mem_keys_iff, hget] at hkey
      rw [mem_keys_iff]
      cases hr : Assoc.get? key es with
      | none => simp [hr] at hkey
      | some r => rfl
    · intro hkey
      obtain ⟨d, hd⟩ := Option.isSome_iff_exists.1 (mem_keys_iff.1 (hkeys key hkey))
      obtain ⟨r, hr⟩ := Option.isSome_iff_exists.1 (mem_keys_iff.1 hkey)
      rw [mem_keys_iff, hget, hd, hr]
      rfl

end ThemeLocales.Document

namespace ThemeLocales.Project

open Document

theorem keyedLike_reconcileMain (origin extracted : Document) :
    KeyedLike (reconcileMain origin extracted true) extracted :=
  (covers_merge .preserve origin extracted).prune

/-- A target takes the structure of the tree from any main document that covers the tree. -/
theorem keyedLike_reconcileTarget (target : Document) {main extracted : Document}
    (h : Covers main extracted) :
    KeyedLike (reconcileTarget target main extracted true) extracted :=
  ((covers_merge .structureOnly target main).trans h).prune

/-- After an extraction that cleans unused keys, wherever the extracted tree has a map, the main
document and the target have one with exactly its keys, whatever both documents were before. -/
theorem exists_keys_reconcile (origin target : Document) {extracted : Document}
    {path : List String} {es : List (String × Document)}
    (h : at? path extracted = some (.map es)) :
    (∃ ms, at? path (reconcileMain origin extracted true) = some (.map ms) ∧
      ∀ key, key ∈ Assoc.keys ms ↔ key ∈ Assoc.keys es) ∧
    ∃ ts, at? path (reconcileTarget target (reconcileMain origin extracted true) extracted true) =
        some (.map ts) ∧
      ∀ key, key ∈ Assoc.keys ts ↔ key ∈ Assoc.keys es := by
  have hmain := keyedLike_reconcileMain origin extracted
  exact ⟨hmain path es h, keyedLike_reconcileTarget target hmain.covers path es h⟩

/-- An extracted tree with two keys below one. -/
def cartTree : Document :=
  .map [("cart", .map [("add", .string "Add"), ("drop", .null)])]

/-- The main document has a list in place of the map of the tree, the target a text, and both have a
stale key beside it. -/
theorem exists_keys_reconcile_cart :
    (∃ ms, at? ["cart"] (reconcileMain
          (.map [("cart", .list [.string "Add"]), ("old", .string "Old")]) cartTree true) =
        some (.map ms) ∧
      ∀ key, key ∈ Assoc.keys ms ↔ key ∈ ["add", "drop"]) ∧
    ∃ ts, at? ["cart"] (reconcileTarget (.map [("cart", .string "Wagen"), ("gone", .map [])])
          (reconcileMain (.map [("cart", .list [.string "Add"]), ("old", .string "Old")])
            cartTree true) cartTree true) =
        some (.map ts) ∧
      ∀ key, key ∈ Assoc.keys ts ↔ key ∈ ["add", "drop"] := by
  have hcart : at? ["cart"] cartTree =
      some (.map [("add", .string "Add"), ("drop", .null)]) := rfl
  exact exists_keys_reconcile _ _ hcart

end ThemeLocales.Project
