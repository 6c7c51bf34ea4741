import ThemeLocales.Proofs.Document.Prune

/-!
# Cleaning before or after a merge

A document can be pruned before an update is merged into it or afterwards. The two come to the same
when the update is a tree and the reference has a place for all that the update holds
(`merge_prune`): what the update brings is then not pruned, and what is pruned of the document does
not come back. A tree has a place for itself, so it may be update and reference at once.

The recursions follow different sides, a merge the update and pruning the document. The induction is
on the update. At a map the two meet entry by entry (`pruneEntries_mergeEntries`); at a scalar the
merge leaves the document as it is or replaces one scalar by another (`settle_prune`), whatever the
reference has there.
-/

set_option autoImplicit false

namespace ThemeLocales.Document

variable {policy : Policy}

/-- A container counts as content, so it stays. -/
theorem stays_of_container {d : Document} (h : d.kind ≠ .scalar) : d.Stays := by
  cases d with
  | list => exact Or.inr rfl
  | map => exact Or.inr rfl
  | _ => exact absurd rfl h

theorem kind_settle {u origin : Document} (hu : u.kind = .scalar)
    (horigin : origin.kind = .scalar) : (settle policy u origin).kind = .scalar := by
  rcases settle_cases policy u origin with ⟨-, heq⟩ | ⟨-, heq | ⟨-, -, heq⟩⟩
  · rw [heq]
    exact horigin
  · rw [heq]
    rfl
  · rw [heq]
    exact hu

/-- A leaf is settled before or after its place is pruned, whatever is kept of the place. -/
theorem settle_prune {u : Document} (hu : u.kind = .scalar) (origin reference : Document) :
    (settle policy u origin).prune reference = settle policy u (origin.prune reference) := by
  by_cases horigin : origin.kind = .scalar
  · rw [prune_scalar horigin, prune_scalar (kind_settle hu horigin)]
  · have hpruned : (origin.prune reference).kind ≠ .scalar := by
      rw [kind_prune]
      exact horigin
    rw [settle_of_stays policy u (stays_of_container horigin),
      settle_of_stays policy u (stays_of_container hpruned)]

/-- Entries may be pruned before or after they are merged with updates at keys of the reference, if
that is so of the value at each of these keys. -/
theorem pruneEntries_mergeEntries {updates : List (String × (Document → Document))}
    {rs : List (String × Document)} (hkeys : (updates.map Prod.fst).Nodup)
    (hplaces : ∀ u ∈ updates, (Assoc.get? u.1 rs).isSome)
    (hvalues : ∀ key r, Assoc.get? key rs = some r → ∀ v,
      (((Assoc.get? key updates).getD (settle policy .null)) v).prune r =
        ((Assoc.get? key updates).getD (settle policy .null)) (v.prune r))
    (es : List (String × Document)) :
    pruneEntries (mergeEntries policy updates es) rs =
      mergeEntries policy updates (pruneEntries es rs) := by
  rw [mergeEntries, mergeEntries, pruneEntries_append]
  congr 1
  · -- the entries that were there before
    simp only [pruneEntries_eq_filterMap, List.filterMap_map, List.map_filterMap]
    apply List.filterMap_congr
    intro e _
    cases hr : Assoc.get? e.1 rs with
    | none => simp [hr]
    | some r => simp [hr, hvalues e.1 r hr]
  · -- a key of the updates is new before the pruning just when it is new afterwards
    have hnew : ∀ u ∈ updates,
        (!Assoc.contains u.1 (pruneEntries es rs)) = !Assoc.contains u.1 es := by
      intro u hu
      obtain ⟨r, hr⟩ := Option.isSome_iff_exists.1 (hplaces u hu)
      rw [Assoc.contains, Assoc.contains, get?_pruneEntries, hr]
      cases Assoc.get? u.1 es <;> rfl
    rw [List.filter_congr hnew, pruneEntries_eq_self_iff, List.forall_mem_map]
    intro u hu
    -- what a new key gets from the update is not pruned, because null is not
    have hu : u ∈ updates := List.mem_of_mem_filter hu
    obtain ⟨r, hr⟩ := Option.isSome_iff_exists.1 (hplaces u hu)
    have hvalue := hvalues u.1 r hr .null
    rw [Assoc.get?_of_mem hkeys hu, Option.getD_some] at hvalue
    exact ⟨r, hr, hvalue⟩

/-- Pruning comes before or after the merge of an update for which the reference has a place. -/
theorem merge_prune {update reference : Document} (hupdate : update.Tree)
    (hplace : update.prune reference = update) (origin : Document) :
    (merge policy origin update).prune reference =
      merge policy (origin.prune reference) update := by
  induction update using structuralRec generalizing origin reference with
  | scalar u hu =>
    rw [merge_scalar policy _ hu, merge_scalar policy _ hu]
    exact settle_prune hu origin reference
  | list us => exact absurd rfl (hupdate.listFree _ .self)
  | map us ih =>
    obtain ⟨hkeys, hvalues⟩ := tree_map_iff.1 hupdate
    rw [prune, map.injEq, pruneEntries_eq_self_iff] at hplace
    rw [merge_map, merge_map, prune, entries_prune]
    congr 1
    apply pruneEntries_mergeEntries
    · rw [List.map_map]
      exact hkeys
    · rw [List.forall_mem_map]
      intro u hu
      obtain ⟨r, hr, -⟩ := hplace u hu
      exact Option.isSome_of_eq_some hr
    · intro key r hr v
      rw [getD_merger, getD_merger]
      cases hget : Assoc.get? key us with
      | none =>
        -- an update that lacks the key counts as null, and null is a leaf
        exact settle_prune rfl v r
      | some u =>
        have hu := Assoc.mem_of_get? hget
        obtain ⟨r', hr', hsame⟩ := hplace (key, u) hu
        obtain rfl : r' = r := Option.some.inj (hr'.symm.trans hr)
        exact ih (key, u) hu (hvalues _ hu) hsame v

/-- Cleaning a document by a tree before or after the tree is merged into it comes to the same. -/
theorem clean_merge_comm (policy : Policy) (origin : Document) {tree : Document} (h : tree.Tree) :
    (merge policy origin tree).prune tree = merge policy (origin.prune tree) tree :=
  merge_prune h (prune_self h) origin

/-- A document with an unused key, and with a list and a map in the place of a map and a text. -/
def shelfDocument : Document :=
  .map [("old", .string "Old"), ("menu", .list [.string "Home"]), ("title", .map [("x", .int 1)])]

/-- The extracted keys of two texts, one of them in a menu. -/
def shelfTree : Document :=
  .map [("title", .string "Shop"), ("menu", .map [("home", .string "Start")])]

/-- Before the merge, cleaning empties the list and the map. The list then gives way to the map of
the tree, and the emptied map stays. -/
theorem clean_merge_comm_shelf :
    shelfDocument.prune shelfTree = .map [("menu", .list []), ("title", .map [])] ∧
      merge .preserve (.map [("menu", .list []), ("title", .map [])]) shelfTree =
        .map [("menu", .map [("home", .string "Start")]), ("title", .map [])] ∧
      (merge .preserve shelfDocument shelfTree).prune shelfTree =
        merge .preserve (shelfDocument.prune shelfTree) shelfTree := by
  have htree : shelfTree.Tree := by
    simp [shelfTree, tree_map_iff]
  exact ⟨rfl, rfl, clean_merge_comm .preserve shelfDocument htree⟩

end ThemeLocales.Document
