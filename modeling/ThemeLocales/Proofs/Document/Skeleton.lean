import ThemeLocales.Proofs.Document.Leaf
import ThemeLocales.Proofs.Document.Merge

/-!
# Merges that see only the shape of an update

A merge that brings only structure comes to the same for an update and for the skeleton of the
update (`merge_skeleton`). Two updates of one shape are therefore merged alike, whatever their texts
say (`merge_structureOnly_congr`).

A merge of a list sorts the update before it is paired with the existing list, and the order is that
of texts, which a skeleton does not have. It does not matter among scalars, because each of them
leaves the same function to be applied, and it does not change a list of maps, because all maps have
one text form. In a list with items of both kinds it does matter.
-/

set_option autoImplicit false

namespace ThemeLocales.Document

/-! ## Lists of one kind -/

/-- Every list in the document has only scalars for items, or only maps. -/
def Uniform (d : Document) : Prop :=
  ∀ ds, Part (.list ds) d → (∀ x ∈ ds, x.kind = .scalar) ∨ ∀ x ∈ ds, x.kind = .mapping

theorem uniform_of_scalar {d : Document} (h : d.kind = .scalar) : d.Uniform := by
  intro ds hpart
  rw [← eq_of_part_scalar h hpart] at h
  cases h

theorem uniform_list_iff {ds : List Document} : (list ds).Uniform ↔
    ((∀ x ∈ ds, x.kind = .scalar) ∨ ∀ x ∈ ds, x.kind = .mapping) ∧ ∀ x ∈ ds, x.Uniform := by
  constructor
  · intro h
    exact ⟨h ds .self, fun x hx es hpart => h es (.item hx hpart)⟩
  · rintro ⟨hds, hitems⟩ es hpart
    rcases part_list_iff.1 hpart with heq | ⟨x, hx, hpart⟩
    · cases heq
      exact hds
    · exact hitems x hx es hpart

theorem uniform_map_iff {es : List (String × Document)} :
    (map es).Uniform ↔ ∀ e ∈ es, e.2.Uniform := by
  constructor
  · intro h e he ds hpart
    exact h ds (.value he hpart)
  · intro h ds hpart
    rcases part_map_iff.1 hpart with heq | ⟨e, he, hpart⟩
    · cases heq
    · exact h e he ds hpart

/-! ## Skeletons -/

theorem skeletonItems_eq_map (ds : List Document) : skeletonItems ds = ds.map skeleton := by
  induction ds with
  | nil => rfl
  | cons d ds ih => rw [skeletonItems, ih, List.map_cons]

theorem skeletonEntries_eq_map (es : List (String × Document)) :
    skeletonEntries es = es.map fun e => (e.1, e.2.skeleton) := by
  induction es with
  | nil => rfl
  | cons e es ih => rw [skeletonEntries, ih, List.map_cons]

theorem kind_skeleton (d : Document) : d.skeleton.kind = d.kind := by
  cases d <;> rfl

/-- Whether all lists are of one kind can be seen in the skeleton. -/
theorem uniform_skeleton_iff {d : Document} : d.skeleton.Uniform ↔ d.Uniform := by
  induction d using structuralRec with
  | scalar d hd =>
    rw [skeleton_scalar hd]
    exact iff_of_true (uniform_of_scalar rfl) (uniform_of_scalar hd)
  | list ds ih =>
    rw [skeleton, skeletonItems_eq_map, uniform_list_iff, uniform_list_iff]
    simp only [List.forall_mem_map, kind_skeleton]
    exact and_congr_right fun _ => forall₂_congr ih
  | map es ih =>
    rw [skeleton, skeletonEntries_eq_map, uniform_map_iff, uniform_map_iff, List.forall_mem_map]
    exact forall₂_congr ih

/-! ## What is left of the order -/

/-- Every scalar leaves the same function to be applied. -/
theorem map_merger_of_scalars {us : List Document} (h : ∀ u ∈ us, u.kind = .scalar) :
    us.map (merger .structureOnly) = List.replicate us.length (settle .structureOnly .null) := by
  rw [List.map_eq_replicate_iff]
  intro u hu
  funext origin
  exact merge_scalar .structureOnly origin (h u hu)

theorem sortUnits_of_map {d : Document} (h : d.kind = .mapping) :
    sortUnits d = Text.units "[object Object]" := by
  cases d with
  | map => rfl
  | _ => cases h

/-- Sorting leaves a list of maps as it is. -/
theorem sorted_of_maps {ds : List Document} (h : ∀ x ∈ ds, x.kind = .mapping) :
    sorted ds = ds := by
  apply List.mergeSort_of_pairwise
  apply List.pairwise_of_forall_mem_list
  intro a ha b hb
  rw [sortsBefore, sortUnits_of_map (h a ha), sortUnits_of_map (h b hb)]
  exact Text.unitsLE_refl _

/-! ## Merging the skeleton -/

/-- Sorted skeletons leave the same functions to be applied as the sorted items, if the items are
all scalars or all maps. -/
theorem map_merger_sorted_skeletons {us : List Document}
    (hkinds : (∀ u ∈ us, u.kind = .scalar) ∨ ∀ u ∈ us, u.kind = .mapping)
    (h : ∀ u ∈ us, merger .structureOnly u.skeleton = merger .structureOnly u) :
    (sorted (us.map skeleton)).map (merger .structureOnly) =
      (sorted us).map (merger .structureOnly) := by
  rcases hkinds with hscalars | hmaps
  -- the orders differ, but every scalar leaves the same function
  · have hsorted : ∀ u ∈ sorted us, u.kind = .scalar := by
      intro u hu
      exact hscalars u (mem_sorted.1 hu)
    have hskeletons : ∀ u ∈ sorted (us.map skeleton), u.kind = .scalar := by
      intro u hu
      obtain ⟨x, hx, rfl⟩ := List.mem_map.1 (mem_sorted.1 hu)
      rw [kind_skeleton]
      exact hscalars x hx
    rw [map_merger_of_scalars hsorted, map_merger_of_scalars hskeletons]
    simp only [sorted, List.length_mergeSort, List.length_map]
  -- both lists stay in their order
  · have hskeletons : ∀ u ∈ us.map skeleton, u.kind = .mapping := by
      rw [List.forall_mem_map]
      intro u hu
      rw [kind_skeleton]
      exact hmaps u hu
    rw [sorted_of_maps hmaps, sorted_of_maps hskeletons, List.map_map]
    exact List.map_congr_left h

/-- A merge that brings only structure comes to the same for an update and for its skeleton. -/
theorem merge_skeleton {update : Document} (h : update.Uniform) (origin : Document) :
    merge .structureOnly origin update.skeleton = merge .structureOnly origin update := by
  induction update using structuralRec generalizing origin with
  | scalar u hu =>
    rw [skeleton_scalar hu, merge_scalar _ _ rfl, merge_scalar _ _ hu]
    rfl
  | list us ih =>
    obtain ⟨hkinds, hitems⟩ := uniform_list_iff.1 h
    -- the existing items are sorted in any case, so only the functions have to be compared
    have hmergers := map_merger_sorted_skeletons hkinds fun u hu => funext (ih u hu (hitems u hu))
    rw [skeleton, skeletonItems_eq_map, merge_list, merge_list, hmergers]
  | map es ih =>
    have hvalues := uniform_map_iff.1 h
    have hmergers : (es.map fun e => (e.1, e.2.skeleton)).map
        (fun e => (e.1, merger .structureOnly e.2)) =
        es.map fun e => (e.1, merger .structureOnly e.2) := by
      rw [List.map_map]
      apply List.map_congr_left
      intro e he
      exact Prod.ext rfl (funext (ih e he (hvalues e he)))
    rw [skeleton, skeletonEntries_eq_map, merge_map, merge_map, hmergers]

/-- A merge that brings only structure depends on the shape of the update alone, if every list of
the update has only scalars for items or only maps. -/
theorem merge_structureOnly_congr {update other : Document} (huniform : update.Uniform)
    (hshape : update.skeleton = other.skeleton) (origin : Document) :
    merge .structureOnly origin update = merge .structureOnly origin other := by
  have hother : other.Uniform := by
    rw [← uniform_skeleton_iff, ← hshape, uniform_skeleton_iff]
    exact huniform
  calc merge .structureOnly origin update
      = merge .structureOnly origin update.skeleton := (merge_skeleton huniform origin).symm
    _ = merge .structureOnly origin other.skeleton := by rw [hshape]
    _ = merge .structureOnly origin other := merge_skeleton hother origin

/-- A document with a list of texts that are not in order and a list of maps. -/
def stallDocument : Document :=
  .map [("fruit", .list [.string "Pear", .string "Apple", .int 3]),
    ("rows", .list [.map [("a", .string "One")], .map [("b", .bool true), ("c", .null)]])]

/-- A document of the same shape with other scalars, and its first list in order. -/
def otherStall : Document :=
  .map [("fruit", .list [.int 0, .string "Apfel", .string "Birne"]),
    ("rows", .list [.map [("a", .int 1)], .map [("b", .string ""), ("c", .string "Two")]])]

/-- An existing document with a list that is too short, and with one that has items of all kinds. -/
def stallOrigin : Document :=
  .map [("rows", .list [.map [("a", .null), ("b", .string "Zwei")], .int 7, .string "drei"]),
    ("fruit", .list [.string "Pomme", .string "Fraise"])]

/-- The two documents are sorted in different ways and merged in one. -/
theorem merge_structureOnly_congr_stall :
    stallDocument.Uniform ∧ stallDocument.skeleton = otherStall.skeleton ∧
      merge .structureOnly stallOrigin stallDocument =
        merge .structureOnly stallOrigin otherStall := by
  have huniform : stallDocument.Uniform := by
    simp only [stallDocument, uniform_map_iff, uniform_list_iff, List.mem_cons, List.not_mem_nil,
      or_false, forall_eq_or_imp, forall_eq, kind, and_self, reduceCtorEq, true_and, or_true]
    exact ⟨⟨uniform_of_scalar rfl, uniform_of_scalar rfl, uniform_of_scalar rfl⟩,
      uniform_of_scalar rfl, uniform_of_scalar rfl, uniform_of_scalar rfl⟩
  have hshape : stallDocument.skeleton = otherStall.skeleton := rfl
  exact ⟨huniform, hshape, merge_structureOnly_congr huniform hshape stallOrigin⟩

/-- In a list of a text and a map, the text decides which of the two comes first. -/
example : merge .structureOnly .null (.list [.string "A", .map []]) =
      .list [.string "", .map []] ∧
    merge .structureOnly .null (.list [.string "a", .map []]) =
      .list [.map [], .string ""] := by
  cbv

end ThemeLocales.Document
