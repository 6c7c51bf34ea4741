import ThemeLocales.Document.Order

/-!
# Merging an update into a document

The update drives the shape: where it has a map the result has a map, where it has a list the result
has a list of the same length, paired with the existing list after both are sorted. At a leaf an
existing number or content wins. What is left is filled from the update when the existing document
is preserved, and with the empty text when only the structure of the update is applied.

`merger` recurses on the update and yields a function of the existing document; the two laws at the
end say what it does to a map and to a list.
-/

set_option autoImplicit false

namespace ThemeLocales.Document

/-- What an update may bring besides its structure. -/
inductive Policy
  | preserve
  | structureOnly
  deriving DecidableEq, Repr

/-- The leaf that an existing value and an update leave. -/
def settle (policy : Policy) (update origin : Document) : Document :=
  if origin.isNumber || origin.isContent then origin
  else match policy with
    | .structureOnly => .string ""
    | .preserve => if update.isContent then update else .string ""

/-- Applies functions to values in order, to null where the values run out. -/
def applyEach : List (Document → Document) → List Document → List Document
  | [], _ => []
  | f :: fs, [] => f .null :: applyEach fs []
  | f :: fs, d :: ds => f d :: applyEach fs ds

/-- The entries of a merged map: the existing keys in their order, then the new keys in the order
of the update. -/
def mergeEntries (policy : Policy) (updates : List (String × (Document → Document)))
    (origin : List (String × Document)) : List (String × Document) :=
  origin.map (fun (key, value) =>
      (key, ((Assoc.get? key updates).getD (settle policy .null)) value)) ++
    (updates.filter fun (key, _) => !Assoc.contains key origin).map fun (key, f) => (key, f .null)

mutual

/-- What an update makes of an existing document. -/
def merger (policy : Policy) : Document → Document → Document
  | .list us => fun origin =>
    .list (applyEach
      (((itemMergers policy us).mergeSort fun a b => Text.unitsLE a.1 b.1).map Prod.snd)
      (sorted origin.items))
  | .map es => fun origin => .map (mergeEntries policy (entryMergers policy es) origin.entries)
  | u => settle policy u

/-- The mergers of the items of a list, each with the code units that order the item. -/
def itemMergers (policy : Policy) : List Document → List (List Nat × (Document → Document))
  | [] => []
  | u :: us => (sortUnits u, merger policy u) :: itemMergers policy us

/-- The mergers of the values of a map, at their keys. -/
def entryMergers (policy : Policy) :
    List (String × Document) → List (String × (Document → Document))
  | [] => []
  | (key, u) :: es => (key, merger policy u) :: entryMergers policy es

end

/-- Merges an update into an existing document. -/
def merge (policy : Policy) (origin update : Document) : Document :=
  merger policy update origin

theorem itemMergers_eq_map (policy : Policy) (us : List Document) :
    itemMergers policy us = us.map fun u => (sortUnits u, merger policy u) := by
  induction us with
  | nil => rfl
  | cons u us ih => simp [itemMergers, ih]

theorem entryMergers_eq_map (policy : Policy) (es : List (String × Document)) :
    entryMergers policy es = es.map fun e => (e.1, merger policy e.2) := by
  induction es with
  | nil => rfl
  | cons e es ih => simp [entryMergers, ih]

/-- A list is merged item by item after both sides are sorted. -/
theorem merge_list (policy : Policy) (origin : Document) (us : List Document) :
    merge policy origin (.list us) =
      .list (applyEach ((sorted us).map (merger policy)) (sorted origin.items)) := by
  have h : ((us.map fun u => (sortUnits u, merger policy u)).mergeSort
      fun a b => Text.unitsLE a.1 b.1) =
      (sorted us).map fun u => (sortUnits u, merger policy u) :=
    (List.map_mergeSort (r := sortsBefore) (s := fun a b => Text.unitsLE a.1 b.1)
      (f := fun u => (sortUnits u, merger policy u)) (l := us) fun _ _ _ _ => rfl).symm
  simp only [merge, merger, itemMergers_eq_map, h, List.map_map]
  rfl

/-- A map is merged key by key. -/
theorem merge_map (policy : Policy) (origin : Document) (es : List (String × Document)) :
    merge policy origin (.map es) =
      .map (mergeEntries policy (es.map fun e => (e.1, merger policy e.2)) origin.entries) := by
  simp only [merge, merger, entryMergers_eq_map]

theorem merge_scalar (policy : Policy) (origin : Document) {u : Document}
    (h : u.kind = .scalar) : merge policy origin u = settle policy u origin := by
  cases u <;> first | rfl | simp [kind] at h

/-- A number or content stays as it is where the update has a leaf. -/
theorem settle_of_stays (policy : Policy) (u : Document) {origin : Document}
    (h : origin.isNumber = true ∨ origin.isContent = true) :
    settle policy u origin = origin := by
  have h' : (origin.isNumber || origin.isContent) = true := by simpa using h
  simp [settle, h']

theorem get?_mergeEntries (policy : Policy) (updates : List (String × (Document → Document)))
    (origin : List (String × Document)) (key : String) :
    Assoc.get? key (mergeEntries policy updates origin) =
      match Assoc.get? key origin with
      | some v => some (((Assoc.get? key updates).getD (settle policy .null)) v)
      | none => (Assoc.get? key updates).map fun f => f .null := by
  have hold := Assoc.get?_map
    (fun k v => ((Assoc.get? k updates).getD (settle policy .null)) v) key origin
  have hnew := Assoc.get?_map (fun _ (f : Document → Document) => f .null) key
    (updates.filter fun e => !Assoc.contains e.1 origin)
  rw [Assoc.get?_filter (fun k => !Assoc.contains k origin)] at hnew
  refine (Assoc.get?_append key _ _).trans ?_
  refine (congr (congrArg Option.or hold) hnew).trans ?_
  cases hkey : Assoc.get? key origin <;> simp [Assoc.contains, hkey]

/-- The value at a key of a merged map: the values at the key on both sides are merged, and one that
is missing counts as null. -/
theorem get?_merge_map (policy : Policy) (origin : Document) (es : List (String × Document))
    (key : String) :
    (merge policy origin (.map es)).get? key =
      if (origin.get? key).isSome || (Assoc.get? key es).isSome then
        some (merge policy (orNull (origin.get? key)) (orNull (Assoc.get? key es)))
      else none := by
  rw [merge_map, get?_map, get?_mergeEntries, Assoc.get?_map (fun _ u => merger policy u)]
  change (match origin.get? key with | some v => _ | none => _) = _
  cases origin.get? key <;> cases Assoc.get? key es <;> rfl

end ThemeLocales.Document
