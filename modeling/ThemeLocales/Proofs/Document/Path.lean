import ThemeLocales.Document.Merge
import ThemeLocales.Document.Path
import ThemeLocales.Document.Prune
import ThemeLocales.Proofs.Document.Part

/-!
# Values at paths under merging and pruning

A merge keeps a number or content at a path as long as the update spares the path: it has no list on
the way and no container at the end (`at?_merge_of_spares`). What it puts at a path of the update is
the merge of what stands there on both sides (`at?_merge_of_at?`). Pruning keeps a path exactly when
the reference has it too (`at?_prune`).
-/

set_option autoImplicit false

namespace ThemeLocales.Document

theorem at?_cons (key : String) (rest : List String) (d : Document) :
    at? (key :: rest) d = (d.get? key).bind (at? rest) := rfl

/-- A scalar has nothing below it. -/
theorem at?_scalar {value : Document} {path : List String} (h : value.kind = .scalar)
    (hpath : path ≠ []) : at? path value = none := by
  cases path with
  | nil => exact absurd rfl hpath
  | cons name rest =>
    cases value with
    | map es => cases h
    | _ => rfl

/-- What stands at a path is a part of the document. -/
theorem part_of_at? {path : List String} {d v : Document} (h : at? path d = some v) : Part v d := by
  induction path generalizing d with
  | nil =>
    cases h
    exact .self
  | cons key rest ih =>
    rw [at?_cons, Option.bind_eq_some_iff] at h
    obtain ⟨child, hchild, hrest⟩ := h
    exact (ih hrest).trans (part_of_get? hchild)

/-- Whether an update leaves a path alone: no list stands on the way, and no container at the
end. An update that ends in a scalar on the way, or lacks a key, spares the path. -/
def Spares : List String → Document → Prop
  | [], u => u.kind = .scalar
  | key :: rest, .map es => Spares rest (orNull (Assoc.get? key es))
  | _ :: _, u => u.kind = .scalar

/-- An update with a scalar at a path spares the path. -/
theorem spares_of_at? {path : List String} {u v : Document} (h : at? path u = some v)
    (hv : v.kind = .scalar) : Spares path u := by
  induction path generalizing u with
  | nil =>
    cases h
    exact hv
  | cons key rest ih =>
    rw [at?_cons, Option.bind_eq_some_iff] at h
    obtain ⟨child, hchild, hrest⟩ := h
    rw [eq_map_of_get? hchild]
    change Spares rest (orNull (u.get? key))
    rw [hchild]
    exact ih hrest

/-- An update without lists spares every path at which it has no map. -/
theorem ListFree.spares {path : List String} {u : Document} (hu : u.ListFree)
    (h : ∀ es, at? path u ≠ some (.map es)) : Spares path u := by
  induction path generalizing u with
  | nil =>
    cases u with
    | list ds => exact absurd rfl (hu _ .self)
    | map es => exact absurd rfl (h es)
    | _ => rfl
  | cons key rest ih =>
    cases u with
    | list ds => exact absurd rfl (hu _ .self)
    | map es =>
      refine ih (hu.orNull_get? key) fun fs hfs => ?_
      -- below a key that is not there nothing stands, and so no map either
      cases hkey : Assoc.get? key es with
      | none =>
        rw [hkey] at hfs
        cases rest <;> simp [orNull, at?, get?, entries] at hfs
      | some child =>
        rw [hkey] at hfs
        refine h fs ?_
        rw [at?_cons, get?_map, hkey]
        exact hfs
    | _ => rfl

/-- Merging keeps a number or content where the update spares the path to it. -/
theorem at?_merge_of_spares (policy : Policy) {path : List String} {origin u v : Document}
    (h : at? path origin = some v) (hv : v.isNumber = true ∨ v.isContent = true)
    (hu : Spares path u) : at? path (merge policy origin u) = some v := by
  induction path generalizing origin u with
  | nil =>
    cases h
    rw [merge_scalar policy _ hu, settle_of_stays policy u hv]
    rfl
  | cons key rest ih =>
    have hget := h
    rw [at?_cons, Option.bind_eq_some_iff] at hget
    obtain ⟨child, hchild, hrest⟩ := hget
    cases u with
    | map es =>
      have hmerged : (merge policy origin (.map es)).get? key =
          some (merge policy child (orNull (Assoc.get? key es))) := by
        rw [get?_merge_map, hchild]
        rfl
      rw [at?_cons, hmerged]
      exact ih hrest hu
    | list ds => simp [Spares, kind] at hu
    | _ =>
      -- A scalar update meets a map on the way, which counts as content and stays whole.
      rw [merge_scalar policy _ rfl, settle_of_stays, h]
      rw [eq_map_of_get? hchild]
      exact Or.inr rfl

/-- At a path of the update, a merged document has the merge of what both sides have there. An
existing document that lacks the path counts as null. -/
theorem at?_merge_of_at? (policy : Policy) {path : List String} {origin update u : Document}
    (h : at? path update = some u) :
    at? path (merge policy origin update) = some (merge policy (orNull (at? path origin)) u) := by
  induction path generalizing origin update with
  | nil =>
    cases h
    rfl
  | cons key rest ih =>
    rw [at?_cons, Option.bind_eq_some_iff] at h
    obtain ⟨child, hchild, hrest⟩ := h
    obtain ⟨us, rfl⟩ : ∃ us, update = .map us := ⟨_, eq_map_of_get? hchild⟩
    rw [get?_map] at hchild
    have hget := get?_merge_map policy origin us key
    rw [hchild, Option.isSome_some, Bool.or_true, if_pos rfl] at hget
    rw [at?_cons, hget, at?_cons]
    -- the existing document goes on with null where it lacks the key, and null has no path at all
    cases hkey : origin.get? key with
    | some v => exact ih hrest
    | none =>
      refine (ih hrest).trans ?_
      cases rest <;> rfl

/-- A pruned document has a path when it and the reference have it. -/
theorem at?_prune (path : List String) (d reference : Document) :
    at? path (d.prune reference) =
      (at? path d).bind fun v => (at? path reference).map (prune v) := by
  induction path generalizing d reference with
  | nil => rfl
  | cons key rest ih =>
    rw [at?_cons, get?_prune, at?_cons, at?_cons]
    cases hd : d.get? key with
    | none => rfl
    | some v =>
      cases hr : reference.get? key with
      | none => simp
      | some r => simp [ih]

/-- Pruning keeps a scalar at a path of the reference. -/
theorem at?_prune_of_scalar {path : List String} {d reference v : Document}
    (h : at? path d = some v) (hv : v.kind = .scalar) (hr : (at? path reference).isSome) :
    at? path (d.prune reference) = some v := by
  obtain ⟨r, hr⟩ := Option.isSome_iff_exists.1 hr
  rw [at?_prune, h, hr]
  simp [prune_scalar hv]

end ThemeLocales.Document
