import ThemeLocales.Document.Basic

/-!
# Pruning a document

A document restricted to the keys and indices that a reference has. Leaves stay as they are.
-/

set_option autoImplicit false

namespace ThemeLocales.Document

mutual

/-- Keeps what the reference has a place for. -/
def prune : Document → Document → Document
  | .list ds, reference => .list (pruneItems ds reference.items)
  | .map es, reference => .map (pruneEntries es reference.entries)
  | d, _ => d

/-- Keeps the items at indices of the reference. -/
def pruneItems : List Document → List Document → List Document
  | d :: ds, r :: rs => prune d r :: pruneItems ds rs
  | _, _ => []

/-- Keeps the entries at keys of the reference. -/
def pruneEntries : List (String × Document) → List (String × Document) → List (String × Document)
  | [], _ => []
  | (key, d) :: es, rs =>
    match Assoc.get? key rs with
    | some r => (key, prune d r) :: pruneEntries es rs
    | none => pruneEntries es rs

end

theorem prune_scalar {d : Document} (h : d.kind = .scalar) (reference : Document) :
    d.prune reference = d := by
  cases d <;> first | rfl | simp [kind] at h

theorem get?_pruneEntries (key : String) (es rs : List (String × Document)) :
    Assoc.get? key (pruneEntries es rs) =
      (Assoc.get? key es).bind fun d => (Assoc.get? key rs).map (prune d) := by
  induction es with
  | nil => rfl
  | cons e es ih =>
    obtain ⟨k, d⟩ := e
    simp only [pruneEntries]
    by_cases hk : k = key
    · subst hk
      cases hr : Assoc.get? k rs with
      | none => simpa [Assoc.get?, hr] using ih
      | some r => simp [Assoc.get?]
    · cases hr : Assoc.get? k rs with
      | none => simpa [Assoc.get?, hk] using ih
      | some r => simpa [Assoc.get?, hk] using ih

/-- A pruned document has a key when it and the reference have it. -/
theorem get?_prune (d reference : Document) (key : String) :
    (d.prune reference).get? key =
      (d.get? key).bind fun v => (reference.get? key).map (prune v) := by
  cases d with
  | map es => exact get?_pruneEntries key es reference.entries
  | _ => rfl

end ThemeLocales.Document
