import ThemeLocales.Proofs.Project.Reconcile

/-!
# What cleaning takes away

The main document with unused keys cleaned, compared with the same document before the cleaning. A
path goes exactly when the extracted tree has nothing there (`at?_clean_eq_none_iff`). At a leaf of
the extracted tree the value stays as it is, unless the document has had a container there: the tree
has no keys and no indices below its leaf, so the container is emptied.
-/

set_option autoImplicit false

namespace ThemeLocales.Document

/-- What is left of a document when everything that it holds is taken away: a scalar holds nothing
and stays, a container remains without its items or entries. -/
def emptied : Document → Document
  | list _ => list []
  | map _ => map []
  | d => d

theorem emptied_scalar {d : Document} (h : d.kind = .scalar) : d.emptied = d := by
  cases d with
  | list ds => simp [kind] at h
  | map es => simp [kind] at h
  | _ => rfl

/-- Pruning by a leaf takes away everything that a document holds. -/
theorem prune_of_leaf {leaf : Document} (h : leaf.kind = .scalar) (d : Document) :
    d.prune leaf = d.emptied := by
  have hitems : leaf.items = [] := by
    cases leaf <;> first | rfl | simp [kind] at h
  have hentries : leaf.entries = [] := by
    cases leaf <;> first | rfl | simp [kind] at h
  cases d with
  | list ds =>
    rw [prune, hitems, emptied]
    cases ds <;> rfl
  | map es =>
    -- no key of the document is found among no entries
    have hnone : ∀ es : List (String × Document), pruneEntries es [] = [] := by
      intro es
      induction es with
      | nil => rfl
      | cons e es ih => simpa [pruneEntries] using ih
    rw [prune, hentries, emptied, hnone]
  | _ => rfl

/-- Where the update has a leaf, a container in the merged document was there before. -/
theorem kind_merge_of_leaf (policy : Policy) (origin : Document) {leaf : Document}
    (h : leaf.kind = .scalar) :
    (merge policy origin leaf).kind = .scalar ∨ merge policy origin leaf = origin := by
  rw [merge_scalar policy origin h]
  rcases settle_cases policy leaf origin with ⟨-, heq⟩ | ⟨-, heq | ⟨-, -, heq⟩⟩
  · exact Or.inr heq
  · exact Or.inl (by rw [heq]; rfl)
  · exact Or.inl (by rw [heq]; exact h)

end ThemeLocales.Document

namespace ThemeLocales.Project

open Document

variable {origin extracted leaf : Document} {path : List String}

/-- Cleaning takes away exactly the paths at which the extracted tree has nothing. -/
theorem at?_clean_eq_none_iff (origin extracted : Document) (path : List String) :
    at? path (reconcileMain origin extracted true) = none ↔
      at? path (reconcileMain origin extracted false) = none ∨ at? path extracted = none := by
  change at? path ((merge .preserve origin extracted).prune extracted) = none ↔
    at? path (merge .preserve origin extracted) = none ∨ _
  rw [at?_prune]
  cases at? path (merge .preserve origin extracted) with
  | none => simp
  | some v => simp

/-- Cleaning empties what stands at a leaf of the extracted tree. -/
theorem at?_clean_of_leaf {v : Document} (h : at? path extracted = some leaf)
    (hleaf : leaf.kind = .scalar)
    (hv : at? path (reconcileMain origin extracted false) = some v) :
    at? path (reconcileMain origin extracted true) = some v.emptied := by
  change at? path (merge .preserve origin extracted) = some v at hv
  change at? path ((merge .preserve origin extracted).prune extracted) = some v.emptied
  rw [at?_prune, hv, h, ← prune_of_leaf hleaf v]
  rfl

/-- At a leaf of the extracted tree where the document has had no container, both documents hold the
same scalar. -/
theorem at?_clean_of_scalar (h : at? path extracted = some leaf) (hleaf : leaf.kind = .scalar)
    (hold : ∀ v, at? path origin = some v → v.kind = .scalar) :
    ∃ w, w.kind = .scalar ∧ at? path (reconcileMain origin extracted false) = some w ∧
      at? path (reconcileMain origin extracted true) = some w := by
  have hmerged : at? path (reconcileMain origin extracted false) =
      some (merge .preserve (orNull (at? path origin)) leaf) := at?_merge_of_at? .preserve h
  have hbefore : (orNull (at? path origin)).kind = .scalar := by
    cases heq : at? path origin with
    | none => rfl
    | some v => exact hold v heq
  have hkind : (merge .preserve (orNull (at? path origin)) leaf).kind = .scalar := by
    rcases kind_merge_of_leaf .preserve (orNull (at? path origin)) hleaf with hscalar | hsame
    · exact hscalar
    · rw [hsame]
      exact hbefore
  refine ⟨_, hkind, hmerged, ?_⟩
  rw [at?_clean_of_leaf h hleaf hmerged, emptied_scalar hkind]

/-- At a leaf of the extracted tree where the document has had a container, it keeps it, and
cleaning empties it. -/
theorem at?_clean_of_container (h : at? path extracted = some leaf) (hleaf : leaf.kind = .scalar)
    {v : Document} (hold : at? path origin = some v) (hv : v.kind ≠ .scalar) :
    at? path (reconcileMain origin extracted false) = some v ∧
      at? path (reconcileMain origin extracted true) = some v.emptied := by
  have hcontent : v.isContent = true := by
    cases v <;> first | rfl | exact absurd rfl hv
  have hmerged : at? path (reconcileMain origin extracted false) = some v := by
    have hmerge : at? path (reconcileMain origin extracted false) =
        some (merge .preserve (orNull (at? path origin)) leaf) := at?_merge_of_at? .preserve h
    rw [hmerge, hold, merge_scalar .preserve _ hleaf]
    exact congrArg some (settle_of_stays .preserve leaf (Or.inr hcontent))
  exact ⟨hmerged, at?_clean_of_leaf h hleaf hmerged⟩

/-- At a key that the sources refer to, cleaning leaves the value of the main document as it is,
unless the document has had a list or a map there: that stays in the document that is not cleaned,
and the cleaned one has the empty container of the same kind. Cleaning takes away no path but those
at which the extracted tree has nothing. -/
theorem at?_reconcileMain_clean (h : at? path extracted = some leaf)
    (hleaf : leaf.kind = .scalar) :
    ((∀ v, at? path origin = some v → v.kind = .scalar) →
      ∃ w, at? path (reconcileMain origin extracted false) = some w ∧
        at? path (reconcileMain origin extracted true) = some w) ∧
    (∀ v, at? path origin = some v → v.kind ≠ .scalar →
      at? path (reconcileMain origin extracted false) = some v ∧
        at? path (reconcileMain origin extracted true) = some v.emptied) ∧
    ∀ other, at? other (reconcileMain origin extracted true) = none ↔
      at? other (reconcileMain origin extracted false) = none ∨ at? other extracted = none := by
  refine ⟨fun hold => ?_, fun v hold hv => ?_, at?_clean_eq_none_iff origin extracted⟩
  · obtain ⟨w, -, hkept, hcleaned⟩ := at?_clean_of_scalar h hleaf hold
    exact ⟨w, hkept, hcleaned⟩
  · exact at?_clean_of_container h hleaf hold hv

/-- A main document with a map, a list, a number and a text. -/
def shopDocument : Document :=
  .map [("menu", .map [("home", .string "Home")]), ("tags", .list [.string "new"]),
    ("size", .int 0), ("old", .string "Old")]

/-- Extracted keys for all of it but the text. -/
def shopTree : Document :=
  .map [("menu", .string ""), ("tags", .string "Tags"), ("size", .string "12")]

/-- The map at a key that the sources refer to is emptied, the number at another one stays, and the
text that no source refers to goes. -/
theorem at?_reconcileMain_clean_shop :
    (at? ["menu"] (reconcileMain shopDocument shopTree false) =
        some (.map [("home", .string "Home")]) ∧
      at? ["menu"] (reconcileMain shopDocument shopTree true) = some (.map [])) ∧
    (∃ w, at? ["size"] (reconcileMain shopDocument shopTree false) = some w ∧
      at? ["size"] (reconcileMain shopDocument shopTree true) = some w) ∧
    at? ["old"] (reconcileMain shopDocument shopTree true) = none := by
  have hmenu : at? ["menu"] shopTree = some (.string "") := rfl
  have hsize : at? ["size"] shopTree = some (.string "12") := rfl
  refine ⟨(at?_reconcileMain_clean hmenu rfl).2.1 _ rfl (by decide), ?_, ?_⟩
  · refine (at?_reconcileMain_clean hsize rfl).1 fun v hv => ?_
    cases hv
    rfl
  · exact (at?_clean_eq_none_iff shopDocument shopTree ["old"]).mpr (Or.inr rfl)

/-- Cleaning can be seen at keys that the sources refer to: where the main document has a map or a
list, it loses what it holds. -/
theorem at?_clean_ne_shop :
    (at? ["menu"] shopTree = some (.string "") ∧
      at? ["menu"] (reconcileMain shopDocument shopTree true) ≠
        at? ["menu"] (reconcileMain shopDocument shopTree false)) ∧
    at? ["tags"] shopTree = some (.string "Tags") ∧
      at? ["tags"] (reconcileMain shopDocument shopTree true) ≠
        at? ["tags"] (reconcileMain shopDocument shopTree false) := by
  refine ⟨⟨rfl, fun heq => ?_⟩, rfl, fun heq => ?_⟩
  · have hmenu : some (Document.map []) = some (.map [("home", .string "Home")]) := heq
    cases hmenu
  · have htags : some (Document.list []) = some (.list [.string "new"]) := heq
    cases htags

end ThemeLocales.Project
