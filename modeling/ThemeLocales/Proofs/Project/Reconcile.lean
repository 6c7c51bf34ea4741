import ThemeLocales.Project.Extraction
import ThemeLocales.Proofs.Document.Fixpoint

/-!
# Reconciling documents

What one reconciliation keeps of a main or of a target document. From it, what any number of them
keep of the main document: a value that is a number or content stays as long as the extracted trees
do not put a map in its place and, where they clean, still refer to its key.
-/

set_option autoImplicit false

namespace ThemeLocales.Project

open Document

/-! ## One reconciliation -/

theorem storable_reconcileMain {origin extracted : Document} (horigin : origin.Storable)
    (hextracted : extracted.Storable) (clean : Bool) :
    (reconcileMain origin extracted clean).Storable := by
  have hmerge : (merge .preserve origin extracted).Storable :=
    storable_merge horigin hextracted
  cases clean with
  | false => exact hmerge
  | true => exact storable_prune hmerge extracted

theorem storable_reconcileTarget {origin main : Document} (horigin : origin.Storable)
    (hmain : main.Storable) (extracted : Document) (clean : Bool) :
    (reconcileTarget origin main extracted clean).Storable := by
  have hmerge : (merge .structureOnly origin main).Storable :=
    storable_merge horigin hmain
  cases clean with
  | false => exact hmerge
  | true => exact storable_prune hmerge extracted

/-- What a reconciliation of a target asks for a path: the main document spares it, and where unused
keys are cleaned the extracted tree has it. -/
def Retains (keys : List String) (main extracted : Document) (clean : Bool) : Prop :=
  Spares keys main ∧ (clean = true → (at? keys extracted).isSome)

/-- A finished translation at a path that is retained stays. -/
theorem at?_reconcileTarget {keys : List String} {origin main extracted v : Document} {clean : Bool}
    (h : at? keys origin = some v) (hv : v.isTranslated = true)
    (hretains : Retains keys main extracted clean) :
    at? keys (reconcileTarget origin main extracted clean) = some v := by
  have hmerge := at?_merge_of_spares .structureOnly h (stays_of_isTranslated hv) hretains.1
  cases clean with
  | false => exact hmerge
  | true => exact at?_prune_of_scalar hmerge (kind_of_isTranslated hv) (hretains.2 rfl)

/-- A path at which the reconciled main document has a text is retained. -/
theorem retains_reconcileMain {keys : List String} {origin extracted : Document} {clean : Bool}
    {s : String} (h : at? keys (reconcileMain origin extracted clean) = some (.string s)) :
    Retains keys (reconcileMain origin extracted clean) extracted clean := by
  refine ⟨spares_of_at? h rfl, ?_⟩
  rintro rfl
  change at? keys ((merge .preserve origin extracted).prune extracted) = some (.string s) at h
  rw [at?_prune, Option.bind_eq_some_iff] at h
  obtain ⟨x, -, hx⟩ := h
  obtain ⟨r, hr, -⟩ := Option.map_eq_some_iff.1 hx
  rw [hr]
  rfl

/-- One reconciliation keeps a scalar of the main document that the extracted tree spares and, when
unused keys are cleaned, refers to. -/
theorem at?_reconcileMain {path : List String} {origin extracted v : Document} {clean : Bool}
    (h : at? path origin = some v) (hscalar : v.kind = .scalar)
    (hv : v.isNumber = true ∨ v.isContent = true) (hspares : Spares path extracted)
    (hclean : clean = true → (at? path extracted).isSome) :
    at? path (reconcileMain origin extracted clean) = some v := by
  have hmerge := at?_merge_of_spares .preserve h hv hspares
  cases clean with
  | false => exact hmerge
  | true => exact at?_prune_of_scalar hmerge hscalar (hclean rfl)

/-! ## Documents at rest -/

/-- A document of another language that neither another extraction nor another translation along the
same main document changes. -/
structure TargetRests (target main extracted : Document) (clean : Bool) : Prop where
  storable : target.Storable
  again : reconcileTarget target main extracted clean = target
  filled : Filled NoAnswer main target target

/-- A main document absorbs the tree that was extracted into it. -/
theorem absorbs_reconcileMain (origin : Document) {extracted : Document} (h : extracted.Tree)
    (clean : Bool) : Absorbs .preserve (reconcileMain origin extracted clean) extracted := by
  have hmerge : Absorbs .preserve (merge .preserve origin extracted) extracted := absorbs_merge h
  cases clean with
  | false => exact hmerge
  | true => exact absorbs_prune h (prune_self h) hmerge

/-- Extraction leaves a document alone that absorbs the extracted tree and, where unused keys are
cleaned, is pruned by it. -/
theorem reconcileMain_eq_self {main extracted : Document} {clean : Bool}
    (h : Absorbs .preserve main extracted) (hpruned : clean = true → main.prune extracted = main) :
    reconcileMain main extracted clean = main := by
  cases clean with
  | false => exact h
  | true =>
    calc (merge .preserve main extracted).prune extracted
        = main.prune extracted := by rw [h]
      _ = main := hpruned rfl

theorem prune_reconcileMain (origin extracted : Document) {clean : Bool} (h : clean = true) :
    (reconcileMain origin extracted clean).prune extracted =
      reconcileMain origin extracted clean := by
  subst h
  exact prune_prune (merge .preserve origin extracted) extracted

/-- A second extraction of the same tree changes nothing, whatever the document was before. -/
theorem reconcileMain_again (origin : Document) {extracted : Document} (h : extracted.Tree)
    (clean : Bool) :
    reconcileMain (reconcileMain origin extracted clean) extracted clean =
      reconcileMain origin extracted clean :=
  reconcileMain_eq_self (absorbs_reconcileMain origin h clean) (prune_reconcileMain origin extracted)

/-- A main document with a list, a truth value, null and a map. -/
def mixedDocument : Document :=
  .map [("menu", .list [.null, .string "Start"]), ("size", .bool false), ("old", .null),
    ("rows", .map [("one", .int 0)])]

/-- Extracted keys for all of it but the null. -/
def mixedTree : Document :=
  .map [("rows", .string "Rows"), ("menu", .map [("home", .string "Home")]),
    ("size", .string "Large")]

/-- The list gives way to a map, the truth value to a text, and the map is emptied, all by the first
extraction. -/
theorem reconcileMain_again_mixed :
    reconcileMain mixedDocument mixedTree true =
        .map [("menu", .map [("home", .string "Home")]), ("size", .string "Large"),
          ("rows", .map [])] ∧
      reconcileMain (reconcileMain mixedDocument mixedTree true) mixedTree true =
        reconcileMain mixedDocument mixedTree true := by
  have htree : mixedTree.Tree := by
    simp [mixedTree, tree_map_iff]
  exact ⟨rfl, reconcileMain_again mixedDocument htree true⟩

/-- One reconciliation to come: an extracted tree and whether unused keys are cleaned. -/
structure Reconciliation where
  extracted : Document
  clean : Bool

/-- The main document after a sequence of reconciliations. -/
def reconcileEach (origin : Document) (steps : List Reconciliation) : Document :=
  steps.foldl (fun d step => reconcileMain d step.extracted step.clean) origin

/-- Extraction never overwrites or loses a value of the main language: a scalar that is a number or
content, reached through maps, is still there after any sequence of reconciliations with trees that
have no list, none of which has a map in its place, and of which those that clean have its key. -/
theorem at?_reconcileEach {path : List String} {origin v : Document}
    {steps : List Reconciliation} (h : at? path origin = some v) (hscalar : v.kind = .scalar)
    (hv : v.isNumber = true ∨ v.isContent = true)
    (hlist : ∀ step ∈ steps, step.extracted.ListFree)
    (hmap : ∀ step ∈ steps, ∀ es, at? path step.extracted ≠ some (.map es))
    (hclean : ∀ step ∈ steps, step.clean = true → (at? path step.extracted).isSome) :
    at? path (reconcileEach origin steps) = some v := by
  induction steps generalizing origin with
  | nil => exact h
  | cons step rest ih =>
    have hspares := (hlist step List.mem_cons_self).spares (hmap step List.mem_cons_self)
    have hstep := at?_reconcileMain h hscalar hv hspares (hclean step List.mem_cons_self)
    exact ih hstep (fun s hs => hlist s (List.mem_cons_of_mem _ hs))
      (fun s hs => hmap s (List.mem_cons_of_mem _ hs))
      (fun s hs => hclean s (List.mem_cons_of_mem _ hs))

/-- A zero of the main document stays when the first tree lacks its key, the second is cut off at a
text on the way, and the third has another default for it and cleans the rest. -/
theorem at?_reconcileEach_zero :
    at? ["size", "rows"] (reconcileEach
      (.map [("size", .map [("rows", .int 0), ("old", .string "Old")]), ("gone", .string "x")])
      [⟨.map [("size", .map [("new", .string "New")])], false⟩,
        ⟨.map [("size", .string "Large")], false⟩,
        ⟨.map [("size", .map [("rows", .int 20)])], true⟩]) = some (.int 0) := by
  refine at?_reconcileEach rfl rfl (Or.inl rfl) ?_ ?_ ?_
  · simp only [List.forall_mem_cons, List.not_mem_nil, false_implies, implies_true, and_true,
      listFree_map_iff]
    exact ⟨listFree_of_scalar rfl, listFree_of_scalar rfl, listFree_of_scalar rfl⟩
  · simp [at?, get?, entries, Assoc.get?]
  · simp [at?, get?, entries, Assoc.get?]

end ThemeLocales.Project
