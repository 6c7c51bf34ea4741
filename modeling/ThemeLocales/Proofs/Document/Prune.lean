import ThemeLocales.Proofs.Document.Leaf
import ThemeLocales.Proofs.Document.Merge

/-!
# Pruning as a restriction

Pruning restricts a document to the positions that a reference has. The leaves that are left are
those leaves of the document at whose positions the reference has something (`leaves_prune`), and
which of two references comes first does not matter (`prune_comm`). Pruning again by the same
reference changes nothing (`prune_prune`), and neither does pruning a tree by itself (`prune_self`).

Nothing is asked of the shape of a reference. A container that meets something of another kind loses
all that it holds and stays as an empty container, so the two references of `prune_comm` may empty
it at different depths.
-/

set_option autoImplicit false

namespace ThemeLocales.Document

/-! ## Entries and items -/

theorem pruneEntries_eq_filterMap (es rs : List (String × Document)) :
    pruneEntries es rs =
      es.filterMap fun e => (Assoc.get? e.1 rs).map fun r => (e.1, e.2.prune r) := by
  induction es with
  | nil => rfl
  | cons e es ih =>
    rw [pruneEntries, List.filterMap_cons, ih]
    cases Assoc.get? e.1 rs <;> rfl

theorem pruneEntries_append (es fs rs : List (String × Document)) :
    pruneEntries (es ++ fs) rs = pruneEntries es rs ++ pruneEntries fs rs := by
  simp only [pruneEntries_eq_filterMap, List.filterMap_append]

@[simp] theorem pruneItems_nil (ds : List Document) : pruneItems ds [] = [] := by
  cases ds <;> rfl

/-- Pruned items have an item at an index when both lists have one. -/
theorem getElem?_pruneItems (ds rs : List Document) (i : ℕ) :
    (pruneItems ds rs)[i]? = ds[i]?.bind fun d => rs[i]?.map (prune d) := by
  induction ds generalizing rs i with
  | nil => cases rs <;> rfl
  | cons d ds ih =>
    cases rs with
    | nil => cases (d :: ds)[i]? <;> rfl
    | cons r rs =>
      cases i with
      | zero => rfl
      | succ i => exact ih rs i

theorem entries_prune (d r : Document) : (d.prune r).entries = pruneEntries d.entries r.entries := by
  cases d <;> rfl

/-- Pruning changes no entries when the reference has every key and every value stays. -/
theorem pruneEntries_eq_self_iff {es rs : List (String × Document)} :
    pruneEntries es rs = es ↔
      ∀ e ∈ es, ∃ r, Assoc.get? e.1 rs = some r ∧ prune e.2 r = e.2 := by
  induction es with
  | nil => simp [pruneEntries]
  | cons e es ih =>
    obtain ⟨key, d⟩ := e
    rw [List.forall_mem_cons, ← ih, pruneEntries]
    cases hr : Assoc.get? key rs with
    | some r => simp
    | none =>
      -- an entry that is lost is not made up for, because pruning adds none
      have hlength := (keys_pruneEntries_sublist es rs).length_le
      rw [List.length_map, List.length_map] at hlength
      constructor
      · intro h
        have h : pruneEntries es rs = (key, d) :: es := h
        rw [h, List.length_cons] at hlength
        omega
      · simp

/-- A tree has a place for all that it holds itself. -/
theorem prune_self {d : Document} (hd : d.Tree) : d.prune d = d := by
  induction d using structuralRec with
  | scalar d h => exact prune_scalar h d
  | list ds => exact absurd rfl (hd.listFree _ .self)
  | map es ih =>
    obtain ⟨hkeys, hvalues⟩ := tree_map_iff.1 hd
    have hsame : pruneEntries es es = es := by
      rw [pruneEntries_eq_self_iff]
      intro e he
      exact ⟨e.2, Assoc.get?_of_mem hkeys he, ih e he (hvalues e he)⟩
    exact congrArg map hsame

/-! ## One reference after another -/

/-- Pruning once is enough. -/
theorem prune_prune (d r : Document) : (d.prune r).prune r = d.prune r := by
  induction d using structuralRec generalizing r with
  | scalar d hd => rw [prune_scalar hd, prune_scalar hd]
  | list ds ih =>
    refine congrArg list (List.ext_getElem? fun i => ?_)
    simp only [getElem?_pruneItems]
    cases hd : ds[i]? with
    | none => rfl
    | some d =>
      cases r.items[i]? with
      | none => rfl
      | some q => exact congrArg some (ih d (List.mem_of_getElem? hd) q)
  | map es ih =>
    refine congrArg map (pruneEntries_eq_self_iff.2 fun e he => ?_)
    obtain ⟨x, hx, q, hq, heq⟩ := mem_pruneEntries he
    exact ⟨q, hq, by rw [heq, ih _ hx]⟩

/-- Two references prune to the same in either order. -/
theorem prune_comm (d r q : Document) : (d.prune r).prune q = (d.prune q).prune r := by
  induction d using structuralRec generalizing r q with
  | scalar d hd => rw [prune_scalar hd, prune_scalar hd, prune_scalar hd]
  | list ds ih =>
    refine congrArg list (List.ext_getElem? fun i => ?_)
    simp only [getElem?_pruneItems]
    cases hd : ds[i]? with
    | none => rfl
    | some d =>
      -- An item is left when both references have its index, and then pruned by both items.
      cases hr : r.items[i]? with
      | none => cases q.items[i]? <;> rfl
      | some r' =>
        cases hq : q.items[i]? with
        | none => rfl
        | some q' => exact congrArg some (ih d (List.mem_of_getElem? hd) r' q')
  | map es ih =>
    have hentries : pruneEntries (pruneEntries es r.entries) q.entries =
        pruneEntries (pruneEntries es q.entries) r.entries := by
      simp only [pruneEntries_eq_filterMap, List.filterMap_filterMap]
      apply List.filterMap_congr
      intro e he
      -- An entry is left when both references have its key, and then pruned by both values.
      cases hr : Assoc.get? e.1 r.entries with
      | none => cases hq : Assoc.get? e.1 q.entries <;> simp [hr]
      | some r' =>
        cases hq : Assoc.get? e.1 q.entries with
        | none => simp [hq]
        | some q' => simp [hr, hq, ih e he r' q']
    exact congrArg map hentries

/-! ## The leaves that are left -/

/-- Of the leaves below a step, those are at positions of a document that are at positions of what
it has one step down. -/
theorem filter_reaches_under {r below : Document} {step : Step} (h : r.child? step = some below)
    (ls : List Leaf) :
    (ls.map (Leaf.under step)).filter (fun leaf => r.reaches leaf.1) =
      (ls.filter fun leaf => below.reaches leaf.1).map (Leaf.under step) := by
  rw [List.filter_map]
  congr 1
  apply List.filter_congr
  intro leaf _
  exact reaches_cons_of_some h leaf.1

/-- No leaf below a step is at a position of a document that has nothing there. -/
theorem filter_reaches_under_of_none {r : Document} {step : Step} (h : r.child? step = none)
    (ls : List Leaf) :
    (ls.map (Leaf.under step)).filter (fun leaf => r.reaches leaf.1) = [] := by
  rw [List.filter_eq_nil_iff, List.forall_mem_map]
  intro leaf _
  rw [Leaf.under, reaches_cons_of_none h]
  exact Bool.false_ne_true

/-- What pruning leaves of a document is at positions that the reference has, for every
reference. -/
def LeavesReached (d : Document) : Prop :=
  ∀ r, leaves (d.prune r) = (leaves d).filter fun leaf => r.reaches leaf.1

variable {r : Document}

/-- The items that are left and the index of the first go together. -/
theorem leavesItems_pruneItems {ds : List Document} (h : ∀ d ∈ ds, d.LeavesReached) (i : ℕ) :
    leavesItems i (pruneItems ds (r.items.drop i)) =
      (leavesItems i ds).filter fun leaf => r.reaches leaf.1 := by
  induction ds generalizing i with
  | nil => cases r.items.drop i <;> rfl
  | cons d ds ih =>
    obtain ⟨hd, hds⟩ := List.forall_mem_cons.1 h
    rw [leavesItems, List.filter_append, ← ih hds (i + 1)]
    cases hchild : r.child? (.index i) with
    | some x =>
      have hitem : r.items[i]? = some x := hchild
      have hdrop : r.items.drop i = x :: r.items.drop (i + 1) :=
        List.drop_eq_getElem?_toList_append.trans (by rw [hitem]; rfl)
      rw [hdrop, pruneItems, leavesItems, hd x, filter_reaches_under hchild]
    | none =>
      -- The reference has ended, so none of the items that are left has a place in it.
      have hlength : r.items.length ≤ i := List.getElem?_eq_none_iff.1 hchild
      rw [List.drop_eq_nil_of_le hlength, List.drop_eq_nil_of_le (by omega), pruneItems_nil,
        pruneItems_nil, filter_reaches_under_of_none hchild]
      rfl

theorem leavesEntries_pruneEntries {es : List (String × Document)}
    (h : ∀ e ∈ es, e.2.LeavesReached) :
    leavesEntries (pruneEntries es r.entries) =
      (leavesEntries es).filter fun leaf => r.reaches leaf.1 := by
  induction es with
  | nil => rfl
  | cons e es ih =>
    obtain ⟨key, d⟩ := e
    obtain ⟨hd, hes⟩ := List.forall_mem_cons.1 h
    rw [leavesEntries, List.filter_append, ← ih hes, pruneEntries]
    cases hkey : Assoc.get? key r.entries with
    | some x =>
      have hchild : r.child? (.key key) = some x := hkey
      rw [filter_reaches_under hchild, leavesEntries, hd x]
    | none =>
      have hchild : r.child? (.key key) = none := hkey
      rw [filter_reaches_under_of_none hchild]
      rfl

/-- The leaves that pruning leaves are those at positions that the reference has. -/
theorem leaves_prune (d r : Document) :
    leaves (d.prune r) = (leaves d).filter fun leaf => r.reaches leaf.1 := by
  suffices h : d.LeavesReached from h r
  induction d using structuralRec with
  | scalar d hd =>
    intro r
    rw [prune_scalar hd, leaves_scalar hd]
    rfl
  | list ds ih =>
    intro r
    rw [prune, leaves, leaves, ← leavesItems_pruneItems ih 0, List.drop_zero]
  | map es ih =>
    intro r
    rw [prune, leaves, leaves, leavesEntries_pruneEntries ih]

/-- Pruning is a restriction: the order of two references does not matter, the second time a
reference changes nothing, and what two references leave are just the scalars at positions that both
of them have, with the values that the document has there. -/
theorem prune_restricts (d r q : Document) :
    (d.prune r).prune q = (d.prune q).prune r ∧
      (d.prune r).prune r = d.prune r ∧
      ∀ leaf, leaf ∈ leaves ((d.prune r).prune q) ↔
        leaf ∈ leaves d ∧ r.reaches leaf.1 ∧ q.reaches leaf.1 := by
  refine ⟨prune_comm d r q, prune_prune d r, fun leaf => ?_⟩
  rw [leaves_prune, leaves_prune, List.mem_filter, List.mem_filter, and_assoc]

end ThemeLocales.Document
