import Mathlib.Data.List.Nodup
import ThemeLocales.Proofs.Document.Path

/-!
# Leaves and positions

A position leads from a document down to one of its parts, through keys of maps and indices of
lists. A leaf is a scalar of the document with the position at which it stands; `leaves` lists them
in document order, and `skeleton` is what a document has beside them. In a tree every position is a
path of keys, so the leaves of a tree are its scalars at paths (`mem_leaves_iff`), each listed once
(`nodup_leaves`).
-/

set_option autoImplicit false

namespace ThemeLocales.Document

variable {τ : Type}

/-! ## Positions -/

/-- One step down from a container: to a key of a map or to an index of a list. -/
inductive Step (τ : Type := String)
  | key (name : τ)
  | index (i : Nat)
  deriving DecidableEq, Repr

/-- What stands one step down, or null. A container of the wrong kind has nothing there. -/
def child (d : Document) : Step → Document
  | .key name => orNull (Assoc.get? name d.entries)
  | .index i => orNull d.items[i]?

/-- What stands at a position, or null. -/
def valueAt (d : Document) (position : List Step) : Document :=
  position.foldl child d

@[simp] theorem valueAt_nil (d : Document) : d.valueAt [] = d := rfl

@[simp] theorem valueAt_cons (d : Document) (step : Step) (position : List Step) :
    d.valueAt (step :: position) = (d.child step).valueAt position := rfl

/-- A position of keys is a path. -/
theorem valueAt_keys (path : List String) (d : Document) :
    d.valueAt (path.map Step.key) = orNull (at? path d) := by
  induction path generalizing d with
  | nil => rfl
  | cons key path ih =>
    have hchild : d.child (.key key) = orNull (d.get? key) := rfl
    rw [List.map_cons, valueAt_cons, hchild, ih, at?_cons]
    cases d.get? key with
    | some v => rfl
    | none => cases path <;> rfl

/-- What stands one step down, if there is something. -/
def child? (d : Document) : Step → Option Document
  | .key name => d.get? name
  | .index i => d.items[i]?

/-- Whether a document has something at a position. -/
def reaches (d : Document) : List Step → Bool
  | [] => true
  | step :: position =>
    match d.child? step with
    | some below => below.reaches position
    | none => false

theorem reaches_cons_of_some {d below : Document} {step : Step} (h : d.child? step = some below)
    (position : List Step) : d.reaches (step :: position) = below.reaches position := by
  rw [reaches, h]

theorem reaches_cons_of_none {d : Document} {step : Step} (h : d.child? step = none)
    (position : List Step) : d.reaches (step :: position) = false := by
  rw [reaches, h]

/-! ## Leaves -/

/-- A scalar and its position. -/
abbrev Leaf (τ : Type := String) := List (Step τ) × Document τ

/-- The leaf as it is seen from one step above. -/
def Leaf.under (step : Step τ) (leaf : Leaf τ) : Leaf τ :=
  (step :: leaf.1, leaf.2)

mutual

/-- The leaves of a document, in document order. -/
def leaves : Document τ → List (Leaf τ)
  | .list ds => leavesItems 0 ds
  | .map es => leavesEntries es
  | d => [([], d)]

/-- The leaves of items, the first of which has a given index. -/
def leavesItems : Nat → List (Document τ) → List (Leaf τ)
  | _, [] => []
  | i, d :: ds => (leaves d).map (Leaf.under (.index i)) ++ leavesItems (i + 1) ds

/-- The leaves of entries. -/
def leavesEntries : List (τ × Document τ) → List (Leaf τ)
  | [] => []
  | (key, d) :: es => (leaves d).map (Leaf.under (.key key)) ++ leavesEntries es

end

theorem leaves_scalar {d : Document τ} (h : d.kind = .scalar) : leaves d = [([], d)] := by
  cases d with
  | list => simp [kind] at h
  | map => simp [kind] at h
  | _ => rfl

theorem leavesEntries_eq_flatMap (es : List (τ × Document τ)) :
    leavesEntries es = es.flatMap fun e => (leaves e.2).map (Leaf.under (.key e.1)) := by
  induction es with
  | nil => rfl
  | cons e es ih => rw [leavesEntries, ih, List.flatMap_cons]

theorem mem_leaves_map {es : List (τ × Document τ)} {leaf : Leaf τ} :
    leaf ∈ leaves (map es) ↔ ∃ e ∈ es, ∃ below ∈ leaves e.2, below.under (.key e.1) = leaf := by
  rw [leaves, leavesEntries_eq_flatMap]
  simp only [List.mem_flatMap, List.mem_map]

/-! ## Texts -/

/-- The text that a scalar is, if it is one. -/
def textOf? : Document τ → Option τ
  | .string s => some s
  | _ => none

/-- The texts among the leaves of a document, in document order. The keys of maps are none. -/
def texts (d : Document τ) : List τ :=
  (leaves d).filterMap fun leaf => textOf? leaf.2

theorem texts_scalar {d : Document τ} (h : d.kind = .scalar) : texts d = (textOf? d).toList := by
  rw [texts, leaves_scalar h, List.filterMap_cons, List.filterMap_nil]
  cases textOf? d <;> rfl

/-- Which texts a part has does not depend on where it stands. -/
theorem filterMap_under (step : Step τ) (found : List (Leaf τ)) :
    (found.map (Leaf.under step)).filterMap (fun leaf => textOf? leaf.2) =
      found.filterMap fun leaf => textOf? leaf.2 := by
  rw [List.filterMap_map]
  rfl

theorem texts_list (ds : List (Document τ)) : texts (.list ds) = ds.flatMap texts := by
  have hitems : ∀ i, (leavesItems i ds).filterMap (fun leaf => textOf? leaf.2) =
      ds.flatMap texts := by
    induction ds with
    | nil => exact fun _ => rfl
    | cons d ds ih =>
      intro i
      rw [leavesItems, List.filterMap_append, filterMap_under, ih, List.flatMap_cons]
      rfl
  exact hitems 0

theorem texts_map (es : List (τ × Document τ)) :
    texts (.map es) = es.flatMap fun e => texts e.2 := by
  rw [texts, leaves]
  induction es with
  | nil => rfl
  | cons e es ih =>
    rw [leavesEntries, List.filterMap_append, filterMap_under, ih, List.flatMap_cons]
    rfl

/-! ## Containers -/

mutual

/-- The containers of a document, with null for every scalar. -/
def skeleton : Document → Document
  | .list ds => .list (skeletonItems ds)
  | .map es => .map (skeletonEntries es)
  | _ => .null

/-- `skeleton` for items. -/
def skeletonItems : List Document → List Document
  | [] => []
  | d :: ds => skeleton d :: skeletonItems ds

/-- `skeleton` for the values of entries. -/
def skeletonEntries : List (String × Document) → List (String × Document)
  | [] => []
  | (key, d) :: es => (key, skeleton d) :: skeletonEntries es

end

theorem skeleton_scalar {d : Document} (h : d.kind = .scalar) : skeleton d = .null := by
  cases d with
  | list => simp [kind] at h
  | map => simp [kind] at h
  | _ => rfl

/-! ## The leaves of a tree -/

/-- The leaves of a tree are its scalars, at the paths that lead to them. -/
theorem mem_leaves_iff {d : Document} (hd : d.Tree) {leaf : Leaf} : leaf ∈ leaves d ↔
    leaf.2.kind = .scalar ∧ ∃ path, leaf.1 = path.map Step.key ∧ at? path d = some leaf.2 := by
  induction d using structuralRec generalizing leaf with
  | scalar d h =>
    rw [leaves_scalar h, List.mem_singleton]
    constructor
    · rintro rfl
      exact ⟨h, [], rfl, rfl⟩
    · rintro ⟨-, path, hposition, hat⟩
      by_cases hpath : path = []
      · subst hpath
        cases hat
        exact Prod.ext hposition rfl
      · rw [at?_scalar h hpath] at hat
        cases hat
  -- a tree has no lists, so a path of keys leads to every leaf
  | list ds ih => exact absurd rfl (hd.listFree _ .self)
  | map es ih =>
    obtain ⟨hkeys, hvalues⟩ := tree_map_iff.1 hd
    rw [mem_leaves_map]
    constructor
    · rintro ⟨e, he, below, hbelow, rfl⟩
      obtain ⟨hscalar, path, hposition, hat⟩ := (ih e he (hvalues e he)).1 hbelow
      refine ⟨hscalar, e.1 :: path, by rw [Leaf.under, hposition]; rfl, ?_⟩
      rw [at?_cons, get?_map, Assoc.get?_of_mem hkeys he]
      exact hat
    · rintro ⟨hscalar, path, hposition, hat⟩
      cases path with
      | nil =>
        rw [at?, Option.some.injEq] at hat
        rw [← hat] at hscalar
        cases hscalar
      | cons key rest =>
        rw [at?_cons, Option.bind_eq_some_iff] at hat
        obtain ⟨v, hget, hat⟩ := hat
        have he : (key, v) ∈ es := Assoc.mem_of_get? hget
        refine ⟨(key, v), he, (rest.map Step.key, leaf.2), ?_, Prod.ext hposition.symm rfl⟩
        exact (ih _ he (hvalues _ he)).2 ⟨hscalar, rest, rfl, hat⟩

theorem under_injective (step : Step) : Function.Injective (Leaf.under step) := by
  rintro ⟨position, d⟩ ⟨position', d'⟩ h
  simpa [Leaf.under] using h

/-- No leaf of a tree is listed twice. -/
theorem nodup_leaves {d : Document} (hd : d.Tree) : (leaves d).Nodup := by
  induction d using structuralRec with
  | scalar d h =>
    rw [leaves_scalar h]
    exact List.nodup_singleton _
  | list ds ih => exact absurd rfl (hd.listFree _ .self)
  | map es ih =>
    obtain ⟨hkeys, hvalues⟩ := tree_map_iff.1 hd
    rw [leaves, leavesEntries_eq_flatMap, List.nodup_flatMap]
    refine ⟨fun e he => (ih e he (hvalues e he)).map (under_injective _), ?_⟩
    -- leaves of different entries differ in their first step
    refine (List.pairwise_map.1 hkeys).imp fun {e e'} hne => ?_
    refine List.disjoint_left.2 fun leaf hleaf hleaf' => ?_
    obtain ⟨below, -, rfl⟩ := List.mem_map.1 hleaf
    obtain ⟨below', -, heq⟩ := List.mem_map.1 hleaf'
    have hstep := (List.cons_eq_cons.1 (congrArg Prod.fst heq)).1
    exact hne (Step.key.inj hstep).symm

end ThemeLocales.Document
