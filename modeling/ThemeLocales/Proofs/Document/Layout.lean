import ThemeLocales.Proofs.Document.Merge

/-!
# The layout of a merged document

Wherever the update has a map, the merged document has a map too. It begins with the keys that the
existing document has there, in their order, and goes on with the other keys of the update
(`layout_merge`). An existing document that has no map there, or nothing at all, counts as one
without keys.

A value at a key that the update lacks is merged with null. That keeps a container in full, and of
the scalars it changes only null, false and the empty text (`settle_null_update`).
-/

set_option autoImplicit false

namespace ThemeLocales.Document

/-- What a merge leaves of a value for which the update has nothing. Null and false give place to
the empty text; everything else stays, a container with all that is in it. -/
def retained : Document → Document
  | .null => .string ""
  | .bool false => .string ""
  | d => d

theorem settle_null_update (policy : Policy) (d : Document) :
    settle policy .null d = d.retained := by
  cases d with
  | null => cases policy <;> rfl
  | bool b => cases b <;> cases policy <;> rfl
  | string s =>
    by_cases hs : s = "" <;> cases policy <;> simp [settle, isNumber, isContent, retained, hs]
  | _ => rfl

/-- The entries of the map at a path; none where there is no map. -/
def entriesAt (path : List String) (d : Document) : List (String × Document) :=
  (orNull (at? path d)).entries

/-- A merge keeps the layout of the existing document and covers the structure of the update. Where
the update has a map, the keys of the merged document are the existing keys there, in their order,
and then the other keys of the update. Under an existing key that the update lacks there, the
existing value is retained. -/
theorem layout_merge (policy : Policy) {origin update : Document} {path : List String}
    {es : List (String × Document)} (h : at? path update = some (.map es)) :
    ∃ rs, at? path (merge policy origin update) = some (.map rs) ∧
      Assoc.keys rs = Assoc.keys (entriesAt path origin) ++
        (Assoc.keys es).filter (fun key => key ∉ Assoc.keys (entriesAt path origin)) ∧
      ∀ key v, Assoc.get? key (entriesAt path origin) = some v → key ∉ Assoc.keys es →
        Assoc.get? key rs = some v.retained := by
  refine ⟨(merge policy (orNull (at? path origin)) (.map es)).entries, ?_,
    keys_merge_map policy _ es, ?_⟩
  · rw [at?_merge_of_at? policy h, ← merge_map_eq_map]
  · intro key v hv hkey
    have hnone : Assoc.get? key es = none := Assoc.get?_eq_none_iff.2 hkey
    have hget := get?_merge_map policy (orNull (at? path origin)) es key
    have hv' : (orNull (at? path origin)).get? key = some v := hv
    -- the update counts as null at the key
    rw [hv', hnone, Option.isSome_some, Bool.true_or, if_pos rfl, orNull, orNull,
      merge_scalar policy v rfl, settle_null_update] at hget
    exact hget

/-- A menu with values of several kinds. -/
def menuOrigin : Document :=
  .map [("menu", .map [("last", .null), ("tags", .list [.null, .string ""]),
    ("home", .string "Start"), ("off", .bool false), ("rows", .int 0)])]

/-- A menu with a new key and a map in the place of a text. -/
def menuUpdate : Document :=
  .map [("title", .string "Shop"),
    ("menu", .map [("cart", .string "Cart"), ("home", .map [("here", .string "Home")])])]

/-- The list and the zero stay as they are; null and false do not. -/
theorem layout_merge_menu : ∃ rs,
    at? ["menu"] (merge .preserve menuOrigin menuUpdate) = some (.map rs) ∧
      Assoc.keys rs = ["last", "tags", "home", "off", "rows", "cart"] ∧
      Assoc.get? "last" rs = some (.string "") ∧
      Assoc.get? "tags" rs = some (.list [.null, .string ""]) ∧
      Assoc.get? "off" rs = some (.string "") ∧ Assoc.get? "rows" rs = some (.int 0) := by
  have hmenu : at? ["menu"] menuUpdate =
      some (.map [("cart", .string "Cart"), ("home", .map [("here", .string "Home")])]) := rfl
  obtain ⟨rs, hrs, hkeys, hretained⟩ := layout_merge .preserve hmenu
  exact ⟨rs, hrs, hkeys, hretained "last" _ rfl (by decide), hretained "tags" _ rfl (by decide),
    hretained "off" _ rfl (by decide), hretained "rows" _ rfl (by decide)⟩

end ThemeLocales.Document
