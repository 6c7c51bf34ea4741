import ThemeLocales.KeyTable
import ThemeLocales.Proofs.Document.Expand
import ThemeLocales.Proofs.Number.Shortest
import ThemeLocales.Proofs.Template.SchemaBlock

/-!
# Tables of scanned keys

A table that is scanned from a text has each key once, and its defaults are texts and numbers of a
size that a file can hold.
-/

set_option autoImplicit false

namespace ThemeLocales

open Document

/-- A table that is sound as a map. -/
def KeyTable.Sound (table : KeyTable) : Prop :=
  (Document.map table).Sound

namespace Template

/-- A double is never so great that its integer text would be too long. -/
theorem digitCount_toInt? {x : Binary64} (hx : x.Canonical) {n : ℤ} (h : x.toInt? = some n) :
    Binary64.digitCount n.natAbs ≤ Number.longestInteger := by
  cases x with
  | nan => simp [Binary64.toInt?] at h
  | infinity => simp [Binary64.toInt?] at h
  | finite negative m e =>
    obtain ⟨-, hgreatest, hm, -⟩ := hx
    simp only [Binary64.toInt?] at h
    split at h
    · have habs : n.natAbs = m * Nat.pow 2 e.toNat / Nat.pow 2 (-e).toNat := by
        simp only [Option.some.injEq] at h
        rw [← h]
        split
        · rw [Int.natAbs_neg]
          exact Int.natAbs_natCast _
        · exact Int.natAbs_natCast _
      have he : e.toNat ≤ 971 := by
        have : Binary64.greatestExponent = 971 := rfl
        omega
      -- finite doubles are below 2 to the power 1024, far below the longest integer
      have hlt : n.natAbs < 2 ^ (53 + e.toNat) := by
        rw [habs, pow_add]
        refine (Nat.div_le_self _ _).trans_lt ?_
        exact Nat.mul_lt_mul_of_pos_right hm (Nat.pow_pos (by decide))
      refine (Binary64.digitCount_le_iff (by decide)).2 (hlt.trans_le ?_)
      calc 2 ^ (53 + e.toNat) ≤ 2 ^ Number.longestInteger :=
            Nat.pow_le_pow_right (by decide) (by unfold Number.longestInteger; omega)
        _ ≤ 10 ^ Number.longestInteger := Nat.pow_le_pow_left (by decide) _
    · simp at h

theorem sound_numberDefault (negative : Bool) (whole fraction : List Char) :
    (numberDefault negative whole fraction).Sound := by
  unfold numberDefault
  have hx := Binary64.canonical_ofDecimal negative (Text.digitsValue (whole ++ fraction))
    (-(fraction.length : ℤ))
  simp only
  split
  · next n hn =>
    exact ⟨(storable_scalar_iff rfl).2 (digitCount_toInt? hx hn),
      plain_of_isPlain rfl (Or.inr (Or.inl rfl))⟩
  · exact ⟨(storable_scalar_iff rfl).2 hx, plain_of_isPlain rfl (Or.inr (Or.inl rfl))⟩

theorem sound_filterDefault (segment : String) : (filterDefault segment).Sound := by
  unfold filterDefault
  split
  · unfold literalDefault
    split
    · exact sound_string _
    · split
      · exact sound_numberDefault _ _ _
      · exact sound_string _
  · exact sound_string _

theorem sound_addKey {table : KeyTable} (h : table.Sound) (key : String) {value : Document}
    (hvalue : value.Sound) : (addKey table key value).Sound := by
  unfold addKey
  split
  · exact h
  · exact sound_map_set h hvalue key

theorem sound_scanSegment {state : ScanState × KeyTable} (h : state.2.Sound) (segment : String) :
    (scanSegment state segment).2.Sound := by
  unfold scanSegment
  split
  · exact h
  · split
    · split
      · exact sound_addKey h _ (sound_filterDefault segment)
      · exact h
    · exact h

/-- What each step of a fold keeps, the fold keeps. -/
theorem foldl_keeps {α β : Type} {P : β → Prop} {f : β → α → β} (h : ∀ b a, P b → P (f b a))
    {b : β} (hb : P b) (xs : List α) : P (xs.foldl f b) := by
  induction xs generalizing b with
  | nil => exact hb
  | cons x rest ih => exact ih (h b x hb)

theorem sound_scanRegion {table : KeyTable} (h : table.Sound) (region : String) :
    (scanRegion table region).Sound :=
  foldl_keeps (P := fun state => KeyTable.Sound state.2)
    (fun _ segment hs => sound_scanSegment hs segment) (b := (ScanState.idle, table)) h _

theorem sound_scanKeys (text : String) : (scanKeys text).Sound :=
  foldl_keeps (P := KeyTable.Sound) (fun _ region h => sound_scanRegion h region) sound_map_nil _

theorem sound_scanSchemaKeys (text : String) : (scanSchemaKeys text).Sound := by
  refine sound_map_iff.2 ⟨nodup_keys_scanSchemaKeys text, fun e he => ?_⟩
  rw [default_of_mem_scanSchemaKeys he]
  exact sound_string ""

end Template

namespace KeyTable

/-- The entries of a merged table are those of a merged map. -/
theorem sound_merge_entries {table more : KeyTable} (h : table.Sound) (hmore : more.Sound) :
    KeyTable.Sound (Document.merge .preserve (.map table) (.map more)).entries := by
  have hmerge : (Document.merge .preserve (.map table) (.map more)).Sound :=
    Document.sound_merge h hmore
  rw [Document.merge_map] at hmerge ⊢
  exact hmerge

theorem sound_ofContent (text : String) : (ofContent text).Sound :=
  sound_merge_entries (Template.sound_scanKeys text) (Template.sound_scanSchemaKeys text)

theorem sound_add {table more : KeyTable} (h : table.Sound) (hmore : more.Sound) :
    (add table more).Sound :=
  sound_merge_entries h hmore

theorem sound_normalKeys {table : KeyTable} (h : table.Sound) : (normalKeys table).Sound := by
  rw [KeyTable.Sound, sound_map_iff] at h ⊢
  refine ⟨h.1.sublist (List.filter_sublist.map Prod.fst), fun e he => ?_⟩
  exact h.2 e (List.mem_filter.1 he).1

theorem eq_of_schemaPart? {a b part : String} (ha : schemaPart? a = some part)
    (hb : schemaPart? b = some part) : a = b := by
  obtain ⟨as, has, hparta⟩ := Option.map_eq_some_iff.1 ha
  obtain ⟨bs, hbs, hpartb⟩ := Option.map_eq_some_iff.1 hb
  have hsame : as = bs := by
    rw [← hpartb, String.ofList_inj] at hparta
    exact hparta
  rw [← String.toList_inj, Text.eq_append_of_after? has, Text.eq_append_of_after? hbs, hsame]

theorem mem_schemaKeys {table : KeyTable} {e : String × Document} (h : e ∈ schemaKeys table) :
    ∃ key, (key, e.2) ∈ table ∧ schemaPart? key = some e.1 := by
  obtain ⟨⟨key, value⟩, hmem, hentry⟩ := List.mem_filterMap.1 h
  have hentry : (schemaPart? key).map (fun part => (part, value)) = some e := hentry
  obtain ⟨part, hpart, rfl⟩ := Option.map_eq_some_iff.1 hentry
  exact ⟨key, hmem, hpart⟩

theorem nodup_schemaKeys {table : KeyTable} (h : (table.map Prod.fst).Nodup) :
    ((schemaKeys table).map Prod.fst).Nodup := by
  induction table with
  | nil => exact List.nodup_nil
  | cons e rest ih =>
    obtain ⟨key, value⟩ := e
    rw [List.map_cons, List.nodup_cons] at h
    have hrest := ih h.2
    unfold schemaKeys at hrest ⊢
    rw [List.filterMap_cons]
    cases hpart : schemaPart? key with
    | none =>
      simp only [hpart, Option.map_none]
      exact hrest
    | some part =>
      simp only [hpart, Option.map_some, List.map_cons]
      refine List.nodup_cons.2 ⟨fun hmem => ?_, hrest⟩
      obtain ⟨e, he, rfl⟩ := List.mem_map.1 hmem
      obtain ⟨key', hkey', hpart'⟩ := mem_schemaKeys he
      rw [eq_of_schemaPart? hpart hpart'] at h
      exact h.1 (List.mem_map.2 ⟨_, hkey', rfl⟩)

theorem sound_schemaKeys {table : KeyTable} (h : table.Sound) : (schemaKeys table).Sound := by
  rw [KeyTable.Sound, sound_map_iff] at h ⊢
  refine ⟨nodup_schemaKeys h.1, fun e he => ?_⟩
  obtain ⟨key, hmem, -⟩ := mem_schemaKeys he
  exact h.2 (key, e.2) hmem

end KeyTable

end ThemeLocales
