import ThemeLocales.Proofs.Document.Fixpoint
import ThemeLocales.Proofs.Template.KeyTable
import ThemeLocales.Proofs.Text.Search

/-!
# Which default a key keeps

A default is a text or a number. Where tables of defaults are added up, a key keeps the first of its
defaults that is content, and the empty text if none is: `get?_foldl_add`. A zero is no content, so
the first table that brings content for its key replaces it. A table that was added already is
absorbed (`add_foldl_of_mem`): neither a key nor a default nor the order of the keys changes.
-/

set_option autoImplicit false

namespace ThemeLocales

/-- The documents that a source gives as defaults. A double stands only for what is no integer, so
it is never zero. -/
def Document.IsDefault : Document → Prop
  | .string _ => True
  | .int _ => True
  | .real x => (Document.real x).isContent = true
  | _ => False

/-- All values of a table are defaults. -/
def KeyTable.Flat (table : KeyTable) : Prop :=
  ∀ e ∈ table, e.2.IsDefault

namespace Document

theorem IsDefault.kind {d : Document} (h : d.IsDefault) : d.kind = .scalar := by
  cases d with
  | list ds => exact h.elim
  | map es => exact h.elim
  | _ => rfl

/-- A missing value gives place to content. -/
theorem settle_null (u : Document) :
    settle .preserve u .null = if u.isContent then u else .string "" := rfl

/-- So does the empty text. -/
theorem settle_empty (u : Document) :
    settle .preserve u (.string "") = if u.isContent then u else .string "" := rfl

/-- Two defaults settle on a default, and one may be missing on either side. -/
theorem isDefault_settle {u x : Document} (hu : u = .null ∨ u.IsDefault)
    (hx : x = .null ∨ x.IsDefault) : (settle .preserve u x).IsDefault := by
  rw [settle]
  by_cases hstays : (x.isNumber || x.isContent) = true
  · rw [if_pos hstays]
    rcases hx with rfl | hx
    · simp [isNumber, isContent] at hstays
    · exact hx
  · rw [if_neg hstays]
    by_cases hcontent : u.isContent = true
    · simp only [hcontent, if_true]
      rcases hu with rfl | hu
      · simp [isContent] at hcontent
      · exact hu
    · simp only [hcontent, Bool.false_eq_true, if_false]
      trivial

end Document

/-! ## Defaults of one source -/

namespace Binary64

theorem ofRatio_ne_nan (negative : Bool) (num den : ℕ) : ofRatio negative num den ≠ nan := by
  unfold ofRatio
  split
  · simp
  · dsimp only
    split <;> split <;> simp

theorem ofDecimal_ne_nan (negative : Bool) (digits : ℕ) (exponent : ℤ) :
    ofDecimal negative digits exponent ≠ nan := by
  unfold ofDecimal
  dsimp only
  split
  · simp
  · split
    · simp
    · exact ofRatio_ne_nan _ _ _

/-- Zero is an integer. -/
theorem isZero_of_toInt?_eq_none {x : Binary64} (h : x.toInt? = none) : x.isZero = false := by
  cases x with
  | finite negative m e =>
    rw [isZero, beq_eq_false_iff_ne]
    rintro rfl
    simp [toInt?] at h
  | _ => rfl

end Binary64

namespace Template

theorem isDefault_numberDefault (negative : Bool) (whole fraction : List Char) :
    (numberDefault negative whole fraction).IsDefault := by
  unfold numberDefault
  dsimp only
  split
  · trivial
  · next hnone =>
    have hzero := Binary64.isZero_of_toInt?_eq_none hnone
    have hnan := Binary64.ofDecimal_ne_nan negative (Text.digitsValue (whole ++ fraction))
      (-(fraction.length : ℤ))
    simp [Document.IsDefault, Document.isContent, hzero, hnan]

theorem isDefault_filterDefault (segment : String) : (filterDefault segment).IsDefault := by
  unfold filterDefault literalDefault
  split
  · split
    · trivial
    · split
      · exact isDefault_numberDefault _ _ _
      · trivial
  · trivial

theorem flat_set {table : KeyTable} (h : table.Flat) (key : String) {value : Document}
    (hvalue : value.IsDefault) : KeyTable.Flat (Assoc.set key value table) := by
  intro e he
  rcases Assoc.eq_or_mem_of_mem_set he with rfl | he
  · exact hvalue
  · exact h e he

theorem flat_scanSegment {state : ScanState × KeyTable} (h : state.2.Flat) (segment : String) :
    (scanSegment state segment).2.Flat := by
  unfold scanSegment
  split
  · exact h
  · split
    · split
      · unfold addKey
        split
        · exact h
        · exact flat_set h _ (isDefault_filterDefault segment)
      · exact h
    · exact h

theorem flat_scanKeys (text : String) : (scanKeys text).Flat := by
  have hnil : KeyTable.Flat [] := by
    intro e he
    cases he
  refine foldl_keeps (P := KeyTable.Flat) (fun table region h => ?_) hnil _
  exact foldl_keeps (P := fun state => KeyTable.Flat state.2)
    (fun _ segment hs => flat_scanSegment hs segment) (b := (ScanState.idle, table)) h _

theorem flat_scanSchemaKeys (text : String) : (scanSchemaKeys text).Flat := by
  intro e he
  rw [default_of_mem_scanSchemaKeys he]
  trivial

end Template

/-! ## Tables that are added up -/

namespace KeyTable

open Document

theorem Flat.orNull_get? {table : KeyTable} (h : table.Flat) (key : String) :
    orNull (Assoc.get? key table) = .null ∨ (orNull (Assoc.get? key table)).IsDefault := by
  cases hkey : Assoc.get? key table with
  | none => exact .inl rfl
  | some value => exact .inr (h _ (Assoc.mem_of_get? hkey))

theorem Flat.kind_orNull_get? {table : KeyTable} (h : table.Flat) (key : String) :
    (orNull (Assoc.get? key table)).kind = .scalar := by
  rcases h.orNull_get? key with hnull | hdefault
  · rw [hnull]
    rfl
  · exact hdefault.kind

theorem flat_add {table more : KeyTable} (h : table.Flat) (hmore : more.Flat) :
    (add table more).Flat := by
  intro e he
  obtain ⟨x, u, hx, hu, heq⟩ := mem_merge_map he
  have hu : u = .null ∨ u.IsDefault := hu.imp_right (hmore _)
  have hscalar : u.kind = .scalar := by
    rcases hu with rfl | hu
    · rfl
    · exact hu.kind
  rw [heq, merge_scalar _ _ hscalar]
  exact isDefault_settle hu (hx.imp_right (h _))

theorem flat_ofContent (content : String) : (ofContent content).Flat :=
  flat_add (Template.flat_scanKeys content) (Template.flat_scanSchemaKeys content)

/-- Two tables that are added, entry by entry: those of the first table in their places, and behind
them the new ones of the second. -/
theorem add_eq_append (table : KeyTable) {more : KeyTable} (hmore : more.Flat) :
    add table more =
      table.map (fun e => (e.1, settle .preserve (orNull (Assoc.get? e.1 more)) e.2)) ++
        (more.filter fun e => !Assoc.contains e.1 table).map fun e =>
          (e.1, settle .preserve e.2 .null) := by
  -- flat tables hold scalars, and merging one is settling it
  have hold : table.map (fun e =>
      (e.1, ((Assoc.get? e.1 (more.map fun u => (u.1, merger .preserve u.2))).getD
        (settle .preserve .null)) e.2)) =
      table.map fun e => (e.1, settle .preserve (orNull (Assoc.get? e.1 more)) e.2) := by
    apply List.map_congr_left
    intro e _
    rw [getD_merger, merge_scalar _ _ (hmore.kind_orNull_get? e.1)]
  have hnew : (more.filter fun e => !Assoc.contains e.1 table).map
      (fun e => (e.1, merger .preserve e.2 .null)) =
      (more.filter fun e => !Assoc.contains e.1 table).map fun e =>
        (e.1, settle .preserve e.2 .null) := by
    apply List.map_congr_left
    intro e he
    have hscalar := (hmore e (List.mem_filter.1 he).1).kind
    exact congrArg (Prod.mk e.1) (merge_scalar .preserve .null hscalar)
  rw [add, merge_map, entries, mergeEntries, List.filter_map, List.map_map]
  exact congrArg₂ (· ++ ·) hold hnew

/-- The default at a key of two tables that are added. -/
theorem get?_add (table : KeyTable) {more : KeyTable} (hmore : more.Flat) (key : String) :
    Assoc.get? key (add table more) =
      if (Assoc.get? key table).isSome || (Assoc.get? key more).isSome then
        some (settle .preserve (orNull (Assoc.get? key more)) (orNull (Assoc.get? key table)))
      else none := by
  have hmerge := get?_merge_map .preserve (.map table) more key
  rw [merge_scalar _ _ (hmore.kind_orNull_get? key)] at hmerge
  exact hmerge

/-- What a key keeps of its defaults: the first one that is content, or else the empty text. A key
that has no default at all is no key. -/
def firstContent (defaults : List Document) : Option Document :=
  if defaults.isEmpty then none
  else some ((defaults.find? isContent).getD (.string ""))

/-- One more default only matters where no earlier one is content. -/
theorem firstContent_concat (defaults : List Document) (u : Document) :
    firstContent (defaults ++ [u]) =
      some (settle .preserve u (orNull (firstContent defaults))) := by
  have hlast : firstContent (defaults ++ [u]) =
      some (((defaults.find? isContent).or ([u].find? isContent)).getD (.string "")) := by
    simp [firstContent]
  rw [hlast]
  cases hfind : defaults.find? isContent with
  | some x =>
    -- An earlier default is content and stays.
    have hcontent : x.isContent = true := List.find?_some hfind
    have hne : defaults.isEmpty = false := by
      cases defaults with
      | nil => cases hfind
      | cons => rfl
    have hfirst : firstContent defaults = some x := by
      simp [firstContent, hne, hfind]
    rw [hfirst, orNull, settle_of_stays _ _ (Or.inr hcontent)]
    rfl
  | none =>
    -- So far the key is new or keeps the empty text, and either gives place.
    have hempty : orNull (firstContent defaults) = .null ∨
        orNull (firstContent defaults) = .string "" := by
      cases defaults with
      | nil => exact .inl rfl
      | cons d ds => exact .inr (by simp [firstContent, hfind, orNull])
    have hsettled : settle .preserve u (orNull (firstContent defaults)) =
        if u.isContent then u else .string "" := by
      rcases hempty with h | h
      · rw [h, settle_null]
      · rw [h, settle_empty]
    rw [hsettled, Option.none_or, List.find?_cons]
    cases u.isContent <;> rfl

/-- What a key keeps is settled: no default that it had, and no missing one, changes it. -/
theorem settle_of_firstContent {defaults : List Document} {u v : Document}
    (h : firstContent defaults = some v) (hu : u.isContent = true → u ∈ defaults) :
    settle .preserve u v = v := by
  unfold firstContent at h
  split at h
  · cases h
  · cases hfind : defaults.find? isContent with
    | some x =>
      obtain rfl : x = v := by simpa [hfind] using h
      have hcontent : x.isContent = true := List.find?_some hfind
      exact settle_of_stays _ _ (Or.inr hcontent)
    | none =>
      obtain rfl : Document.string "" = v := by simpa [hfind] using h
      have hnot : u.isContent = false := by
        by_contra hcontent
        exact List.find?_eq_none.1 hfind u (hu (by simpa using hcontent)) (by simpa using hcontent)
      rw [settle_empty, hnot, if_neg Bool.false_ne_true]

/-- A key of several tables that are added up keeps the first default that is content. -/
theorem get?_foldl_add {tables : List KeyTable} (h : ∀ table ∈ tables, table.Flat) (key : String) :
    Assoc.get? key (tables.foldl add []) =
      firstContent (tables.filterMap fun table => Assoc.get? key table) := by
  -- From the right: the last table meets what the key kept of all tables before it.
  induction tables using List.reverseRecOn with
  | nil => rfl
  | append_singleton tables table ih =>
    have ih := ih fun t ht => h t (List.mem_append_left _ ht)
    have hflat := h table (List.mem_append_right _ (List.mem_singleton_self table))
    rw [List.foldl_append, List.foldl_cons, List.foldl_nil, get?_add _ hflat, ih,
      List.filterMap_append]
    cases hkey : Assoc.get? key table with
    | none =>
      rw [List.filterMap_cons_none hkey, List.filterMap_nil, List.append_nil, Option.isSome_none,
        Bool.or_false]
      cases hfirst : firstContent (tables.filterMap fun table => Assoc.get? key table) with
      | none => rfl
      | some v =>
        have hsettled : settle .preserve .null v = v := by
          refine settle_of_firstContent hfirst fun hnull => ?_
          simp [isContent] at hnull
        rw [Option.isSome_some, if_pos rfl, orNull, orNull, hsettled]
    | some u =>
      rw [List.filterMap_cons_some hkey, List.filterMap_nil, firstContent_concat, Option.isSome_some,
        Bool.or_true, if_pos rfl]
      rfl

theorem sound_foldl_add {tables : List KeyTable} (h : ∀ table ∈ tables, table.Sound) :
    KeyTable.Sound (tables.foldl add []) := by
  induction tables using List.reverseRecOn with
  | nil => exact sound_map_nil
  | append_singleton tables table ih =>
    rw [List.foldl_append]
    exact sound_add (ih fun t ht => h t (List.mem_append_left _ ht))
      (h table (List.mem_append_right _ (List.mem_singleton_self table)))

/-- A table that was added already changes nothing when it is added again. -/
theorem add_foldl_of_mem {tables : List KeyTable} (hsound : ∀ table ∈ tables, table.Sound)
    (hflat : ∀ table ∈ tables, table.Flat) {table : KeyTable} (h : table ∈ tables) :
    add (tables.foldl add []) table = tables.foldl add [] := by
  have hkeys : ((tables.foldl add []).map Prod.fst).Nodup :=
    (sound_map_iff.1 (sound_foldl_add hsound)).1
  have hget := get?_foldl_add hflat
  have habsorbs : Document.Absorbs .preserve (.map (tables.foldl add [])) (.map table) := by
    refine absorbs_map_iff.2 ⟨fun e he => ?_, fun e he => ?_⟩
    · -- The key has a default in one of the tables, so it is one of all of them.
      have hvalue : Assoc.get? e.1 table = some e.2 :=
        Assoc.get?_of_mem (sound_map_iff.1 (hsound table h)).1 he
      have hmem : e.2 ∈ tables.filterMap fun table => Assoc.get? e.1 table :=
        List.mem_filterMap.2 ⟨table, h, hvalue⟩
      by_contra hnot
      rw [← Assoc.get?_eq_none_iff, hget] at hnot
      have hempty : (tables.filterMap fun table => Assoc.get? e.1 table) = [] := by
        simpa [firstContent] using hnot
      rw [hempty] at hmem
      cases hmem
    · -- What the key kept is settled, and the default in the table was one of its defaults.
      have hfirst : firstContent (tables.filterMap fun table => Assoc.get? e.1 table) = some e.2 :=
        (hget e.1).symm.trans (Assoc.get?_of_mem hkeys he)
      rw [Document.Absorbs, merge_scalar _ _ ((hflat table h).kind_orNull_get? e.1)]
      refine settle_of_firstContent hfirst fun hcontent => ?_
      cases hkey : Assoc.get? e.1 table with
      | none => simp [hkey, orNull, isContent] at hcontent
      | some u => exact List.mem_filterMap.2 ⟨table, h, hkey⟩
  exact congrArg entries habsorbs

/-! ## The two parts of a table -/

theorem schemaPart?_eq_some_iff {key part : String} :
    schemaPart? key = some part ↔ key = "schema." ++ part := by
  constructor
  · intro h
    obtain ⟨rest, hrest, rfl⟩ := Option.map_eq_some_iff.1 h
    have hafter : (String.ofList rest).toList = rest := String.toList_ofList
    apply String.toList_injective
    rw [String.toList_append, hafter]
    exact Text.eq_append_of_after? hrest
  · rintro rfl
    rw [schemaPart?, String.toList_append, Option.map_eq_some_iff]
    refine ⟨part.toList, ?_, String.ofList_toList⟩
    exact Text.after?_append schemaFront part.toList

theorem get?_normalKeys (table : KeyTable) (key : String) :
    Assoc.get? key (normalKeys table) =
      if (schemaPart? key).isNone then Assoc.get? key table else none :=
  Assoc.get?_filter (fun key => (schemaPart? key).isNone) key table

theorem schemaKeys_cons (key : String) (value : Document) (rest : KeyTable) :
    schemaKeys ((key, value) :: rest) = match schemaPart? key with
      | some part => (part, value) :: schemaKeys rest
      | none => schemaKeys rest := by
  simp only [schemaKeys, List.filterMap_cons]
  cases schemaPart? key <;> rfl

/-- A key of the schema document is the key that it is named by in a source, without the prefix. -/
theorem get?_schemaKeys (table : KeyTable) (part : String) :
    Assoc.get? part (schemaKeys table) = Assoc.get? ("schema." ++ part) table := by
  induction table with
  | nil => rfl
  | cons e rest ih =>
    obtain ⟨key, value⟩ := e
    rw [schemaKeys_cons]
    cases hpart : schemaPart? key with
    | none =>
      have hkey : key ≠ "schema." ++ part := by
        intro heq
        rw [schemaPart?_eq_some_iff.2 heq] at hpart
        cases hpart
      simp [Assoc.get?, hkey, ih]
    | some found =>
      obtain rfl := schemaPart?_eq_some_iff.1 hpart
      simp [Assoc.get?, ih]

theorem flat_normalKeys {table : KeyTable} (h : table.Flat) : (normalKeys table).Flat :=
  fun e he => h e (List.mem_filter.1 he).1

theorem flat_schemaKeys {table : KeyTable} (h : table.Flat) : (schemaKeys table).Flat := by
  intro e he
  obtain ⟨key, hmem, -⟩ := mem_schemaKeys he
  exact h (key, e.2) hmem

end KeyTable

end ThemeLocales
