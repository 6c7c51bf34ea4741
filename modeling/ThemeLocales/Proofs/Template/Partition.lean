import ThemeLocales.Proofs.Assoc
import ThemeLocales.Proofs.Template.Concatenation
import ThemeLocales.Proofs.Template.Default

/-!
# The two documents of one source

The keys of a source are those of its templates and, behind them, those of its schema blocks that no
template has. A merge of documents is what adds the two tables up, but a schema block brings nothing
except the empty text, so the merge comes down to an append (`ofContent_eq_extended`): a default of
a template stays as it is, zero and the empty text included.

The keys are then split by their prefix. Where the prefix is put back, the two documents have the
entries of the source again, in another order (`perm_rejoined`), because no key is in both and no
two keys of the schema document come from one key. `rejoined_ofContent` says what this means for
every key and for the order of the keys.
-/

set_option autoImplicit false

namespace ThemeLocales

/-! ## Tables with empty defaults -/

/-- A default stays when what comes up against it is missing or empty. -/
theorem Document.IsDefault.settle_blank {u d : Document} (hd : d.IsDefault)
    (hu : u = .null ∨ u = .string "") : Document.settle .preserve u d = d := by
  cases d with
  | int n => exact Document.settle_of_stays _ _ (Or.inl rfl)
  | real x => exact Document.settle_of_stays _ _ (Or.inl rfl)
  | string s =>
    by_cases hs : s = ""
    · -- the empty text gives place, but there is only another empty text to take it
      subst hs
      rw [Document.settle_empty]
      rcases hu with rfl | rfl <;> rfl
    · apply Document.settle_of_stays
      right
      simpa [Document.isContent] using hs
  | null => exact hd.elim
  | bool b => exact hd.elim
  | list ds => exact hd.elim
  | map es => exact hd.elim

namespace KeyTable

/-- All values of a table are empty texts. -/
def Blank (table : KeyTable) : Prop :=
  ∀ e ∈ table, e.2 = .string ""

theorem Blank.flat {table : KeyTable} (h : table.Blank) : table.Flat := by
  intro e he
  rw [h e he]
  trivial

theorem Blank.orNull_get? {table : KeyTable} (h : table.Blank) (key : String) :
    Document.orNull (Assoc.get? key table) = .null ∨
      Document.orNull (Assoc.get? key table) = .string "" := by
  cases hkey : Assoc.get? key table with
  | none => exact Or.inl rfl
  | some value => exact Or.inr (h _ (Assoc.mem_of_get? hkey))

theorem blank_scanSchemaKeys (text : String) : KeyTable.Blank (Template.scanSchemaKeys text) :=
  fun _ he => Template.default_of_mem_scanSchemaKeys he

/-- Empty defaults change no default, and their keys follow where they are new. -/
theorem add_blank {table more : KeyTable} (h : table.Flat) (hmore : more.Blank) :
    add table more = Template.extended table more := by
  -- an entry that is there meets nothing, or an empty text
  have hold : table.map (fun e =>
      (e.1, Document.settle .preserve (Document.orNull (Assoc.get? e.1 more)) e.2)) =
        table.map id := by
    apply List.map_congr_left
    intro e he
    rw [(h e he).settle_blank (hmore.orNull_get? e.1)]
    rfl
  -- a new entry meets null, which is no content
  have hnew : (more.filter fun e => !Assoc.contains e.1 table).map
      (fun e => (e.1, Document.settle .preserve e.2 .null)) =
        (more.filter fun e => !Assoc.contains e.1 table).map id := by
    apply List.map_congr_left
    intro e he
    have hempty : e.2 = .string "" := hmore e (List.mem_filter.1 he).1
    have hvalue : Document.settle .preserve e.2 .null = e.2 := by
      rw [hempty]
      rfl
    rw [hvalue]
    rfl
  rw [add_eq_append table hmore.flat, hold, hnew, List.map_id, List.map_id, Template.extended]

/-- The keys of a source are those of its templates and, behind them, the new ones of its schema
blocks. -/
theorem ofContent_eq_extended (text : String) :
    ofContent text =
      Template.extended (Template.scanKeys text) (Template.scanSchemaKeys text) :=
  add_blank (Template.flat_scanKeys text) (blank_scanSchemaKeys text)

/-- The table in front decides for its keys. -/
theorem get?_extended (table more : KeyTable) (key : String) :
    Assoc.get? key (Template.extended table more) =
      (Assoc.get? key table).or (Assoc.get? key more) := by
  have hfilter := Assoc.get?_filter (fun key => !Assoc.contains key table) key more
  rw [Template.extended, Assoc.get?_append, hfilter]
  cases hkey : Assoc.get? key table with
  | none =>
    have hcontains : Assoc.contains key table = false := by
      rw [Assoc.contains, hkey]
      rfl
    rw [hcontains]
    rfl
  | some value => rfl

/-! ## The prefix, taken away and put back -/

/-- The entries with the prefix of the schema document in front of their keys. -/
def prefixed (table : KeyTable) : KeyTable :=
  table.map fun e => ("schema." ++ e.1, e.2)

/-- The two documents of a table as one table again: the keys of the normal document, and behind
them those of the schema document with their prefix. -/
def rejoined (table : KeyTable) : KeyTable :=
  normalKeys table ++ prefixed (schemaKeys table)

/-- What the schema document has, with its prefix, is what the table has under the prefix. -/
theorem prefixed_schemaKeys (table : KeyTable) :
    prefixed (schemaKeys table) = table.filter fun e => (schemaPart? e.1).isSome := by
  induction table with
  | nil => rfl
  | cons e rest ih =>
    obtain ⟨key, value⟩ := e
    rw [schemaKeys_cons, List.filter_cons]
    cases hpart : schemaPart? key with
    | none => exact ih
    | some part =>
      obtain rfl := schemaPart?_eq_some_iff.1 hpart
      exact congrArg (("schema." ++ part, value) :: ·) ih

/-- Splitting a table loses no entry, doubles none and changes none. -/
theorem perm_rejoined (table : KeyTable) : (rejoined table).Perm table := by
  have hsome : ∀ e : String × Document,
      (schemaPart? e.1).isSome = !(schemaPart? e.1).isNone := by
    intro e
    cases schemaPart? e.1 <;> rfl
  rw [rejoined, prefixed_schemaKeys, List.filter_congr fun e _ => hsome e]
  exact List.filter_append_perm (fun e : String × Document => (schemaPart? e.1).isNone) table

-- The bare prefix and a prefix that is repeated name keys of the schema document as well.
example : schemaKeys [("schema.", .int 0), ("a", .string "x"), ("schema.schema.a", .string "y")] =
    [("", .int 0), ("schema.a", .string "y")] := by cbv

theorem isSome_schemaPart? (key : String) :
    (schemaPart? key).isSome = Text.beginsWith "schema." key :=
  Option.isSome_map

/-- The normal document has the keys without the prefix, in their order. -/
theorem keys_normalKeys (table : KeyTable) :
    Assoc.keys (normalKeys table) =
      (Assoc.keys table).filter fun key => !Text.beginsWith "schema." key := by
  have hnone : (fun key => (schemaPart? key).isNone) =
      fun key => !Text.beginsWith "schema." key := by
    funext key
    rw [← isSome_schemaPart?, Option.not_isSome]
  rw [Assoc.keys, Assoc.keys, ← hnone, List.filter_map]
  rfl

/-- The schema document has the keys with the prefix, in their order. -/
theorem keys_schemaKeys (table : KeyTable) :
    (Assoc.keys (schemaKeys table)).map ("schema." ++ ·) =
      (Assoc.keys table).filter (Text.beginsWith "schema.") := by
  have hkeys : (Assoc.keys (schemaKeys table)).map ("schema." ++ ·) =
      Assoc.keys (prefixed (schemaKeys table)) := by
    rw [Assoc.keys, Assoc.keys, prefixed, List.map_map, List.map_map]
    rfl
  have hsome : (fun key => (schemaPart? key).isSome) = Text.beginsWith "schema." :=
    funext isSome_schemaPart?
  rw [hkeys, prefixed_schemaKeys, Assoc.keys, Assoc.keys, ← hsome, List.filter_map]
  rfl

/-! ## The documents of a source -/

/-- The keys of two tables in the order in which a source has them: those of the first table, and
behind them those that only the second has. -/
def keyOrder (table more : KeyTable) : List String :=
  Assoc.keys table ++ (Assoc.keys more).filter fun key => key ∉ Assoc.keys table

/-- The two documents of a source, joined again under the prefix, repeat no key and have exactly the
keys of its templates and of its schema blocks. A key has the default that a template gives it, or
else the empty text, and each document keeps the order of the source. -/
theorem rejoined_ofContent (text : String) :
    (Assoc.keys (rejoined (ofContent text))).Nodup ∧
      (∀ key, key ∈ Assoc.keys (rejoined (ofContent text)) ↔
        key ∈ Assoc.keys (Template.scanKeys text) ∨
          key ∈ Assoc.keys (Template.scanSchemaKeys text)) ∧
      (∀ key ∈ Assoc.keys (Template.scanKeys text),
        Assoc.get? key (rejoined (ofContent text)) = Assoc.get? key (Template.scanKeys text)) ∧
      (∀ key ∈ Assoc.keys (Template.scanSchemaKeys text),
        key ∉ Assoc.keys (Template.scanKeys text) →
          Assoc.get? key (rejoined (ofContent text)) = some (.string "")) ∧
      Assoc.keys (normalKeys (ofContent text)) =
        (keyOrder (Template.scanKeys text) (Template.scanSchemaKeys text)).filter
          (fun key => !Text.beginsWith "schema." key) ∧
      (Assoc.keys (schemaKeys (ofContent text))).map ("schema." ++ ·) =
        (keyOrder (Template.scanKeys text) (Template.scanSchemaKeys text)).filter
          (Text.beginsWith "schema.") := by
  have hperm := perm_rejoined (ofContent text)
  have horder : Assoc.keys (ofContent text) =
      keyOrder (Template.scanKeys text) (Template.scanSchemaKeys text) :=
    Document.keys_merge_map .preserve (.map (Template.scanKeys text)) _
  have hnodup : (Assoc.keys (rejoined (ofContent text))).Nodup :=
    (hperm.map Prod.fst).nodup_iff.2 (Document.sound_map_iff.1 (sound_ofContent text)).1
  have hget : ∀ key, Assoc.get? key (rejoined (ofContent text)) =
      (Assoc.get? key (Template.scanKeys text)).or
        (Assoc.get? key (Template.scanSchemaKeys text)) := by
    intro key
    rw [Assoc.get?_of_perm hnodup hperm, ofContent_eq_extended, get?_extended]
  refine ⟨hnodup, ?_, ?_, ?_, ?_, ?_⟩
  · -- the split neither adds a key nor takes one away, so this is about the keys of the source
    intro key
    have hkeys : key ∈ Assoc.keys (rejoined (ofContent text)) ↔
        key ∈ Assoc.keys (ofContent text) := (hperm.map Prod.fst).mem_iff
    rw [hkeys, ofContent_eq_extended]
    exact Template.mem_keys_extended
  · -- a template decides, whatever its default is
    intro key hkey
    obtain ⟨value, hvalue⟩ := Option.isSome_iff_exists.1 (Assoc.contains_iff.2 hkey)
    rw [hget, hvalue]
    rfl
  · -- only a schema block has the key, and it has no default but the empty text
    intro key hmore hkey
    obtain ⟨value, hvalue⟩ := Option.isSome_iff_exists.1 (Assoc.contains_iff.2 hmore)
    have hempty : value = .string "" := blank_scanSchemaKeys text _ (Assoc.mem_of_get? hvalue)
    rw [hget, Assoc.get?_eq_none_iff.2 hkey, Option.none_or, hvalue, hempty]
  · rw [keys_normalKeys, horder]
  · rw [keys_schemaKeys, horder]

end KeyTable

end ThemeLocales
