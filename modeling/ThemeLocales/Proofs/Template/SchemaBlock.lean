import ThemeLocales.Proofs.Document.Leaf
import ThemeLocales.Proofs.Document.Points
import ThemeLocales.Proofs.Json.Strict
import ThemeLocales.Proofs.Text.Search
import ThemeLocales.Template.SchemaBlock

/-!
# What schema blocks mark

A template of schema blocks is cut into its blocks (`schemaBodies_schemaTemplate`). Each of them is
read on its own, by the grammar of JSON or not at all, and the keys of the table are what the marked
texts of those that are read have behind the marker, in order of first occurrence
(`schemaTable_schemaTemplate`). An integer with more digits than are converted makes a block
count as one that is not read (`schemaTable_longBlock`).
-/

set_option autoImplicit false

namespace ThemeLocales.Template

open Document Text

variable {cs front inside rest : List Char} {word : List Char}

/-! ## Blocks -/

/-- The tag before a block. -/
def openingTag : List Char :=
  "\x7b% schema %\x7d".toList

/-- The tag after a block. -/
def closingTag : List Char :=
  "\x7b% endschema %\x7d".toList

/-- A template of schema blocks: a filler, and then each block with a filler behind it. -/
def schemaTemplate (filler : List Char) (blocks : List (List Char × List Char)) : List Char :=
  filler ++ blocks.flatMap fun block => openingTag ++ block.1 ++ closingTag ++ block.2

theorem tagAt?_eq_none (h : ∀ inside, cs ≠ '{' :: '%' :: inside) : tagAt? word cs = none := by
  cases hafter : after? ['{', '%'] cs with
  | none => simp [tagAt?, hafter]
  | some inside => exact absurd (eq_append_of_after? hafter) (h inside)

/-- Where a brace and a percent sign never stand side by side, there is no tag. -/
theorem cutAtTag?_eq_none (h : Lacks '{' '%' cs) : cutAtTag? word cs = none := by
  induction cs with
  | nil => rfl
  | cons c cs ih =>
    have hnone : tagAt? word (c :: cs) = none :=
      tagAt?_eq_none fun inside heq => h (heq ▸ ⟨[], inside, rfl⟩)
    have hrest : Lacks '{' '%' cs := fun hpair => h (List.infix_cons hpair)
    rw [cutAtTag?, hnone, ih hrest]
    rfl

/-- A cut ends at the first tag. -/
theorem cutAtTag?_append (h : Lacks '{' '%' front)
    (htag : tagAt? word ('{' :: '%' :: inside) = some rest) :
    cutAtTag? word (front ++ '{' :: '%' :: inside) = some (front, rest) := by
  induction front with
  | nil => rw [List.nil_append, cutAtTag?, htag]
  | cons c front ih =>
    have hrest : Lacks '{' '%' front := fun hpair => h (List.infix_cons hpair)
    have hnone : tagAt? word (c :: (front ++ '{' :: '%' :: inside)) = none := by
      -- a tag that begins earlier would have its two signs side by side in the front
      refine tagAt?_eq_none fun behind heq => ?_
      cases front with
      | nil => simp at heq
      | cons d front =>
        obtain ⟨rfl, htail⟩ := List.cons.inj heq
        obtain ⟨rfl, -⟩ := List.cons.inj htail
        exact h ⟨[], front, rfl⟩
    rw [List.cons_append, cutAtTag?, hnone, ih hrest]
    rfl

theorem cutAtTag?_openingTag (h : Lacks '{' '%' front) (rest : List Char) :
    cutAtTag? "schema".toList (front ++ (openingTag ++ rest)) = some (front, rest) :=
  cutAtTag?_append h rfl

theorem cutAtTag?_closingTag (h : Lacks '{' '%' front) (rest : List Char) :
    cutAtTag? "endschema".toList (front ++ (closingTag ++ rest)) = some (front, rest) :=
  cutAtTag?_append h rfl

theorem schemaBodies_of_lacks (h : Lacks '{' '%' cs) : schemaBodies cs = [] := by
  rw [schemaBodies]
  split
  · rfl
  · next hcut =>
    rw [cutAtTag?_eq_none h] at hcut
    cases hcut

theorem schemaBodies_of_cut {body : List Char}
    (hopen : cutAtTag? "schema".toList cs = some (front, inside))
    (hclose : cutAtTag? "endschema".toList inside = some (body, rest)) :
    schemaBodies cs = body :: schemaBodies rest := by
  rw [schemaBodies]
  split
  · next hcut =>
    rw [hopen] at hcut
    cases hcut
  · next hcut =>
    rw [hopen] at hcut
    cases hcut
    split
    · next hcut' =>
      rw [hclose] at hcut'
      cases hcut'
    · next hcut' =>
      rw [hclose] at hcut'
      cases hcut'
      rfl

/-- A template is cut into its blocks. -/
theorem schemaBodies_schemaTemplate {filler : List Char} {blocks : List (List Char × List Char)}
    (hfiller : Lacks '{' '%' filler)
    (hblocks : ∀ block ∈ blocks, Lacks '{' '%' block.1 ∧ Lacks '{' '%' block.2) :
    schemaBodies (schemaTemplate filler blocks) = blocks.map Prod.fst := by
  induction blocks generalizing filler with
  | nil =>
    rw [schemaTemplate, List.flatMap_nil, List.append_nil, schemaBodies_of_lacks hfiller]
    rfl
  | cons block blocks ih =>
    obtain ⟨body, next⟩ := block
    obtain ⟨hbody, hnext⟩ := hblocks (body, next) List.mem_cons_self
    have hsplit : schemaTemplate filler ((body, next) :: blocks) =
        filler ++ (openingTag ++ (body ++ (closingTag ++ schemaTemplate next blocks))) := by
      simp [schemaTemplate]
    rw [hsplit, schemaBodies_of_cut (cutAtTag?_openingTag hfiller _) (cutAtTag?_closingTag hbody _),
      ih hnext fun block hblock => hblocks block (List.mem_cons_of_mem _ hblock), List.map_cons]

/-! ## Marked texts -/

/-- Whether a text has something behind the marker. -/
def isMarked (s : Points) : Bool :=
  marker.isPrefixOf s && s != marker

/-- A key is what a text has behind the marker, if that is not empty. -/
theorem markedKey?_eq_some_iff {s key : Points} :
    markedKey? s = some key ↔ key ≠ [] ∧ s = marker ++ key := by
  constructor
  · intro h
    unfold markedKey? at h
    split at h
    · next c behind hbehind =>
      cases h
      exact ⟨List.cons_ne_nil c behind, (List.isPrefixOf?_eq_some_iff_append_eq.1 hbehind).symm⟩
    · cases h
  · rintro ⟨hne, rfl⟩
    have hbehind : marker.isPrefixOf? (marker ++ key) = some key :=
      List.isPrefixOf?_eq_some_iff_append_eq.2 rfl
    obtain ⟨c, behind, rfl⟩ := List.exists_cons_of_ne_nil hne
    rw [markedKey?, hbehind]

theorem isMarked_iff {s : Points} : isMarked s = true ↔ ∃ key, markedKey? s = some key := by
  simp only [markedKey?_eq_some_iff, isMarked, Bool.and_eq_true, List.isPrefixOf_iff_prefix,
    bne_iff_ne, ne_eq]
  constructor
  · rintro ⟨⟨key, rfl⟩, hne⟩
    refine ⟨key, fun hempty => hne ?_, rfl⟩
    rw [hempty, List.append_nil]
  · rintro ⟨key, hne, rfl⟩
    exact ⟨List.prefix_append _ _, fun h => hne (List.append_right_eq_self.1 h)⟩

/-- The keys with the marker before them are the marked texts. -/
theorem map_filterMap_markedKey? (found : List Points) :
    (found.filterMap markedKey?).map (marker ++ ·) = found.filter isMarked := by
  induction found with
  | nil => rfl
  | cons s found ih =>
    cases hkey : markedKey? s with
    | some key =>
      rw [List.filterMap_cons_some hkey, List.map_cons, ih,
        List.filter_cons_of_pos (isMarked_iff.2 ⟨key, hkey⟩), (markedKey?_eq_some_iff.1 hkey).2]
    | none =>
      have hunmarked : ¬ isMarked s = true := by
        rw [isMarked_iff, hkey]
        simp
      rw [List.filterMap_cons_none hkey, ih, List.filter_cons_of_neg hunmarked]

theorem markedKeysOfItems_eq (ds : List (Document Points)) :
    markedKeysOfItems ds = ds.flatMap markedKeys := by
  induction ds with
  | nil => rfl
  | cons d ds ih => rw [markedKeysOfItems, ih, List.flatMap_cons]

theorem markedKeysOfEntries_eq (es : List (Points × Document Points)) :
    markedKeysOfEntries es = es.flatMap fun e => markedKeys e.2 := by
  induction es with
  | nil => rfl
  | cons e es ih => rw [markedKeysOfEntries, ih, List.flatMap_cons]

/-- The keys that a document marks come from its texts, in document order. -/
theorem markedKeys_eq (d : Document Points) : markedKeys d = (texts d).filterMap markedKey? := by
  induction d using structuralRec with
  | scalar d h =>
    rw [texts_scalar h]
    cases d with
    | string s => cases hkey : markedKey? s <;> simp [markedKeys, textOf?, hkey]
    | list => simp [kind] at h
    | map => simp [kind] at h
    | _ => rfl
  | list ds ih =>
    rw [markedKeys, markedKeysOfItems_eq, texts_list, List.filterMap_flatMap]
    exact List.flatMap_congr fun d hd => ih d hd
  | map es ih =>
    rw [markedKeys, markedKeysOfEntries_eq, texts_map, List.filterMap_flatMap]
    exact List.flatMap_congr fun e he => ih e he

/-! ## The table of a template -/

/-- The texts of a block, if it is read. -/
def contentTexts (content : Option (Document Points)) : List Points :=
  content.elim [] texts

theorem blockKeys_eq (block : Except Json.Error (Document Points)) :
    blockKeys block = (contentTexts block.toOption).filterMap markedKey? := by
  cases block with
  | ok d => exact markedKeys_eq d
  | error e => rfl

theorem schemaTable_eq (text : String) : schemaTable text = Assoc.ofEntries
    (((schemaBlocks text).flatMap blockKeys).map fun key => (key, .string "")) := by
  rw [schemaTable, Assoc.ofEntries, List.foldl_map]

theorem default_of_mem_schemaTable {text : String} {entry : Points × Document}
    (h : entry ∈ schemaTable text) : entry.2 = .string "" := by
  rw [schemaTable_eq] at h
  obtain ⟨key, -, rfl⟩ := List.mem_map.1 (Assoc.mem_of_mem_ofEntries h)
  rfl

/-- With the marker before them, the keys of blocks are the marked texts of those that are read,
each where it comes first. -/
theorem keys_schemaTable (text : String) :
    (Assoc.keys (schemaTable text)).map (marker ++ ·) =
      ((((schemaBlocks text).map Except.toOption).flatMap contentTexts).filter
        isMarked).eraseDups := by
  have hkeys : (schemaBlocks text).flatMap blockKeys =
      (((schemaBlocks text).map Except.toOption).flatMap contentTexts).filterMap markedKey? := by
    rw [List.flatMap_map, List.filterMap_flatMap]
    exact List.flatMap_congr fun block _ => blockKeys_eq block
  -- keys are told apart with the marker as well as without it
  have hmarker : Function.Injective (marker ++ ·) := fun key key' h => List.append_cancel_left h
  have hsame : (instBEqOfDecidableEq : BEq Points) = List.instBEq := lawful_beq_subsingleton _ _
  rw [schemaTable_eq, Assoc.keys_ofEntries, hkeys, List.map_map, ← Assoc.eraseDups_map hmarker,
    ← map_filterMap_markedKey?, List.map_map, hsame]
  rfl

/-- The keys of a template of schema blocks are what is behind the marker in the marked texts of the
blocks that the grammar of JSON has. -/
theorem schemaTable_schemaTemplate {filler : List Char} {blocks : List (List Char × List Char)}
    (hfiller : Lacks '{' '%' filler)
    (hblocks : ∀ block ∈ blocks, Lacks '{' '%' block.1 ∧ Lacks '{' '%' block.2) :
    ∃ contents : List (Option (Document Points)),
      List.Forall₂ (fun block content => ∀ d, content = some d ↔ Json.IsText Json.Fits block.1 d)
        blocks contents ∧
      (Assoc.keys (schemaTable (String.ofList (schemaTemplate filler blocks)))).map (marker ++ ·) =
        ((contents.flatMap contentTexts).filter isMarked).eraseDups ∧
      ∀ entry ∈ schemaTable (String.ofList (schemaTemplate filler blocks)),
        entry.2 = .string "" := by
  refine ⟨blocks.map fun block => (Json.parseChars true block.1).toOption, ?_, ?_,
    fun entry => default_of_mem_schemaTable⟩
  · rw [List.forall₂_map_right_iff, List.forall₂_same]
    intro block _ d
    rw [← Json.parseChars_eq_ok_iff]
    cases Json.parseChars true block.1 <;> simp [Except.toOption]
  · have hcontents : (schemaBlocks (String.ofList (schemaTemplate filler blocks))).map
        Except.toOption = blocks.map fun block => (Json.parseChars true block.1).toOption := by
      rw [schemaBlocks, String.toList_ofList, schemaBodies_schemaTemplate hfiller hblocks,
        List.map_map, List.map_map]
      rfl
    rw [keys_schemaTable, hcontents]

/-- Two blocks. The first one has a marked text under a marked key and two under keys that are
surrogates; the second one is no JSON of the standard. -/
def blockPair : List (List Char × List Char) :=
  [("\x7b\"t:k\": \"t:a\", \"\\ud800\": \"t:x\", \"\\ud801\": \"t:y\"\x7d".toList, []),
    ("[\"t:b\", NaN]".toList, [' '])]

/-- The texts of the first block are all in the table, and its marked key is not. -/
theorem schemaTable_schemaTemplate_pair : Lacks '{' '%' [] ∧
    (∀ block ∈ blockPair, Lacks '{' '%' block.1 ∧ Lacks '{' '%' block.2) ∧
      (Assoc.keys (schemaTable (String.ofList (schemaTemplate [] blockPair)))).map (marker ++ ·) =
        ["t:a", "t:x", "t:y"].map points ∧
      ∀ entry ∈ schemaTable (String.ofList (schemaTemplate [] blockPair)),
        entry.2 = .string "" := by
  have hblocks : ∀ block ∈ blockPair, Lacks '{' '%' block.1 ∧ Lacks '{' '%' block.2 := by
    decide +kernel
  have hread : (blockPair.map fun block => (Json.parseChars true block.1).toOption) =
      [some (.map [(points "t:k", .string (points "t:a")), ([0xD800], .string (points "t:x")),
        ([0xD801], .string (points "t:y"))]), none] := by
    cbv
  obtain ⟨contents, hcontents, hkeys, hdefaults⟩ :=
    schemaTable_schemaTemplate (by decide : Lacks '{' '%' []) hblocks
  have heq : contents = blockPair.map fun block => (Json.parseChars true block.1).toOption := by
    rw [← List.forall₂_eq_eq_eq, List.forall₂_map_right_iff]
    refine hcontents.flip.imp fun content block hcontent => Option.ext fun d => ?_
    rw [hcontent, ← Json.parseChars_eq_ok_iff]
    cases Json.parseChars true block.1 <;> simp [Except.toOption]
  rw [hkeys, heq, hread]
  exact ⟨by decide, hblocks, by decide, hdefaults⟩

/-! ## Integers that are too long -/

/-- A list of a marked text and an integer of ones. -/
def longBlock (digits : ℕ) : List Char :=
  '[' :: '"' :: 't' :: ':' :: 'a' :: '"' :: ',' :: (List.replicate digits '1' ++ [']'])

theorem isWhole_ones (n : ℕ) : Numeral.IsWhole (List.replicate (n + 1) '1') := by
  refine Or.inr ⟨'1', List.replicate n '1', List.replicate_succ, by decide, fun d hd => ?_⟩
  rw [(List.mem_replicate.1 hd).2]
  decide

theorem quoted_longBlock (rest : List Char) :
    Json.Quoted ('t' :: ':' :: 'a' :: '"' :: rest) (points "t:a") rest :=
  .plain (by decide) (by decide) (by decide) <| .plain (by decide) (by decide) (by decide) <|
    .plain (by decide) (by decide) (by decide) <| .close rest

/-- The standard has such a list, however many digits there are. -/
theorem isText_longBlock (n : ℕ) : Json.IsText (fun _ => True) (longBlock (n + 1))
    (.list [.string (points "t:a"), .int (digitsValue (List.replicate (n + 1) '1'))]) := by
  have hnone : Json.Gap [] := by simp [Json.Gap]
  have hnumber : Json.NumberText (fun _ => True) (List.replicate (n + 1) '1')
      (.int (digitsValue (List.replicate (n + 1) '1'))) := .integer false (isWhole_ones n) trivial
  have hlast : Json.Spells (fun _ => True) ([] ++ (List.replicate (n + 1) '1' ++ [']']))
      (.items [.int (digitsValue (List.replicate (n + 1) '1'))]) [] :=
    .lastItem hnone hnone (.number hnumber [']'])
  have hitems : Json.Spells (fun _ => True)
      ([] ++ '"' :: 't' :: ':' :: 'a' :: '"' :: ',' :: (List.replicate (n + 1) '1' ++ [']']))
      (.items [.string (points "t:a"), .int (digitsValue (List.replicate (n + 1) '1'))]) [] :=
    .item hnone hnone (.text (quoted_longBlock _)) hlast
  exact ⟨[], _, [], hnone, hnone, rfl, .list hitems⟩

/-- With more digits than are converted, it is not read. -/
theorem parseChars_longBlock_ne {n : ℕ} (h : Number.longestInteger < n + 1) (d : Document Points) :
    Json.parseChars true (longBlock (n + 1)) ≠ .ok d := by
  rw [ne_eq, Json.parseChars_eq_ok_iff, ← Json.run_start_eq_ok_iff []]
  have hstops : Json.Stops [']'] := Json.stops_cons rfl []
  have hnumber := Json.unsignedNumber?_integer false (isWhole_ones n) hstops
  have hlong : Json.integerToken false (List.replicate (n + 1) '1') = .longInteger (n + 1) := by
    rw [Json.integerToken, List.length_replicate, if_pos h]
  rw [hlong] at hnumber
  have hnext := Json.next_signed false (isWhole_ones n) hnumber
  -- the reader takes the bracket, the text and the comma, and it refuses the number
  rw [longBlock, Json.run_of_next (Json.next_of_punctuation rfl rfl _) rfl,
    Json.run_of_next (Json.next_quoted (quoted_longBlock _)) rfl,
    Json.run_of_next (Json.next_of_punctuation rfl rfl _) rfl]
  intro hrun
  change Json.next (List.replicate (n + 1) '1' ++ [']']) = _ at hnext
  rw [Json.lexemes_of_next hnext] at hrun
  rcases Json.run_cons_eq_ok hrun with ⟨hfinish, -⟩ | ⟨m, hstep, -⟩
  · cases hfinish
  · cases hstep

theorem lacks_longBlock (n : ℕ) : Lacks '{' '%' (longBlock n) :=
  lacks_of_not_mem (Or.inl (by simp [longBlock]))

theorem schemaTable_of_long {n : ℕ} (h : Number.longestInteger < n + 1) :
    schemaTable (String.ofList (schemaTemplate [] [(longBlock (n + 1), [])])) = [] := by
  have hempty : Lacks '{' '%' [] := by decide
  rw [schemaTable_eq, schemaBlocks, String.toList_ofList, schemaBodies_schemaTemplate hempty
    (List.forall_mem_singleton.2 ⟨lacks_longBlock (n + 1), hempty⟩)]
  cases hparse : Json.parseChars true (longBlock (n + 1)) with
  | ok d => exact absurd hparse (parseChars_longBlock_ne h d)
  | error e => simp [hparse, blockKeys, Assoc.ofEntries]

/-- So a block of the standard may mark a key that the table does not have. -/
theorem schemaTable_longBlock :
    (∃ d, Json.IsText (fun _ => True) (longBlock 4301) d ∧ points "t:a" ∈ texts d) ∧
      Lacks '{' '%' (longBlock 4301) ∧
        schemaTable (String.ofList (schemaTemplate [] [(longBlock 4301, [])])) = [] := by
  refine ⟨⟨_, isText_longBlock 4300, ?_⟩, lacks_longBlock 4301, schemaTable_of_long (by decide)⟩
  rw [texts_list]
  exact List.mem_cons_self

/-! ## Keys that are strings -/

theorem keys_scanSchemaKeys (text : String) : Assoc.keys (scanSchemaKeys text) =
    ((Assoc.keys (schemaTable text)).filter Text.isPaired).map ofPoints := by
  rw [Assoc.keys, scanSchemaKeys, Assoc.keys, List.filter_map, List.map_map, List.map_map]
  rfl

theorem nodup_keys_scanSchemaKeys (text : String) : (Assoc.keys (scanSchemaKeys text)).Nodup := by
  rw [keys_scanSchemaKeys, schemaTable_eq]
  exact nodup_ofPoints (Assoc.nodup_keys_ofEntries _)

/-- A schema block gives every key the empty default. -/
theorem default_of_mem_scanSchemaKeys {text : String} {entry : String × Document}
    (h : entry ∈ scanSchemaKeys text) : entry.2 = .string "" := by
  obtain ⟨marked, hmarked, rfl⟩ := List.mem_map.1 h
  exact default_of_mem_schemaTable (List.mem_filter.1 hmarked).1

end ThemeLocales.Template
