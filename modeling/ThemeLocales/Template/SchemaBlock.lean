import ThemeLocales.Json.Reader
import ThemeLocales.Template.KeyScan

/-!
# Schema blocks of a template

A schema block is a strict JSON document between a `schema` tag and the next `endschema` tag. The
strings in it that begin with the marker `t:` name keys. A block that is no strict JSON names none
and leaves the others alone. A string may have a surrogate that stands alone, and then so has its
key: such keys are in the table of the blocks and apart from the keys that are strings.
-/

set_option autoImplicit false

namespace ThemeLocales.Template

open Text

/-- What follows a tag with a given word at the front of a text. -/
def tagAt? (word : List Char) (cs : List Char) : Option (List Char) := do
  let inside ← after? ['{', '%'] cs
  let behind ← after? word (trimStart inside)
  after? ['%', '}'] (trimStart behind)

/-- What comes before the first tag with a given word, and what comes after it. -/
def cutAtTag? (word : List Char) : List Char → Option (List Char × List Char)
  | [] => none
  | c :: cs =>
    match tagAt? word (c :: cs) with
    | some rest => some ([], rest)
    | none => (cutAtTag? word cs).map fun (before, rest) => (c :: before, rest)

theorem length_lt_of_tagAt? {word cs rest : List Char} (h : tagAt? word cs = some rest) :
    rest.length < cs.length := by
  simp only [tagAt?, Option.bind_eq_bind, Option.bind_eq_some_iff] at h
  obtain ⟨a, ha, b, hb, hr⟩ := h
  have h₁ := length_trimStart_le a
  have h₂ := length_trimStart_le b
  have ha' := congrArg List.length (eq_append_of_after? ha)
  have hb' := congrArg List.length (eq_append_of_after? hb)
  have hr' := congrArg List.length (eq_append_of_after? hr)
  simp only [List.length_append, List.length_cons, List.length_nil] at ha' hb' hr'
  omega

theorem length_lt_of_cutAtTag? {word cs before rest : List Char}
    (h : cutAtTag? word cs = some (before, rest)) : rest.length < cs.length := by
  induction cs generalizing before with
  | nil => simp [cutAtTag?] at h
  | cons c cs ih =>
    simp only [cutAtTag?] at h
    split at h
    · next ht =>
      simp only [Option.some.injEq, Prod.mk.injEq] at h
      rw [← h.2]
      exact length_lt_of_tagAt? ht
    · simp only [Option.map_eq_some_iff, Prod.mk.injEq, Prod.exists] at h
      obtain ⟨b, r, hbr, -, rfl⟩ := h
      have := ih hbr
      simp only [List.length_cons]
      omega

/-- The bodies of the schema blocks, from left to right. -/
def schemaBodies (cs : List Char) : List (List Char) :=
  match _h : cutAtTag? "schema".toList cs with
  | none => []
  | some (_, inside) =>
    match _h' : cutAtTag? "endschema".toList inside with
    | none => []
    | some (body, rest) => body :: schemaBodies rest
termination_by cs.length
decreasing_by
  have h₁ := length_lt_of_cutAtTag? _h
  have h₂ := length_lt_of_cutAtTag? _h'
  omega

/-- What marks a key. -/
def marker : Points :=
  points "t:"

/-- The key that a text marks: what follows the marker, when that is not empty. -/
def markedKey? (s : Points) : Option Points :=
  match marker.isPrefixOf? s with
  | some (c :: cs) => some (c :: cs)
  | _ => none

mutual

/-- The keys that the strings of a document mark, in document order. -/
def markedKeys : Document Points → List Points
  | .string s => (markedKey? s).toList
  | .list ds => markedKeysOfItems ds
  | .map es => markedKeysOfEntries es
  | _ => []

/-- The keys that the strings of items mark. -/
def markedKeysOfItems : List (Document Points) → List Points
  | [] => []
  | d :: ds => markedKeys d ++ markedKeysOfItems ds

/-- The keys that the strings of values mark. -/
def markedKeysOfEntries : List (Points × Document Points) → List Points
  | [] => []
  | (_, d) :: es => markedKeys d ++ markedKeysOfEntries es

end

/-- The schema blocks of a template, each read as strict JSON. -/
def schemaBlocks (text : String) : List (Except Json.Error (Document Points)) :=
  (schemaBodies text.toList).map (Json.parseChars true)

/-- The keys that one schema block marks. -/
def blockKeys : Except Json.Error (Document Points) → List Points
  | .ok d => markedKeys d
  | .error _ => []

/-- The keys that the schema blocks of a template mark, with empty defaults. -/
def schemaTable (text : String) : List (Points × Document) :=
  ((schemaBlocks text).flatMap blockKeys).foldl
    (fun table key => Assoc.set key (.string "") table) []

/-- Those of the keys that are strings. -/
def scanSchemaKeys (text : String) : KeyTable :=
  ((schemaTable text).filter fun entry => isPaired entry.1).map fun entry =>
    (ofPoints entry.1, entry.2)

/-- Those of the keys in which a surrogate stands alone. -/
def unpairedKeys (text : String) : List Points :=
  (Assoc.keys (schemaTable text)).filter fun key => !isPaired key

/-- How many schema blocks of a template are no strict JSON. -/
def skippedBlocks (text : String) : Nat :=
  (schemaBlocks text).countP fun
    | .ok _ => false
    | .error _ => true

end ThemeLocales.Template
