import ThemeLocales.Yaml.Node

/-!
# Merge keys

An entry whose key asks for a merge stands for the entries of its value, a mapping or a list of
mappings. Merging changes a graph in place: the entry goes away, and the entries that it brings come
first in the mapping, so that the mapping's own entries count. A mapping may be merged into itself;
every merge removes an entry that asks for one, which bounds the recursion.
-/

set_option autoImplicit false

namespace ThemeLocales.Yaml.Merge

/-- A step that changes a graph. -/
abbrev Editing := StateT Graph (Except Error)

/-- An entry of a mapping. -/
abbrev Entry := NodeId × NodeId

/-- An error of a document that was read and has no value. -/
def meaningless {α : Type} (problem : String) : Editing α :=
  throw (.malformed problem 0 0)

/-- The value of the first entry that asks for a merge, and the other entries. -/
def splitMerge? (g : Graph) : List Entry → Option (NodeId × List Entry)
  | [] => none
  | (key, value) :: rest =>
    if g.tagOf key = .merge then some (value, rest)
    else (splitMerge? g rest).map fun (found, others) => (found, (key, value) :: others)

/-- Takes the first entry that asks for a merge out of a mapping; its value. -/
def takeMerge? (id : NodeId) : Editing (Option NodeId) := do
  let g ← get
  match splitMerge? g (g.entriesOf id) with
  | none => return none
  | some (value, others) =>
    set (g.setContent id (.mapping others))
    return some value

/-- Makes a text of each key that is the mark for a default value. -/
def retagDefaults (id : NodeId) : Editing Unit :=
  modify fun g =>
    (g.entriesOf id).foldl (fun g (key, _) =>
      if g.tagOf key = .default then g.setTag key .string else g) g

/-- Puts entries in front of those of a mapping. -/
def prepend (id : NodeId) (entries : List Entry) : Editing Unit :=
  modify fun g => g.setContent id (.mapping (entries ++ g.entriesOf id))

/-- Resolves the merges of a mapping, given what earlier ones bring. -/
def flattenFrom : Nat → NodeId → List Entry → Editing Unit
  | 0, _, _ => meaningless "the document is too deep"
  | fuel + 1, id, brought => do
    match ← takeMerge? id with
    | none =>
      retagDefaults id
      prepend id brought
    | some value =>
      let flattened := fun (id : NodeId) => do
        match (← get).contentOf id with
        | .mapping _ =>
          flattenFrom fuel id []
          return (← get).entriesOf id
        | _ => meaningless "expected a mapping for merging"
      let more ← match (← get).contentOf value with
        | .mapping _ => flattened value
        | .sequence items => do pure (← items.mapM flattened).reverse.flatten
        | .scalar _ => meaningless "expected a mapping or list of mappings for merging"
      flattenFrom fuel id (brought ++ more)

/-- How many entries of a graph ask for a merge. -/
def count (g : Graph) : Nat :=
  g.foldl (fun n node =>
    match node.content with
    | .mapping entries => n + entries.countP fun (key, _) => g.tagOf key = .merge
    | _ => n) 0

/-- Resolves the merges of a mapping, if it asks for any. -/
def flatten (id : NodeId) : Editing Unit := do
  let g ← get
  if (splitMerge? g (g.entriesOf id)).isNone then retagDefaults id
  else flattenFrom (count g + 1) id []

end ThemeLocales.Yaml.Merge
