import ThemeLocales.Yaml.Merge
import ThemeLocales.Yaml.Numeral
import ThemeLocales.Yaml.Value

/-!
# Loading a YAML document

A reader tells what the bytes of a document hold, or why they hold nothing; it may make any values
of them. The one that is built here makes null, truth values, numbers, texts, lists and maps.

A document is built from its root on. A scalar has its value at once; a collection is there at
once and is filled later, after all collections that were met before it. So of two scalars without a
meaning the one that is met first counts, which need not be the one that stands first.
-/

set_option autoImplicit false

namespace ThemeLocales.Yaml

/-- What a document holds: its root, null when there is none, and what is inside its
collections. -/
structure Loaded where
  root : Value
  store : Store
  deriving Repr, Inhabited

/-- A reader of documents. -/
abbrev Reader := ByteArray → Except Error Loaded

namespace Building

/-- What fills a collection. -/
inductive Filling
  | items
  | entries
  | pairs
  deriving DecidableEq, Repr

/-- A document while it is built: its nodes, the values that some of them have, what is inside
collections, and those that wait to be filled, the last one first. -/
structure State where
  graph : Graph
  values : Array (Option Value)
  store : Store
  waiting : List (Filling × NodeId) := []

/-- A step of building. -/
abbrev Builder := StateT State (Except Error)

/-- An error of a document that was read and has no value. -/
def meaningless {α : Type} (problem : String) : Builder α :=
  throw (.malformed problem 0 0)

/-! ## Scalars -/

/-- The text of a scalar. A mapping has the text of its default value. -/
def scalarText : Nat → NodeId → Builder String
  | 0, _ => meaningless "the document is too deep"
  | fuel + 1, id => do
    let g := (← get).graph
    match g.contentOf id with
    | .scalar text => return text
    | .sequence _ => meaningless "expected a scalar node, but found sequence"
    | .mapping entries =>
      match entries.find? fun (key, _) => g.tagOf key = .default with
      | some (_, value) => scalarText fuel value
      | none => meaningless "expected a scalar node, but found mapping"

/-- The truth value that a word names. -/
def truth (text : String) : Except Error Value :=
  let word := text.map Number.asciiLower
  if Tag.trueWords.contains word then .ok (.bool true)
  else if Tag.falseWords.contains word then .ok (.bool false)
  else .error (.unknownWord word)

/-- The value of a scalar by its tag. -/
def scalarValue (id : NodeId) (tag : Tag) (text : String) : Except Error Value :=
  match tag with
  | .null => .ok .null
  | .bool => truth text
  | .int => (Numeral.integer text).map .int
  | .real => (Numeral.real text).map fun x => x.elim (.notNumber none) (.ofDouble id)
  | .string => .ok (.string text)
  | _ => .error (.malformed "could not determine a constructor for the tag" 0 0)

/-! ## Values of nodes -/

/-- Puts a collection among those that wait to be filled. -/
def await (filling : Filling) (id : NodeId) : Builder Unit :=
  modify fun s => { s with waiting := (filling, id) :: s.waiting }

/-- The new value of a node. -/
def make (id : NodeId) : Builder Value := do
  let g := (← get).graph
  match g.tagOf id with
  | .sequence =>
    await .items id
    return .list id
  | .pairs =>
    await .pairs id
    return .list id
  | .mapping =>
    await .entries id
    return .map id
  | .merge | .default | .other _ =>
    meaningless "could not determine a constructor for the tag"
  | tag => do
    let text ← scalarText (g.size + 1) id
    scalarValue id tag text

/-- The value of a node; it is made only once. -/
def valueOf (id : NodeId) : Builder Value := do
  match ((← get).values[id]?).join with
  | some v => return v
  | none =>
    let v ← make id
    modify fun s => { s with values := s.values.modify id fun _ => some v }
    return v

/-! ## Collections -/

/-- Puts something inside a collection. -/
def store (id : NodeId) (content : Collection) : Builder Unit :=
  modify fun s => { s with store := s.store.modify id fun _ => content }

/-- The items of a list. -/
def fillItems (id : NodeId) : Builder Unit := do
  match (← get).graph.contentOf id with
  | .sequence items => store id (.list (← items.mapM valueOf))
  | _ => meaningless "expected a sequence node"

/-- Resolves the merges of a mapping. -/
def flatten (id : NodeId) : Builder Unit := do
  let s ← get
  let ((), graph) ← (Merge.flatten id).run s.graph
  set { s with graph }

/-- The value of a key. -/
def keyOf (id : NodeId) : Builder Value := do
  let key ← valueOf id
  if key.isKey then return key else meaningless "found unhashable key"

/-- The entries of a map. The last value of a key counts. -/
def fillEntries (id : NodeId) : Builder Unit := do
  match (← get).graph.contentOf id with
  | .mapping _ =>
    flatten id
    let entries ← ((← get).graph.entriesOf id).mapM fun (key, value) => do
      let key ← keyOf key
      return (key, ← valueOf value)
    store id (.map (entries.foldl (fun es (key, value) => Value.setKey key value es) []))
  | _ => meaningless "expected a mapping node"

/-- The pair that a mapping of one entry is. -/
def pairOf (id : NodeId) : Builder Value := do
  match (← get).graph.contentOf id with
  | .mapping [(key, value)] =>
    let key ← valueOf key
    return .pair key (← valueOf value)
  | .mapping _ => meaningless "expected a single mapping item"
  | _ => meaningless "expected a mapping of length 1"

/-- The pairs of a list of mappings. -/
def fillPairs (id : NodeId) : Builder Unit := do
  match (← get).graph.contentOf id with
  | .sequence items => store id (.list (← items.mapM pairOf))
  | _ => meaningless "expected a sequence"

/-- Fills a collection. -/
def fill (filling : Filling) (id : NodeId) : Builder Unit :=
  match filling with
  | .items => fillItems id
  | .entries => fillEntries id
  | .pairs => fillPairs id

/-- Fills the collections that wait, then those that were met on the way, and so on. A collection
waits only once, which bounds the number of rounds. -/
def fillAll : Nat → Builder Unit
  | 0 => return ()
  | fuel + 1 => do
    let waiting := (← get).waiting
    if waiting.isEmpty then return ()
    modify fun s => { s with waiting := [] }
    waiting.reverse.forM fun (filling, id) => fill filling id
    fillAll fuel

/-- Builds a document from its root. -/
def build (root : NodeId) : Builder Value := do
  let v ← valueOf root
  fillAll ((← get).graph.size + 1)
  return v

end Building

/-- What a text holds. -/
def load (text : String) : Except Error Loaded := do
  let (root, graph) ← compose text.toList
  match root with
  | none => return { root := .null, store := #[] }
  | some id =>
    let start : Building.State :=
      { graph
        values := Array.replicate graph.size none
        store := Array.replicate graph.size (.list []) }
    let (v, s) ← (Building.build id).run start
    return { root := v, store := s.store }

/-- The reader that is used unless another one is named. -/
def read : Reader := fun bytes =>
  match Text.readText bytes with
  | .ok text => load text
  | .error e => .error (.failed (.undecodable e))

end ThemeLocales.Yaml
