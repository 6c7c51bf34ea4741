import ThemeLocales.Assoc
import ThemeLocales.Yaml.Tag
import ThemeLocales.Yaml.Token

/-!
# Nodes of a YAML document

The tokens of a text form at most one document, which is a node: a scalar, a sequence or a mapping,
each with a tag. An alias stands for the node of its anchor, which may still be open: nodes form a
graph, in which they refer to each other by number. Calls nest at most as deep as there are tokens,
which bounds the recursion.
-/

set_option autoImplicit false

namespace ThemeLocales.Yaml

/-- The number of a node. -/
abbrev NodeId := Nat

/-- What a node holds. -/
inductive Content
  | scalar (text : String)
  | sequence (items : List NodeId)
  | mapping (entries : List (NodeId × NodeId))
  deriving DecidableEq, Repr

/-- A node. -/
structure Node where
  tag : Tag
  content : Content
  deriving DecidableEq, Repr

/-- Nodes by their numbers. -/
abbrev Graph := Array Node

namespace Graph

/-- The node with a number. -/
def node (g : Graph) (id : NodeId) : Node :=
  g[id]?.getD ⟨.null, .scalar ""⟩

/-- The tag of a node. -/
def tagOf (g : Graph) (id : NodeId) : Tag := (g.node id).tag

/-- What a node holds. -/
def contentOf (g : Graph) (id : NodeId) : Content := (g.node id).content

/-- The entries of a mapping; none for any other node. -/
def entriesOf (g : Graph) (id : NodeId) : List (NodeId × NodeId) :=
  match g.contentOf id with
  | .mapping entries => entries
  | _ => []

/-- Gives a node another content. -/
def setContent (g : Graph) (id : NodeId) (content : Content) : Graph :=
  g.modify id fun node => { node with content }

/-- Gives a node another tag. -/
def setTag (g : Graph) (id : NodeId) (tag : Tag) : Graph :=
  g.modify id fun node => { node with tag }

end Graph

namespace Node

/-- What a reader of nodes has before it and what it knows: the tokens, the nodes so far, the
anchored ones by name, and the handles of tags. -/
structure Reading where
  scanner : Scanner
  graph : Graph := #[]
  anchors : List (String × NodeId) := []
  handles : List (String × String) := []

/-- A step of a reader of nodes. -/
abbrev Reader := StateT Reading (Except Error)

/-- The next token and where it begins. -/
def peekLexeme : Reader (Option Lexeme) := do
  let scanner ← (← get).scanner.known
  modify fun r => { r with scanner }
  return scanner.tokens.head?

/-- The next token. -/
def peek : Reader Token :=
  return (← peekLexeme).elim .streamEnd Lexeme.token

/-- Takes the next token, which is known. -/
def skip : Reader Unit :=
  modify fun r => { r with scanner := r.scanner.take }

/-- An error at the next token, as far as it is known. -/
def fail {α : Type} (problem : String) : Reader α := do
  match (← get).scanner.tokens with
  | [] => throw (.malformed problem 0 0)
  | l :: _ => throw (.malformed problem l.line l.column)

/-- Takes the next token if it is the given one. -/
def skipIf (t : Token) : Reader Bool := do
  if (← peek) = t then
    skip
    return true
  else return false

/-- Takes the next token, which must be the given one. -/
def expect (t : Token) (problem : String) : Reader Unit := do
  if !(← skipIf t) then fail problem

/-! ## Properties of a node -/

/-- The tag that a handle and a suffix name. -/
def fullTag (handle : Option String) (suffix : String) : Reader String := do
  match handle with
  | none => return suffix
  | some h =>
    match Assoc.get? h (← get).handles with
    | some front => return front ++ suffix
    | none => fail "found undefined tag handle"

/-- An anchor, if one comes next. -/
def takeAnchor : Reader (Option String) := do
  match ← peek with
  | .anchor name =>
    skip
    return some name
  | _ => return none

/-- A tag, if one comes next: its handle and its suffix. -/
def takeTag : Reader (Option (Option String × String)) := do
  match ← peek with
  | .tag handle suffix =>
    skip
    return some (handle, suffix)
  | _ => return none

/-- The anchor and the tag before a node, in any order. -/
def takeProperties : Reader (Option String × Option (Option String × String)) := do
  match ← takeAnchor with
  | some anchor => return (some anchor, ← takeTag)
  | none =>
    match ← takeTag with
    | some tag => return (← takeAnchor, some tag)
    | none => return (none, none)

/-- The anchor of a node and the name of its tag. -/
def properties : Reader (Option String × Option String) := do
  let (anchor, tag) ← takeProperties
  match tag with
  | none => return (anchor, none)
  | some (handle, suffix) => return (anchor, some (← fullTag handle suffix))

/-- Adds a node and gives it its anchor, which must be new. -/
def add (anchor : Option String) (node : Node) : Reader NodeId := do
  let id := (← get).graph.size
  match anchor with
  | none => modify fun r => { r with graph := r.graph.push node }
  | some name =>
    if Assoc.contains name (← get).anchors then fail "found duplicate anchor"
    modify fun r =>
      { r with graph := r.graph.push node, anchors := Assoc.set name id r.anchors }
  return id

/-- Adds a collection, which is there before its content is read. -/
def collection (anchor : Option String) (tag : Tag) (content : Reader Content) :
    Reader NodeId := do
  let id ← add anchor ⟨tag, .sequence []⟩
  let content ← content
  modify fun r => { r with graph := r.graph.setContent id content }
  return id

/-- The node that an alias stands for. -/
def resolveAlias (name : String) : Reader NodeId := do
  match Assoc.get? name (← get).anchors with
  | some id => return id
  | none => fail "found undefined alias"

/-- The tag of a scalar. -/
def scalarTag (tag : Option String) (text : String) (isPlain : Bool) : Tag :=
  match tag with
  | none => if isPlain then .ofPlain text else .string
  | some "!" => .ofPlain text
  | some name => .ofName name

/-- The tag of a collection. -/
def collectionTag (tag : Option String) (fallback : Tag) : Tag :=
  match tag with
  | none => fallback
  | some "!" => fallback
  | some name => .ofName name

/-- Adds the node of a place where nothing is written. -/
def addEmpty : Reader NodeId := add none ⟨.null, .scalar ""⟩

/-! ## Nodes -/

/-- Whether a token ends the entry of a block sequence before its node. -/
def endsBlockItem : Token → Bool
  | .blockEntry => true
  | .blockEnd => true
  | _ => false

/-- Whether a token ends the entry of a sequence without indentation before its node. -/
def endsIndentlessItem : Token → Bool
  | .blockEntry => true
  | .key => true
  | .value => true
  | .blockEnd => true
  | _ => false

/-- Whether a token ends a key or a value of a block mapping before its node. -/
def endsBlockPart : Token → Bool
  | .key => true
  | .value => true
  | .blockEnd => true
  | _ => false

/-- Whether a token ends a key in a flow collection before its node. -/
def endsFlowKey (closing : Token) (t : Token) : Bool :=
  t = .value || t = .flowEntry || t = closing

/-- Whether a token ends a value in a flow collection before its node. -/
def endsFlowValue (closing : Token) (t : Token) : Bool :=
  t = .flowEntry || t = closing

mutual

/-- A node. Block collections are read only where they may stand, and a sequence without indentation
only as a part of a mapping. -/
def read (inBlock indentless : Bool) : Nat → Reader NodeId
  | 0 => fail "the document is too deep"
  | fuel + 1 => do
    match ← peek with
    | .alias name =>
      skip
      resolveAlias name
    | _ =>
      let (anchor, tag) ← properties
      let sequence := fun items =>
        collection anchor (collectionTag tag .sequence) (.sequence <$> items)
      let mapping := fun entries =>
        collection anchor (collectionTag tag .mapping) (.mapping <$> entries)
      match ← peek with
      | .scalar text isPlain =>
        skip
        add anchor ⟨scalarTag tag text isPlain, .scalar text⟩
      | .flowSequenceStart =>
        skip
        sequence (flowItems true fuel)
      | .flowMappingStart =>
        skip
        mapping (flowEntries true fuel)
      | t =>
        if indentless && t = .blockEntry then sequence (indentlessItems fuel)
        else if inBlock && t = .blockSequenceStart then
          skip
          sequence (blockItems fuel)
        else if inBlock && t = .blockMappingStart then
          skip
          mapping (blockEntries fuel)
        else if anchor.isSome || tag.isSome then
          add anchor ⟨scalarTag tag "" true, .scalar ""⟩
        else fail "expected the node content"

/-- A node, or the empty one where a token ends its place. -/
def readUnless (ends : Token → Bool) (inBlock indentless : Bool) : Nat → Reader NodeId
  | 0 => fail "the document is too deep"
  | fuel + 1 => do
    if ends (← peek) then addEmpty
    else read inBlock indentless fuel

/-- The items of a block sequence. -/
def blockItems : Nat → Reader (List NodeId)
  | 0 => fail "the document is too deep"
  | fuel + 1 => do
    if ← skipIf .blockEntry then
      let item ← readUnless endsBlockItem true false fuel
      return item :: (← blockItems fuel)
    else
      expect .blockEnd "expected <block end>"
      return []

/-- The items of a sequence without indentation. -/
def indentlessItems : Nat → Reader (List NodeId)
  | 0 => fail "the document is too deep"
  | fuel + 1 => do
    if ← skipIf .blockEntry then
      let item ← readUnless endsIndentlessItem true false fuel
      return item :: (← indentlessItems fuel)
    else return []

/-- The entries of a block mapping. -/
def blockEntries : Nat → Reader (List (NodeId × NodeId))
  | 0 => fail "the document is too deep"
  | fuel + 1 => do
    if ← skipIf .key then
      let key ← readUnless endsBlockPart true true fuel
      let value ← if ← skipIf .value then readUnless endsBlockPart true true fuel else addEmpty
      return (key, value) :: (← blockEntries fuel)
    else
      expect .blockEnd "expected <block end>"
      return []

/-- The items of a flow sequence. A key makes an item a mapping of one entry. -/
def flowItems (first : Bool) : Nat → Reader (List NodeId)
  | 0 => fail "the document is too deep"
  | fuel + 1 => do
    if ← skipIf .flowSequenceEnd then return []
    else
      if !first then expect .flowEntry "expected ',' or ']'"
      if ← skipIf .key then
        let key ← readUnless (endsFlowKey .flowSequenceEnd) false false fuel
        let value ← if ← skipIf .value then
            readUnless (endsFlowValue .flowSequenceEnd) false false fuel
          else addEmpty
        let item ← add none ⟨.mapping, .mapping [(key, value)]⟩
        return item :: (← flowItems false fuel)
      else if ← skipIf .flowSequenceEnd then return []
      else
        let item ← read false false fuel
        return item :: (← flowItems false fuel)

/-- The entries of a flow mapping. -/
def flowEntries (first : Bool) : Nat → Reader (List (NodeId × NodeId))
  | 0 => fail "the document is too deep"
  | fuel + 1 => do
    if ← skipIf .flowMappingEnd then return []
    else
      if !first then expect .flowEntry "expected ',' or a closing brace"
      if ← skipIf .key then
        let key ← readUnless (endsFlowKey .flowMappingEnd) false false fuel
        let value ← if ← skipIf .value then
            readUnless (endsFlowValue .flowMappingEnd) false false fuel
          else addEmpty
        return (key, value) :: (← flowEntries false fuel)
      else if ← skipIf .flowMappingEnd then return []
      else
        let key ← read false false fuel
        let value ← addEmpty
        return (key, value) :: (← flowEntries false fuel)

end

/-! ## Documents -/

/-- The handles that every document has. -/
def defaultHandles : List (String × String) := [("!", "!"), ("!!", Tag.standardFront)]

/-- The directives before a document: the handles that they set, and whether there is a version. -/
def directives : Nat → Bool → Reader Unit
  | 0, _ => fail "too many directives"
  | fuel + 1, versioned => do
    match ← peek with
    | .version major =>
      if versioned then fail "found duplicate YAML directive"
      if major ≠ 1 then fail "found incompatible YAML document (version 1.* is required)"
      skip
      directives fuel true
    | .tagHandle handle front =>
      if Assoc.contains handle (← get).handles then fail "duplicate tag handle"
      skip
      modify fun r => { r with handles := Assoc.set handle front r.handles }
      directives fuel versioned
    | .otherDirective =>
      skip
      directives fuel versioned
    | _ => return ()

/-- Adds the handles that the directives did not set. -/
def addDefaultHandles : Reader Unit :=
  modify fun r => { r with
    handles := r.handles ++ defaultHandles.filter fun (h, _) => !Assoc.contains h r.handles }

/-- Takes marks for the end of a document. -/
def skipDocumentEnds : Nat → Reader Unit
  | 0 => return ()
  | fuel + 1 => do
    if ← skipIf .documentEnd then skipDocumentEnds fuel

/-- Whether a token leaves a document empty. -/
def endsDocument : Token → Bool
  | .version _ => true
  | .tagHandle _ _ => true
  | .otherDirective => true
  | .documentStart => true
  | .documentEnd => true
  | .streamEnd => true
  | _ => false

/-- What stands before a document: nothing, or directives and a mark. Tells whether there was a
mark. -/
def documentFront (fuel : Nat) : Reader Bool := do
  match ← peek with
  | .version _ | .tagHandle _ _ | .otherDirective | .documentStart =>
    directives fuel false
    addDefaultHandles
    expect .documentStart "expected '<document start>'"
    return true
  | _ =>
    addDefaultHandles
    return false

/-- Takes what follows a document, which must be nothing but marks for its end. -/
def endOfText (fuel : Nat) : Reader Unit := do
  skipDocumentEnds fuel
  if (← peek) ≠ .streamEnd then
    modify fun r => { r with handles := [] }
    directives fuel false
    expect .documentStart "expected '<document start>'"
    fail "expected a single document in the stream"

/-- The only document of a text, if there is one. -/
def document (fuel : Nat) : Reader (Option NodeId) := do
  if (← peek) = .streamEnd then return none
  let marked ← documentFront fuel
  let id ← if marked && endsDocument (← peek) then addEmpty else read true false fuel
  endOfText fuel
  return some id

end Node

/-- The nodes of a text and the node of its document, if there is one. -/
def compose (text : List Char) : Except Error (Option NodeId × Graph) := do
  let scanner ← Scanner.start text
  let fuel := 8 * (text.length + 4)
  let (id, reading) ← (Node.document fuel).run { scanner }
  return (id, reading.graph)

end ThemeLocales.Yaml
