import ThemeLocales.Document.Display
import ThemeLocales.Json.Writer
import ThemeLocales.Number.Reading
import ThemeLocales.Yaml.Node

/-!
# Values of a YAML document

What the nodes of a document mean. A list or a map is told by the number of its node, and a store
holds what is inside: so a collection may be a part of itself, and may have parts in common with
others. Keys may be any scalar; two keys are the same when they are equal as numbers or as texts.
-/

set_option autoImplicit false

namespace ThemeLocales.Yaml

/-- A value. What is not a number has an identity: the one that its word stands for, or the one that
the scalar of a node came out as. -/
inductive Value
  | null
  | bool (value : Bool)
  | int (value : Int)
  | real (value : Binary64)
  | notNumber (source : Option NodeId)
  | string (value : String)
  /-- A value of any other type, by its text. -/
  | other (text : String)
  | pair (first second : Value)
  | list (id : NodeId)
  | map (id : NodeId)
  deriving DecidableEq, Repr, Inhabited

/-- What is inside a list or a map. -/
inductive Collection
  | list (items : List Value)
  | map (entries : List (Value × Value))
  deriving Repr, Inhabited

/-- What is inside the collections of a document, by the numbers of their nodes. -/
abbrev Store := Array Collection

namespace Value

/-- The value that a double is, in the scalar of a node. -/
def ofDouble (source : NodeId) : Binary64 → Value
  | .nan => notNumber (some source)
  | x => real x

/-! ## Numbers and keys -/

/-- The exact number that a value is, if it is a finite one. Truth values are one and zero. -/
def rational? : Value → Option Rat
  | bool b => some (if b then 1 else 0)
  | int n => some n
  | real x => x.toRat?
  | _ => none

/-- Whether two values are equal as keys. -/
def sameKey : Value → Value → Bool
  | null, null => true
  | string a, string b => a = b
  | other a, other b => a = b
  | notNumber a, notNumber b => a = b
  | real (.infinity s), real (.infinity t) => s = t
  | a, b =>
    match a.rational?, b.rational? with
    | some x, some y => x = y
    | _, _ => false

/-- Whether a number is less than another; `none` unless both are numbers. Not a number is not less
than anything, and nothing is less than it. -/
def less? : Value → Value → Option Bool
  | notNumber _, notNumber _ => some false
  | notNumber _, b => if (b.rational?).isSome || b matches real _ then some false else none
  | a, notNumber _ => if (a.rational?).isSome || a matches real _ then some false else none
  | real (.infinity s), real (.infinity t) => some (s && !t)
  | real (.infinity s), b => b.rational?.map fun _ => s
  | a, real (.infinity t) => a.rational?.map fun _ => !t
  | a, b =>
    match a.rational?, b.rational? with
    | some x, some y => some (x < y)
    | _, _ => none

/-- Whether a value can be a key. Collections cannot. -/
def isKey : Value → Bool
  | list _ => false
  | map _ => false
  | _ => true

/-- Sets the value at a key, in place when the key is there, else at the end. -/
def setKey (key value : Value) : List (Value × Value) → List (Value × Value)
  | [] => [(key, value)]
  | (k, v) :: rest =>
    if sameKey k key then (k, value) :: rest else (k, v) :: setKey key value rest

/-- The text of a key in a document. -/
def keyText : Value → String
  | null => "null"
  | bool b => if b then "true" else "false"
  | int n => toString n
  | real x => x.textWith Json.constantTexts
  | notNumber _ => Binary64.nan.textWith Json.constantTexts
  | other text => text
  | string s => s
  | _ => ""

end Value

namespace Store

/-! ## Contents -/

/-- The items of a list; none for any other value. -/
def items (store : Store) : Value → List Value
  | .list id =>
    match store[id]? with
    | some (.list vs) => vs
    | _ => []
  | _ => []

/-- The entries of a map; none for any other value. -/
def entries (store : Store) : Value → List (Value × Value)
  | .map id =>
    match store[id]? with
    | some (.map es) => es
    | _ => []
  | _ => []

/-- The value at a text key of a map. -/
def get? (store : Store) (name : String) (v : Value) : Option Value :=
  ((store.entries v).find? fun (k, _) => k.sameKey (.string name)).map Prod.snd

/-- How deep a way through a store can be that meets no collection twice. -/
def depth (store : Store) : Nat := 2 * store.size + 2

/-! ## Documents -/

/-- A value as a document, its keys as texts, inside the collections that are open, up to a depth. A
document cannot be a part of itself: where a collection stands inside itself, there is nothing. -/
def documentTo (store : Store) : Nat → List NodeId → Value → Document
  | 0, _, _ => .null
  | depth + 1, openIds, v =>
    match v with
    | .null => .null
    | .bool b => .bool b
    | .int n => .int n
    | .real x => .real x
    | .notNumber _ => .real .nan
    | .other text => .string text
    | .string s => .string s
    | .pair a b => .list [documentTo store depth openIds a, documentTo store depth openIds b]
    | .list id =>
      if id ∈ openIds then .null
      else .list ((store.items (.list id)).map (documentTo store depth (id :: openIds)))
    | .map id =>
      if id ∈ openIds then .null
      else .map ((store.entries (.map id)).map fun (k, v) =>
        (k.keyText, documentTo store depth (id :: openIds) v))

/-- The entries of a map as those of a document. -/
def documentEntries (store : Store) (v : Value) : List (String × Document) :=
  match store.documentTo store.depth [] v with
  | .map entries => entries
  | _ => []

/-- Whether an integer has few enough digits to be written. -/
def hasText (n : Int) : Bool :=
  n.natAbs < Nat.pow 10 Number.longestInteger

/-- Whether a value can be written inside the collections that are open, up to a depth. -/
def isWritableTo (store : Store) : Nat → List NodeId → Value → Bool
  | 0, _, _ => false
  | depth + 1, openIds, v =>
    match v with
    | .int n => hasText n
    | .pair a b => isWritableTo store depth openIds a && isWritableTo store depth openIds b
    | .list id =>
      id ∉ openIds && (store.items (.list id)).all (isWritableTo store depth (id :: openIds))
    | .map id =>
      id ∉ openIds && (store.entries (.map id)).all fun (k, v) =>
        isWritableTo store depth (id :: openIds) k && isWritableTo store depth (id :: openIds) v
    | _ => true

/-- Whether a value can be written as a document: no collection in it holds itself, and no integer
in it has too many digits. -/
def isWritable (store : Store) (v : Value) : Bool :=
  store.isWritableTo store.depth [] v

/-- Whether a value is a document as it is, inside the collections that are open, up to a depth. -/
def isPlainTo (store : Store) : Nat → List NodeId → Value → Bool
  | 0, _, _ => false
  | depth + 1, openIds, v =>
    match v with
    | .pair _ _ => false
    | .other _ => false
    | .list id =>
      id ∉ openIds && (store.items (.list id)).all (isPlainTo store depth (id :: openIds))
    | .map id =>
      id ∉ openIds && (store.entries (.map id)).all fun (k, v) =>
        k matches .string _ && isPlainTo store depth (id :: openIds) v
    | _ => true

/-- Whether a value is a document as it is: every key in it is a text, no collection holds itself,
and there is no pair in it and no value of a type that documents lack. -/
def isPlain (store : Store) (v : Value) : Bool :=
  store.isPlainTo store.depth [] v

/-! ## Display -/

/-- An integer in a message, unless it has too many digits. -/
def integerText? (n : Int) : Option String :=
  if hasText n then some (toString n) else none

/-- A value in a message, inside the collections that are open, up to a depth. An open collection is
not shown again. There is none when an integer in it has too many digits. -/
def displayTo? (store : Store) : Nat → List NodeId → Value → Option String
  | 0, _, _ => none
  | depth + 1, openIds, v =>
    match v with
    | .null => some (Document.display .null)
    | .bool b => some (Document.display (.bool b))
    | .int n => integerText? n
    | .real x => some (Document.display (.real x))
    | .notNumber _ => some (Document.display (.real .nan))
    | .other text => some text
    | .string s => some (Document.display (.string s))
    | .pair a b => do
      let a ← displayTo? store depth openIds a
      let b ← displayTo? store depth openIds b
      return "(" ++ a ++ ", " ++ b ++ ")"
    | .list id =>
      if id ∈ openIds then some "[...]"
      else do
        let texts ← (store.items (.list id)).mapM (displayTo? store depth (id :: openIds))
        return "[" ++ Document.joinSpaced texts ++ "]"
    | .map id =>
      if id ∈ openIds then some "\x7b...\x7d"
      else do
        let texts ← (store.entries (.map id)).mapM fun (k, v) => do
          let k ← displayTo? store depth (id :: openIds) k
          let v ← displayTo? store depth (id :: openIds) v
          return k ++ ": " ++ v
        return "\x7b" ++ Document.joinSpaced texts ++ "\x7d"

/-- A value in a message. -/
def display? (store : Store) (v : Value) : Option String :=
  store.displayTo? store.depth [] v

end Store

end ThemeLocales.Yaml
