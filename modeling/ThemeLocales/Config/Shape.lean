import ThemeLocales.Failure
import ThemeLocales.Yaml.Load

/-!
# Shapes of configuration values

A shape says which values a place of the configuration may hold. Checking a value against a shape
gives violations, each with the place it is about; of several, the one that is reported is the one
closest to the top, and among equally close ones the one whose place comes last.
-/

set_option autoImplicit false

namespace ThemeLocales.Config

open Yaml (Store Value)

/-- The kinds of values that a shape can ask for. -/
inductive Kind
  | text
  | null
  | mapping
  | sequence
  | truth
  deriving DecidableEq, Repr

namespace Kind

/-- The name of a kind in a message. -/
def name : Kind → String
  | text => "string"
  | null => "null"
  | mapping => "object"
  | sequence => "array"
  | truth => "boolean"

/-- Whether a value is of a kind. -/
def holds : Kind → Value → Bool
  | text, .string _ => true
  | null, .null => true
  | mapping, .map _ => true
  | sequence, .list _ => true
  | truth, .bool _ => true
  | _, _ => false

end Kind

/-- A shape. A record asks something of some members; a table asks the same of all of them. -/
inductive Shape
  | oneOf (kinds : List Kind)
  | items (item : Shape)
  | record (members : List (String × Shape))
  | table (kinds : List Kind) (member : Shape)
  | either (shapes : List Shape)

/-! ## Places -/

/-- The way to a value, from the top: indices of lists and keys of mappings. -/
abbrev Place := List Value

namespace Place

/-- Whether one step comes before another; `none` when they cannot be compared. -/
def stepLess? : Value → Value → Option Bool
  | .string s, .string t => some (s < t)
  | a, b => a.less? b

/-- Whether one way comes before another of the same length; `none` when the first steps in which
they differ cannot be compared. -/
def less? : Place → Place → Option Bool
  | a :: as, b :: bs => if a.sameKey b then less? as bs else stepLess? a b
  | _, _ => some false

/-- A step in a message. -/
def stepText? : Value → Option String
  | .string s => some s
  | v => Store.display? #[] v

/-- A way in a message. There is none when an integer in it has too many digits. -/
def text? (place : Place) : Option String :=
  if place.isEmpty then some "<root>"
  else (place.mapM stepText?).map (String.intercalate ".")

end Place

/-! ## Violations -/

/-- What is wrong with a value. The place of a violation is the one where the check failed; the
place that is told lies below it when one of several shapes came close to fitting. A violation that
shows an integer with too many digits has no message. -/
structure Violation where
  place : Place
  told : Place
  message : Option String

namespace Violation

/-- A violation right where the check is. -/
def here (message : Option String) : Violation :=
  ⟨[], [], message⟩

/-- A violation seen from one step further up. -/
def under (step : Value) (v : Violation) : Violation :=
  ⟨step :: v.place, step :: v.told, v.message⟩

/-- A violation seen from the mapping that holds the value at a key. A null key is no step. -/
def underKey (key : Value) (v : Violation) : Violation :=
  if key = .null then v else v.under key

/-- Whether one violation lies deeper than another, or as deep and before it. -/
def deeper (a b : Violation) : Bool :=
  b.place.length < a.place.length ||
    (a.place.length = b.place.length && Place.less? a.place b.place = some true)

/-- The deepest of some violations; of equally deep ones, the first in the order of places. -/
def deepest : Violation → List Violation → Violation
  | best, [] => best
  | best, v :: vs => deepest (if v.deeper best then v else best) vs

/-- The one violation that is deeper than all the others. -/
def uniqueDeepest? : List Violation → Option Violation
  | [] => none
  | v :: vs =>
    let best := deepest v vs
    if (v :: vs).countP (fun w => !best.deeper w) ≤ 1 then some best else none

end Violation

/-! ## Checking -/

/-- The violation of a value that is of none of the kinds. -/
def wrongKind (store : Store) (kinds : List Kind) (v : Value) : Violation :=
  .here ((store.display? v).map fun text =>
    text ++ " is not of type " ++
      Document.joinSpaced (kinds.map fun kind => Text.quoted kind.name))

/-- The violations of a value that must be of one of some kinds. -/
def checkKind (store : Store) (kinds : List Kind) (v : Value) : List Violation :=
  if kinds.any fun kind => kind.holds v then [] else [wrongKind store kinds v]

/-- What is reported when a value fits none of several shapes: the violation that lies deeper than
all others, if there is one. -/
def noneFits (store : Store) (v : Value) (found : List Violation) : Violation :=
  match store.display? v, Violation.uniqueDeepest? found with
  | some _, some w => ⟨[], w.told, w.message⟩
  | shown, _ =>
    .here (shown.map fun text => text ++ " is not valid under any of the given schemas")

mutual

/-- The violations of a value against a shape. -/
def Shape.check (store : Store) : Shape → Value → List Violation
  | .oneOf kinds, v => checkKind store kinds v
  | .items item, v =>
    checkKind store [.sequence] v ++
      ((store.items v).mapIdx fun i w =>
        (item.check store w).map (Violation.under (.int i))).flatten
  | .record members, v => checkKind store [.mapping] v ++ checkMembers store members v
  | .table kinds member, v =>
    checkKind store kinds v ++
      (store.entries v).flatMap fun (key, w) =>
        (member.check store w).map (Violation.underKey key)
  | .either shapes, v =>
    let found := checkEach store shapes v
    if found.any List.isEmpty then [] else [noneFits store v found.flatten]

/-- The violations of the members of a record. -/
def checkMembers (store : Store) : List (String × Shape) → Value → List Violation
  | [], _ => []
  | (name, shape) :: rest, v =>
    (match store.get? name v with
      | some w => (shape.check store w).map (Violation.under (.string name))
      | none => []) ++ checkMembers store rest v

/-- The violations of a value against each of several shapes. -/
def checkEach (store : Store) : List Shape → Value → List (List Violation)
  | [], _ => []
  | shape :: rest, v => shape.check store v :: checkEach store rest v

end

/-! ## The violation to report -/

/-- The failure of a message that cannot be written. -/
def unwritable : Failure := .badValue "an integer has too many digits for a message"

/-- What a violation says. -/
def Violation.says (v : Violation) : Except Failure String :=
  v.message.elim (.error unwritable) .ok

/-- The one of two violations to report: the one closer to the top, else the later one unless its
place comes before. Their places must be such that they can be compared. -/
def Violation.foremost (a b : Violation) : Except Failure Violation := do
  discard b.says
  if a.place.length < b.place.length then return a
  if b.place.length < a.place.length then return b
  match Place.less? b.place a.place with
  | some isLess => return if isLess then a else b
  | none => throw .wrongType

/-- The violation to report, if there is any: where it is and what it says. -/
def Violation.report? : List Violation → Except Failure (Option (String × String))
  | [] => .ok none
  | v :: vs => do
    discard v.says
    let best ← vs.foldlM Violation.foremost v
    return some (← best.told.text?.elim (.error unwritable) .ok, ← best.says)

/-! ## The shape of a configuration -/

/-- A text. -/
def Shape.text : Shape := .oneOf [.text]

/-- A text or nothing. -/
def Shape.optionalText : Shape := .oneOf [.text, .null]

/-- A truth value. -/
def Shape.truth : Shape := .oneOf [.truth]

/-- A list of texts. -/
def Shape.texts : Shape := .items .text

/-- The shape of a configuration file. Members that it does not name may be anything. -/
def Shape.configuration : Shape :=
  .record
    [("default_language", .optionalText),
      ("target_languages", .either [.texts, .oneOf [.null]]),
      ("paths", .record [("source", .texts), ("locales", .text), ("schema", .text)]),
      ("adapter_name", .optionalText),
      ("adapter_path", .optionalText),
      ("adapter_options", .oneOf [.mapping, .null]),
      ("lang_map", .table [.mapping, .null] .text),
      ("clean_unused", .truth),
      ("dry_run", .truth),
      ("logging", .record
        [("log_level", .text), ("log_file_path", .optionalText), ("log_to_console", .truth)])]

end ThemeLocales.Config
