import ThemeLocales.Assoc
import ThemeLocales.Number.Binary64

/-!
# Locale documents

A document is a nested structure of maps, lists and scalars. The order of a map's keys is part of
the data. Functions on documents tolerate a value of the wrong kind by reading it as the empty
container: `entries` of what is no map and `items` of what is no list are empty.
-/

set_option autoImplicit false

namespace ThemeLocales

/-- A document over some texts, or a part of one. Its texts are strings unless it is said what else
they are. -/
inductive Document (τ : Type := String)
  | null
  | bool (value : Bool)
  | int (value : Int)
  | real (value : Binary64)
  | string (value : τ)
  | list (items : List (Document τ))
  | map (entries : List (τ × Document τ))
  deriving Repr, Inhabited

namespace Document

/-- The three kinds of documents. -/
inductive Kind
  | mapping
  | sequence
  | scalar
  deriving DecidableEq, Repr

/-- The kind of a document. -/
def kind {τ : Type} : Document τ → Kind
  | map _ => .mapping
  | list _ => .sequence
  | _ => .scalar

/-- The entries of a map; none for any other document. -/
def entries : Document → List (String × Document)
  | map es => es
  | _ => []

/-- The items of a list; none for any other document. -/
def items : Document → List Document
  | list ds => ds
  | _ => []

/-- Whether a document is a map. -/
def isMap : Document → Bool
  | map _ => true
  | _ => false

/-- Whether a document is a number. Truth values are no numbers. -/
def isNumber : Document → Bool
  | int _ => true
  | real _ => true
  | _ => false

/-- Whether a document counts as content. Null, false, the empty text, zero and not a number do
not; a container does, even an empty one. -/
def isContent : Document → Bool
  | null => false
  | bool b => b
  | string s => s ≠ ""
  | int n => n ≠ 0
  | real x => !x.isZero && x ≠ .nan
  | list _ => true
  | map _ => true

/-- Whether a document counts as a finished translation: a text that is not empty, or a number. -/
def isTranslated : Document → Bool
  | string s => s ≠ ""
  | d => d.isNumber

/-- Whether a document is present as an option: like `isContent`, but an empty container is absent
and not a number is present. -/
def isPresent : Document → Bool
  | null => false
  | bool b => b
  | string s => s ≠ ""
  | int n => n ≠ 0
  | real x => !x.isZero
  | list ds => !ds.isEmpty
  | map es => !es.isEmpty

/-- The value at a key of a map. -/
def get? (key : String) (d : Document) : Option Document :=
  Assoc.get? key d.entries

@[simp] theorem get?_map (key : String) (es : List (String × Document)) :
    (map es).get? key = Assoc.get? key es := rfl

/-- Only a map has values at keys. -/
theorem eq_map_of_get? {key : String} {d v : Document} (h : d.get? key = some v) :
    d = map d.entries := by
  cases d with
  | map es => rfl
  | _ => simp [get?, entries] at h

/-- The value at an optional position: null where there is nothing. -/
def orNull : Option Document → Document
  | some d => d
  | none => null

mutual

/-- Whether no map in the document has a key twice. -/
def WellFormed : Document → Prop
  | list ds => WellFormedItems ds
  | map es => (es.map Prod.fst).Nodup ∧ WellFormedEntries es
  | _ => True

/-- `WellFormed` for every item. -/
def WellFormedItems : List Document → Prop
  | [] => True
  | d :: ds => WellFormed d ∧ WellFormedItems ds

/-- `WellFormed` for every value. -/
def WellFormedEntries : List (String × Document) → Prop
  | [] => True
  | (_, d) :: es => WellFormed d ∧ WellFormedEntries es

end

end Document

end ThemeLocales
