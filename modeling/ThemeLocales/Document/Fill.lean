import ThemeLocales.Document.Basic

/-!
# Filling in translations

A target document is walked along a source document, in document order. The result has the shape of
the source: a finished translation of the target stays, an empty source text stays empty, and every
other source text is handed to a translation, whose effects happen in that order. `pending` counts
those texts without running anything.
-/

set_option autoImplicit false

namespace ThemeLocales.Document

variable {m : Type → Type} [Monad m]

mutual

/-- Fills the untranslated leaves of a target, given second, along a source, given first. -/
def fill (translate : String → m Document) : Document → Document → m Document
  | .string s, target =>
    if target.isTranslated then pure target
    else if s = "" then pure (.string s)
    else translate s
  | .list ds, target => do
    let filled ← fillItems translate ds target.items
    pure (.list filled)
  | .map es, target => do
    let filled ← fillEntries translate es target.entries
    pure (.map filled)
  | d, _ => pure d

/-- Fills items in order; a target that is too short has null for the items it lacks. -/
def fillItems (translate : String → m Document) :
    List Document → List Document → m (List Document)
  | [], _ => pure []
  | d :: ds, ts => do
    let filled ← fill translate d (orNull ts.head?)
    let rest ← fillItems translate ds ts.tail
    pure (filled :: rest)

/-- Fills entries in order; a target without a key has null there. -/
def fillEntries (translate : String → m Document) :
    List (String × Document) → List (String × Document) → m (List (String × Document))
  | [], _ => pure []
  | (key, d) :: es, ts => do
    let filled ← fill translate d (orNull (Assoc.get? key ts))
    let rest ← fillEntries translate es ts
    pure ((key, filled) :: rest)

end

mutual

/-- How many texts of a source, given first, a fill of the target would hand over. -/
def pending : Document → Document → Nat
  | .string s, target => if target.isTranslated || s = "" then 0 else 1
  | .list ds, target => pendingItems ds target.items
  | .map es, target => pendingEntries es target.entries
  | _, _ => 0

/-- `pending` along items. -/
def pendingItems : List Document → List Document → Nat
  | [], _ => 0
  | d :: ds, ts => pending d (orNull ts.head?) + pendingItems ds ts.tail

/-- `pending` along entries. -/
def pendingEntries : List (String × Document) → List (String × Document) → Nat
  | [], _ => 0
  | (key, d) :: es, ts => pending d (orNull (Assoc.get? key ts)) + pendingEntries es ts

end

end ThemeLocales.Document
