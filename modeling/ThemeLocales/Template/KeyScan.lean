import ThemeLocales.Template.Region
import ThemeLocales.Template.Segment

/-!
# Keys of a template

A table of keys and defaults, scanned from the regions of a template. Two states run along the
segments of a region: either nothing waits for a filter, or the segment before may be the literal of
one. The first occurrence of a key decides its default.
-/

set_option autoImplicit false

namespace ThemeLocales

/-- Keys with their defaults, in order of first occurrence. -/
abbrev KeyTable := List (String × Document)

namespace Template

/-- What the scan of a region remembers between two segments. -/
inductive ScanState
  | idle
  | waiting (segment : String)
  deriving DecidableEq, Repr

/-- Adds a key unless it is there. -/
def addKey (table : KeyTable) (key : String) (value : Document) : KeyTable :=
  if Assoc.contains key table then table else Assoc.set key value table

/-- A new key goes to the end of the table. -/
theorem addKey_eq (table : KeyTable) (key : String) (value : Document) :
    addKey table key value =
      if key ∈ Assoc.keys table then table else table ++ [(key, value)] := by
  rw [addKey]
  by_cases h : key ∈ Assoc.keys table
  · rw [if_pos (Assoc.contains_iff.2 h), if_pos h]
  · rw [if_neg fun hcontains => h (Assoc.contains_iff.1 hcontains), if_neg h,
      Assoc.set_of_not_mem value h]

/-- Scans one segment. -/
def scanSegment (state : ScanState × KeyTable) (segment : String) : ScanState × KeyTable :=
  match state with
  | (.idle, table) => (.waiting segment, table)
  | (.waiting before, table) =>
    if isTranslationFilter segment before then
      match keyLiteral? before with
      | some key => (.idle, addKey table key (filterDefault segment))
      | none => (.idle, table)
    else (.waiting segment, table)

/-- Adds the keys of one region to a table. -/
def scanRegion (table : KeyTable) (region : String) : KeyTable :=
  ((segments region).foldl scanSegment (.idle, table)).2

/-- The keys of a template. A region without a bar has none. -/
def scanKeys (text : String) : KeyTable :=
  ((regions text).filter fun region => region.toList.contains '|').foldl scanRegion []

end Template

end ThemeLocales
