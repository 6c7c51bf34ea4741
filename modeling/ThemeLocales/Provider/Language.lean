import ThemeLocales.Failure
import ThemeLocales.Text.Search

/-!
# Language codes

A theme writes language codes with dashes or underscores, and a provider has codes of its own. A
language map leads from the first to the second; a code without an entry stays as it is.
-/

set_option autoImplicit false

namespace ThemeLocales.Provider

/-- A key of a language map. A configuration file may have keys that are no texts: the empty ones
stand for the empty code, any other names no language. -/
inductive LanguageKey
  | code (text : String)
  | empty (spelling : String)
  | other (spelling : String)
  deriving DecidableEq, Repr

/-- A key as it is written. -/
def LanguageKey.spelling : LanguageKey → String
  | code text => text
  | empty spelling => spelling
  | other spelling => spelling

/-- Theme codes with the codes of a provider, in order. -/
abbrev LanguageMap := List (LanguageKey × String)

/-- The form of a code in which dashes and underscores are the same. -/
def normalCode (code : String) : String :=
  code.map fun c => if c = '-' then '_' else c

/-- The normal form of a key. -/
def LanguageKey.normal : LanguageKey → Except Failure String
  | code text => .ok (normalCode text)
  | empty _ => .ok ""
  | other _ => .error .noMember

/-- Adds one entry to a map in normal form. -/
def addNormal (table : List (String × String)) (entry : LanguageKey × String) :
    Except Failure (List (String × String)) :=
  entry.1.normal.map fun key => Assoc.set key entry.2 table

/-- A map with its keys in normal form; of two keys of one form the later entry counts. -/
def normalMap (map : LanguageMap) : Except Failure (List (String × String)) :=
  map.foldlM addNormal []

/-- The provider's code for a language. -/
def resolveLanguage (map : LanguageMap) (language : String) : Except Failure String :=
  (normalMap map).map fun table => (Assoc.get? (normalCode language) table).getD language

/-- A map whose keys are all codes. -/
def LanguageMap.ofCodes (codes : List (String × String)) : LanguageMap :=
  codes.map fun (key, value) => (.code key, value)

end ThemeLocales.Provider
