import ThemeLocales.Url.Basic

/-!
# Where a form is sent

A form goes to an address with the fields in place of the query. An address that names no host is a
path on a host that is yet to be known.
-/

set_option autoImplicit false

namespace ThemeLocales.Url

/-- Whether an address names a scheme and a host. -/
def isAbsolute (u : Url) : Bool :=
  u.scheme ≠ "" && u.host ≠ ""

/-- Parts taken as an address, if none of them is too long. -/
def ofShortParts? (p : Parts) : Option Url :=
  if p.areShort then ofParts? p else none

/-- The path and the query of an address, from the top. -/
def rooted? (u : Url) : Option Url :=
  let path := String.ofList ('/' :: u.path.toList.dropWhile (· = '/'))
  ofShortParts? ⟨"", "", path, u.query, none⟩

/-- An address with fields in place of its query. -/
def withFields? (u : Url) (fields : List (String × String)) : Option Url :=
  ofShortParts? { u.parts with query := some (formQuery fields) }

/-- The address that a form goes to, if a text names one. -/
def destination? (s : String) (fields : List (String × String)) : Option Url := do
  let u ← parse? s
  let target ← if u.isAbsolute then some u else u.rooted?
  target.withFields? fields

end ThemeLocales.Url
