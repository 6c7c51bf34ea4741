import ThemeLocales.Disk.Basic
import ThemeLocales.Json.Error
import ThemeLocales.Text.Utf8

/-!
# Failures

Every way in which an operation can fail, by cause. Failures of the disk and unreadable values are
expected of a project's files, and the command line reports them; a value of a shape that nothing
reads is a failure of another kind and ends the run.
-/

set_option autoImplicit false

namespace ThemeLocales

/-- Why an operation failed. -/
inductive Failure
  /-- The disk refused a path. -/
  | disk (refusal : Disk.Refusal)
  /-- A text is no JSON document. -/
  | json (error : Json.Error)
  /-- A file is no UTF-8. -/
  | undecodable (error : Text.Undecodable)
  /-- A value has the right type and cannot be read. -/
  | badValue (message : String)
  /-- A value has a type that the operation does not take. -/
  | wrongType
  /-- A member is asked of a value that has none. -/
  | noMember
  /-- A map lacks a key that must be there. -/
  | missingKey
  /-- A number is asked of a text that has no character for it. -/
  | emptyNumber
  /-- A text is no web address. -/
  | invalidUrl
  /-- A division by zero. -/
  | zeroDivision
  /-- A number lies beyond the range of doubles. -/
  | overflow
  /-- A provider has no translation. -/
  | translation (message : String)
  /-- No adapter can be loaded. -/
  | adapter (message : String)
  /-- A client broke down in a way that is no answer of its service. -/
  | client (message : String)
  /-- The run ends with an exit code. -/
  | exit (code : Nat)
  deriving DecidableEq, Repr

namespace Failure

/-- The text of a failure. -/
def message : Failure → String
  | disk refusal => refusal.message
  | json error => error.message
  | undecodable error => error.message
  | badValue text => text
  | wrongType => "a value has the wrong type"
  | noMember => "a value has no members"
  | missingKey => "a key is missing"
  | emptyNumber => "a number has no digits"
  | invalidUrl => "an address is not valid"
  | zeroDivision => "division by zero"
  | overflow => "a number is too large"
  | translation text => text
  | adapter text => text
  | client text => text
  | exit code => toString code

/-- Whether a failure comes from a file or from a value that cannot be read. -/
def isUnreadable : Failure → Bool
  | disk _ => true
  | json _ => true
  | undecodable _ => true
  | badValue _ => true
  | _ => false

/-- Whether a failure comes from a provider or its adapter. -/
def isProvider : Failure → Bool
  | translation _ => true
  | adapter _ => true
  | _ => false

end Failure

end ThemeLocales
