import ThemeLocales.Provider.Options
import ThemeLocales.Provider.Exchange

/-!
# Request rates

A rate is set from a number of requests per second. Below one request per second it is one request
in the inverse number of seconds.
-/

set_option autoImplicit false

namespace ThemeLocales.Provider

/-- One divided by a number, as a double. -/
def inverse : Document → Except Failure Binary64
  | .real x =>
    match Binary64.div? .one x with
    | some y => .ok y
    | none => .error .zeroDivision
  | .int n => if n = 0 then .error .zeroDivision else .ok (.ofRatio (n < 0) 1 n.natAbs)
  | .bool b => if b then .ok .one else .error .zeroDivision
  | _ => .error .wrongType

/-- Whether a number is below one. -/
def isBelowOne : Document → Except Failure Bool
  | .real x => .ok (x.lt .one)
  | .int n => .ok (n < 1)
  | .bool b => .ok !b
  | _ => .error .wrongType

/-- The rate of so many requests per second. -/
def Rate.perSecond (requests : Document) : Except Failure Rate := do
  if ← isBelowOne requests then
    return ⟨.int 1, .real (← inverse requests)⟩
  else
    return ⟨requests, .int 1⟩

end ThemeLocales.Provider
