import ThemeLocales.Number.Binary64

/-!
# Draws of chance

What a source of chance yields, draw by draw. Nothing is said about one draw by the others.
-/

set_option autoImplicit false

namespace ThemeLocales

/-- What is drawn after so many draws. -/
structure Draws (α : Type) where
  draw : Nat → α

namespace Draws

/-- Draws that are all the same. -/
def always {α : Type} (a : α) : Draws α := ⟨fun _ => a⟩

/-- Draws that are always a half. -/
def half : Draws Binary64 := always .half

/-- A numeral stands for draws that are always its number. -/
instance {n : Nat} : OfNat (Draws Nat) n := ⟨always n⟩

end Draws

end ThemeLocales
