import ThemeLocales.World

/-!
# Opening a journal

Opening a journal makes its file. From then on every record goes to it as soon as it is logged.
-/

set_option autoImplicit false

namespace ThemeLocales.Journal

open Operation

/-- The journal of short commands: the console, from `INFO` on. -/
def consoleOnly : Journal :=
  { threshold := .atLeast .info, file := none, console := true }

/-- Opens a file at its end; a missing file is made empty. -/
def openFile (path : String) : Operation Unit := do
  match (← disk).read path with
  | .ok _ => pure ()
  | .error ⟨.notFound, _⟩ => writeText path ""
  | .error refusal => throw (.disk refusal)

/-- Opens a journal; its file is named by the absolute path. The journal before it is closed, even
when the file of the new one cannot be opened. -/
def start (journal : Journal) : Operation Unit := do
  modify fun w => { w with journal := { threshold := journal.threshold } }
  match journal.file with
  | none => modify fun w => { w with journal }
  | some path => do
    makeDirectories (Path.directory path)
    let absolute := Path.absolute (← workingPath) path
    openFile absolute
    modify fun w => { w with journal := { journal with file := some absolute } }

end ThemeLocales.Journal
