import Mathlib.Logic.Relation
import ThemeLocales.Proofs.Project.Place
import ThemeLocales.Proofs.Project.Run

/-!
# Histories of a project

A history is a sequence of turns: extractions and translations, whether or not they fail, and edits
by hand. In `Turn P S` each run starts as `P` asks of its settings and its world, and only the runs
themselves write to the places `S`: edits keep what stands there, and so do the providers. A
`PairedTurn` leaves out the runs that end at a surrogate that stands alone.

The small project at the end has one source with one key, the main language `en`, the target `fr`
and a provider that knows one word. The results of the next modules are tried on it.
-/

set_option autoImplicit false

namespace ThemeLocales.Project

open Operation World

/-- No other language that a run would find has a locale file at a place of this language. -/
def HasOwnFiles (settings : Settings) (language : String) (w : World) : Prop :=
  ∀ languages main, Finds settings w languages main → ∀ other ∈ main.toList ++ languages,
    other ≠ language → Elsewhere settings.localesPath language w.disk other

/-- The disk of the small project. -/
def smallDisk : Disk where
  entries := [(["r"], .directory), (["r", "s"], .directory),
    (["r", "s", "a.liquid"], .file "\x7b\x7b 'a.b' | t: 'Hello' \x7d\x7d".toUTF8)]
  workingDirectory := ["r"]

/-- The small project before any run. -/
def smallWorld : World :=
  { disk := smallDisk }

end ThemeLocales.Project
