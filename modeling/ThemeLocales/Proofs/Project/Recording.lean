import ThemeLocales.Proofs.Operation
import ThemeLocales.Project.Collect

/-!
# A collection that records what it reads

To say which files a collection reads, and how often, the collection is written with the reading of
a file as a parameter. With a reading that keeps a record of each path and of what was found there
it yields what the collection of a run yields: `runIn_collectKeys_iff`.
-/

set_option autoImplicit false

namespace ThemeLocales.Project

open Operation

section Reading

variable {m : Type → Type} [Monad m] [MonadLiftT Operation m]

/-- Adds the keys of one source file that is read in a given way. -/
def collectFileVia (read : String → m ByteArray) (c : Collected) (path : String) :
    m Collected := do
  let content := Text.readTextLossy (← read path)
  logTimes .debug "Skipping schema block that is not valid JSON." (Template.skippedBlocks content)
  return c.addContent content

/-- Adds the keys of all source files below one directory, read in a given way. -/
def collectDirectoryVia (read : String → m ByteArray) (extensions : List String) (c : Collected)
    (directory : String) : m Collected := do
  if !(← isThere directory) then
    logMessage .warning ("Source directory '" ++ directory ++ "' not found. Skipping.")
    return c
  let files ← sourceFiles directory extensions
  logMessage .info
    ("Scanning " ++ toString files.length ++ " file(s) in '" ++ directory ++ "'...")
  files.foldlM (collectFileVia read) c

/-- The keys of all source files below some directories, read in a given way. -/
def collectKeysVia (read : String → m ByteArray) (directories extensions : List String) :
    m Collected :=
  directories.foldlM (collectDirectoryVia read extensions) {}

end Reading

/-- One reading of a file: its path and what was read. -/
structure Reading where
  path : String
  bytes : ByteArray

/-- The text that a reading yields. -/
def Reading.content (r : Reading) : String :=
  Text.readTextLossy r.bytes

/-- Reads a file and records it. -/
def recordBytes (path : String) : StateT (List Reading) Operation ByteArray := do
  let bytes ← readBytes path
  modify fun reads => reads ++ [⟨path, bytes⟩]
  return bytes

/-- The keys of all source files below some directories, with a record of what was read. -/
def recordedKeys (directories extensions : List String) :
    Operation (Collected × List Reading) :=
  (collectKeysVia recordBytes directories extensions).run []

/-- A recording does what an operation does, whatever was recorded before. -/
def Records {α : Type} (recording : StateT (List Reading) Operation α) (op : Operation α) : Prop :=
  ∀ reads, Prod.fst <$> recording.run reads = op

section Records

variable {α β : Type} {recording : StateT (List Reading) Operation α} {op : Operation α}

theorem Records.pure (a : α) : Records (Pure.pure a) (Pure.pure a) := by
  intro reads
  simp

theorem Records.lift (op : Operation α) : Records (liftM op) op := by
  intro reads
  simp

theorem Records.bind {f : α → StateT (List Reading) Operation β} {g : α → Operation β}
    (h : Records recording op) (hf : ∀ a, Records (f a) (g a)) :
    Records (recording >>= f) (op >>= g) := by
  intro reads
  rw [StateT.run_bind, map_bind, ← h reads, bind_map_left]
  exact bind_congr fun p => hf p.1 p.2

theorem Records.foldlM {f : β → α → StateT (List Reading) Operation β} {g : β → α → Operation β}
    (h : ∀ b a, Records (f b a) (g b a)) (b : β) (xs : List α) :
    Records (xs.foldlM f b) (xs.foldlM g b) := by
  induction xs generalizing b with
  | nil => exact .pure b
  | cons x rest ih =>
    rw [List.foldlM_cons, List.foldlM_cons]
    exact (h b x).bind ih

/-- What a recording yields beside its record is what the operation yields. -/
theorem Records.runIn_iff (h : Records recording op) (reads : List Reading) {w w₁ : World} {a : α} :
    op.runIn w = (.ok a, w₁) ↔ ∃ read, (recording.run reads).runIn w = (.ok (a, read), w₁) := by
  rw [← h reads, map_eq_pure_bind, runIn_bind_eq_ok]
  constructor
  · rintro ⟨⟨b, read⟩, w₂, hrun, hpure⟩
    cases hpure
    exact ⟨read, hrun⟩
  · rintro ⟨read, hrun⟩
    exact ⟨(a, read), w₁, hrun, rfl⟩

end Records

theorem records_recordBytes (path : String) : Records (recordBytes path) (readBytes path) := by
  intro reads
  simp [recordBytes]

theorem records_collectFile (c : Collected) (path : String) :
    Records (collectFileVia recordBytes c path) (collectFile c path) :=
  (records_recordBytes path).bind fun _ => (Records.lift _).bind fun _ => .pure _

theorem records_collectDirectory (extensions : List String) (c : Collected) (directory : String) :
    Records (collectDirectoryVia recordBytes extensions c directory)
      (collectDirectory extensions c directory) := by
  refine (Records.lift _).bind fun there => ?_
  cases there with
  | false => exact (Records.lift _).bind fun _ => .pure _
  | true =>
    -- Listing the files and the message about them read no file.
    refine (Records.lift _).bind fun files => (Records.lift _).bind fun _ => ?_
    exact .foldlM records_collectFile c files

/-- Recording what is read changes nothing else. -/
theorem records_collectKeys (directories extensions : List String) :
    Records (collectKeysVia recordBytes directories extensions)
      (collectKeys directories extensions) :=
  .foldlM (records_collectDirectory extensions) {} directories

/-- A collection yields what a recorded one yields, and leaves the same world. -/
theorem runIn_collectKeys_iff {directories extensions : List String} {w w₁ : World}
    {c : Collected} : (collectKeys directories extensions).runIn w = (.ok c, w₁) ↔
      ∃ reads, (recordedKeys directories extensions).runIn w = (.ok (c, reads), w₁) :=
  (records_collectKeys directories extensions).runIn_iff []

end ThemeLocales.Project
