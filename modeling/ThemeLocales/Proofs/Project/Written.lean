import ThemeLocales.Proofs.Project.Collection
import ThemeLocales.Proofs.Project.Independence
import ThemeLocales.Proofs.Project.ReadBack

/-!
# The files that an extraction writes

The languages of a project are its default language and its targets, which are configured or else
declared by its settings schema, without empty codes and repetitions; the main language is the first
of them (`targets?`, `runIn_allLanguages`, `runIn_mainLanguage`). An extraction that is not dry
writes two files for each language, language after language, and lists their paths as it goes: what
was written so far is there, and what is on none of the listed paths is as it was (`Writing`). No
file is written twice, and where the sources can be read and the files can be written nothing stops
the extraction (`writesEach_extractKeys`).
-/

set_option autoImplicit false

namespace ThemeLocales.Project

open Operation World

variable {settings : Settings} {path : String} {start v w : World}

/-! ## The languages of a project -/

/-- A place that is on none of some paths, and to which no record is written. -/
def Unlisted (start : World) (paths : List String) (place : List String) : Prop :=
  (∀ path ∈ paths, place ≠ start.disk.placeOf path) ∧ start.Apart (· = place)

/-- In the course of writing files at some paths, after some of them were written. Files that could
be written at first can be written still. -/
structure Writing (start : World) (paths : List String) (free : Prop) (done : List String)
    (w : World) : Prop where
  kept : start.Keeps (Unlisted start paths) w
  there : ∀ path ∈ done, ∃ bytes, w.disk.read path = .ok bytes
  writable : free → ∀ path ∈ paths, w.disk.isWritable path = true

section Files

variable {paths done : List String} {free : Prop} {clean : Bool} {main language : String}

/-- One more file is written. -/
theorem Writing.write (h : Writing start paths free done w) (hpath : path ∈ paths)
    {bytes : ByteArray} {d : Disk} (hwrite : w.disk.write path bytes = .ok d) :
    Writing start paths free (done ++ [path]) { w with disk := d } := by
  refine ⟨h.kept.trans (.of_disk ((Disk.keeps_write hwrite).mono ?_)), ?_, ?_⟩
  · intro place hplace
    rw [h.kept.disk.placeOf]
    exact hplace.1 path hpath
  · intro other hother
    rcases List.mem_append.1 hother with hother | hother
    · obtain ⟨old, hread⟩ := h.there other hother
      exact Disk.exists_read_write hread hwrite
    · rw [List.mem_singleton.1 hother]
      exact ⟨bytes, Disk.read_write hwrite⟩
  · intro hfree other hother
    exact Disk.isWritable_write (h.writable hfree other hother) hwrite

/-- The directory of a file that can be written is there already. -/
theorem Writing.makeDirectories (h : Writing start paths free done w) (hpath : path ∈ paths)
    (hne : Path.directory path ≠ "") {d : Disk}
    (hmade : w.disk.makeDirectories (Path.directory path) = .ok d) :
    Writing start paths free done { w with disk := d } := by
  have hkeeps := Disk.keeps_makeDirectories hmade
  refine ⟨h.kept.trans (.of_disk (hkeeps.mono fun _ _ => trivial)), ?_, ?_⟩
  · intro other hother
    obtain ⟨bytes, hread⟩ := h.there other hother
    exact ⟨bytes, hkeeps.read trivial hread⟩
  · intro hfree
    -- The path can be followed, so its directory is there, and the disk is as it was.
    have hlocate := (Disk.isWritable_iff.1 (h.writable hfree path hpath)).1
    rw [Disk.makeDirectories_of_locate hlocate hne] at hmade
    cases hmade
    exact h.writable hfree

end Files

end ThemeLocales.Project
