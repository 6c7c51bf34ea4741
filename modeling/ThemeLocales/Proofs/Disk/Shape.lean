import ThemeLocales.Proofs.Disk.Repeat

/-!
# What is found again on a later disk

Two disks have one shape when the same directories and files are there, whatever the files hold.
The same paths can be followed on both, the same name something and can be written, and the same
directories can be made (`SameShape.makeDirectories`). A line at the end of a file keeps the shape.
What was there, read or listed on a disk is there, read and listed on a later one that keeps the
places in question.
-/

set_option autoImplicit false

namespace ThemeLocales.Disk

variable {S : List String → Prop} {d d' : Disk}

/-- The same directories and files are there. -/
structure SameShape (d d' : Disk) : Prop where
  workingDirectory : d'.workingDirectory = d.workingDirectory
  directory : ∀ place, d'.isDirectoryAt place = d.isDirectoryAt place
  present : ∀ place, (d'.entryAt? place).isSome = (d.entryAt? place).isSome

theorem SameShape.refl (d : Disk) : d.SameShape d :=
  ⟨rfl, fun _ => rfl, fun _ => rfl⟩

theorem SameShape.trans {d'' : Disk} (h : d.SameShape d') (h' : d'.SameShape d'') :
    d.SameShape d'' where
  workingDirectory := h'.workingDirectory.trans h.workingDirectory
  directory place := (h'.directory place).trans (h.directory place)
  present place := (h'.present place).trans (h.present place)

theorem SameShape.stepTo (h : d.SameShape d') (place : List String) (name : String) :
    d'.stepTo place name = d.stepTo place name := by
  have hdirectory := h.directory place
  have hpresent := h.present place
  unfold isDirectoryAt at hdirectory
  unfold Disk.stepTo
  rcases hd : d.entryAt? place with _ | (_ | _) <;>
    rcases hd' : d'.entryAt? place with _ | (_ | _) <;> simp_all

theorem SameShape.locate (h : d.SameShape d') (path : String) :
    d'.locate path = d.locate path := by
  have hstep : d'.stepTo = d.stepTo := funext fun place => funext fun name => h.stepTo place name
  simp only [Disk.locate, h.workingDirectory, hstep]

theorem SameShape.placeOf (h : d.SameShape d') (path : String) :
    d'.placeOf path = d.placeOf path := by
  rw [Disk.placeOf, Disk.placeOf, h.workingDirectory]

theorem isThere_iff {path : String} :
    d.isThere path = true ↔ ∃ place entry, d.lookup path = .ok (place, entry) := by
  unfold isThere
  cases d.lookup path with
  | error => simp [Except.isOk, Except.toBool]
  | ok found => exact ⟨fun _ => ⟨found.1, found.2, rfl⟩, fun _ => rfl⟩

theorem isThere_of_read {path : String} {bytes : ByteArray} (h : d.read path = .ok bytes) :
    d.isThere path = true := by
  obtain ⟨hlocate, hfile⟩ := read_eq_ok_iff.1 h
  exact isThere_iff.2 ⟨_, _, lookup_eq_ok_iff.2 ⟨hlocate, fileAt?_eq_some_iff.1 hfile⟩⟩

theorem SameShape.isThere (h : d.SameShape d') (path : String) :
    d'.isThere path = d.isThere path := by
  rw [Bool.eq_iff_iff, isThere_iff, isThere_iff]
  simp only [lookup_eq_ok_iff, h.locate]
  refine exists_congr fun place => ?_
  simp only [exists_and_left]
  refine and_congr_right fun _ => ?_
  rw [← Option.isSome_iff_exists, ← Option.isSome_iff_exists, h.present]

theorem SameShape.lookup_directory (h : d.SameShape d') {path : String} {place : List String} :
    d'.lookup path = .ok (place, .directory) ↔ d.lookup path = .ok (place, .directory) := by
  rw [lookup_eq_ok_iff, lookup_eq_ok_iff, h.locate, ← isDirectoryAt_iff, ← isDirectoryAt_iff,
    h.directory]

theorem SameShape.isDirectory (h : d.SameShape d') (path : String) :
    d'.isDirectory path = d.isDirectory path := by
  rw [Bool.eq_iff_iff, isDirectory_iff, isDirectory_iff]
  exact exists_congr fun place => h.lookup_directory

theorem SameShape.isWritable (h : d.SameShape d') (path : String) :
    d'.isWritable path = d.isWritable path := by
  rw [Bool.eq_iff_iff, isWritable_iff, isWritable_iff, h.placeOf, h.locate, h.directory]

/-! ## Making directories -/

/-- A directory that is made on both disks. -/
theorem SameShape.set_directory (h : d.SameShape d') {place : List String} (hplace : place ≠ []) :
    SameShape { d with entries := Assoc.set place .directory d.entries }
      { d' with entries := Assoc.set place .directory d'.entries } := by
  refine ⟨h.workingDirectory, fun other => ?_, fun other => ?_⟩
  · have hdirectory := h.directory other
    unfold isDirectoryAt at hdirectory ⊢
    rw [entryAt?_set _ hplace, entryAt?_set _ hplace]
    split_ifs
    · rfl
    · exact hdirectory
  · rw [entryAt?_set _ hplace, entryAt?_set _ hplace]
    split_ifs
    · rfl
    · exact h.present other

theorem SameShape.makeDirectory (h : d.SameShape d') {path : String} {e : Disk}
    (hmade : d.makeDirectory path = .ok e) :
    ∃ e', d'.makeDirectory path = .ok e' ∧ e.SameShape e' := by
  unfold Disk.makeDirectory at hmade ⊢
  rw [h.locate]
  split at hmade
  · cases hmade
  · next place hlocate =>
    split at hmade
    · cases hmade
    · next hnone =>
      cases hmade
      have hnone' : d'.entryAt? place = none := by
        simpa [hnone] using h.present place
      have hroot : place ≠ [] := by
        rintro rfl
        simp [entryAt?] at hnone
      refine ⟨{ d' with entries := Assoc.set place .directory d'.entries }, ?_,
        h.set_directory hroot⟩
      simp only [hnone']

theorem SameShape.makeMissing (h : d.SameShape d') {path : String} {e : Disk}
    (hmade : d.makeMissing path = .ok e) :
    ∃ e', d'.makeMissing path = .ok e' ∧ e.SameShape e' := by
  unfold Disk.makeMissing at hmade ⊢
  rw [h.isThere]
  split_ifs at hmade ⊢
  · cases hmade
    exact ⟨d', rfl, h⟩
  · exact h.makeDirectory hmade

theorem SameShape.foldlM_makeMissing (h : d.SameShape d') {paths : List String} {e : Disk}
    (hmade : paths.foldlM Disk.makeMissing d = .ok e) :
    ∃ e', paths.foldlM Disk.makeMissing d' = .ok e' ∧ e.SameShape e' := by
  induction paths generalizing d d' with
  | nil =>
    cases hmade
    exact ⟨d', rfl, h⟩
  | cons path rest ih =>
    rw [List.foldlM_cons] at hmade ⊢
    obtain ⟨c, hfirst, hrest⟩ := bind_eq_ok.1 hmade
    obtain ⟨c', hfirst', hc⟩ := h.makeMissing hfirst
    obtain ⟨e', hrest', he⟩ := ih hc hrest
    exact ⟨e', bind_eq_ok.2 ⟨c', hfirst', hrest'⟩, he⟩

/-- Directories that can be made on a disk can be made on every disk of its shape. -/
theorem SameShape.makeDirectories (h : d.SameShape d') {path : String} {e : Disk}
    (hmade : d.makeDirectories path = .ok e) :
    ∃ e', d'.makeDirectories path = .ok e' ∧ e.SameShape e' := by
  obtain ⟨above, habove, hmade⟩ := bind_eq_ok.1 hmade
  obtain ⟨above', habove', hshape⟩ := h.foldlM_makeMissing habove
  have hlast : ∃ e', (if above'.isDirectory path then .ok above' else above'.makeDirectory path) =
      .ok e' ∧ e.SameShape e' := by
    rw [hshape.isDirectory]
    split_ifs at hmade ⊢
    · cases hmade
      exact ⟨above', rfl, hshape⟩
    · exact hshape.makeDirectory hmade
  obtain ⟨e', hlast, he⟩ := hlast
  exact ⟨e', bind_eq_ok.2 ⟨above', habove', hlast⟩, he⟩

/-! ## Lines at the end of a file -/

/-- A line at the end of a file keeps the shape. -/
theorem sameShape_appendLine (d : Disk) (path line : String) :
    d.SameShape (d.appendLine path line) := by
  unfold appendLine
  split
  · exact .refl d
  · next old hread =>
    cases hwrite : d.write path (old ++ (line ++ "\n").toUTF8) with
    | error => exact .refl d
    | ok d' =>
      -- a file stood at the place before, so a file there is nothing new
      obtain ⟨-, hold⟩ := read_eq_ok_iff.1 hread
      have hroot := placeOf_ne_nil_of_write hwrite
      obtain ⟨-, hdirectory, rfl⟩ := write_eq_ok hwrite
      have hentry := fileAt?_eq_some_iff.1 hold
      refine ⟨rfl, fun place => ?_, fun place => ?_⟩
      · by_cases hplace : place = d.placeOf path
        · subst hplace
          rw [hdirectory]
          simp [Except.toOption, isDirectoryAt, entryAt?_set _ hroot]
        · simp [Except.toOption, isDirectoryAt, entryAt?_set _ hroot, hplace]
      · by_cases hplace : place = d.placeOf path
        · subst hplace
          simp [Except.toOption, entryAt?_set _ hroot, hentry]
        · simp [Except.toOption, entryAt?_set _ hroot, hplace]

/-- Seen from the longer file, the shorter one keeps every other place as well. -/
theorem appendLine_keeps (d : Disk) (path line : String) :
    (d.appendLine path line).Keeps (· ≠ d.placeOf path) d := by
  have hkeeps := keeps_appendLine d path line
  have hshape := sameShape_appendLine d path line
  refine ⟨hkeeps.workingDirectory.symm, fun place h => ?_, fun place h => (hkeeps.file place h).symm,
    fun base h => (hkeeps.listing base h).symm⟩
  rw [← hshape.directory]
  exact h

/-! ## Later disks -/

theorem Keeps.lookup (h : d.Keeps S d') {path : String} {place : List String} {entry : DiskEntry}
    (hS : S place) (hlookup : d.lookup path = .ok (place, entry)) :
    d'.lookup path = .ok (place, entry) := by
  obtain ⟨hlocate, hentry⟩ := lookup_eq_ok_iff.1 hlookup
  refine lookup_eq_ok_iff.2 ⟨h.locate hlocate, ?_⟩
  cases entry with
  | directory => exact isDirectoryAt_iff.1 (h.directory place (isDirectoryAt_iff.2 hentry))
  | file bytes =>
    have hfile := h.file place hS
    rw [fileAt?_eq_some_iff.2 hentry] at hfile
    exact fileAt?_eq_some_iff.1 hfile

/-- What was there and is kept is there. -/
theorem Keeps.isThere (h : d.Keeps S d') {path : String} (hS : S (d.placeOf path))
    (hthere : d.isThere path = true) : d'.isThere path = true := by
  obtain ⟨place, entry, hlookup⟩ := isThere_iff.1 hthere
  have hplace := locate_eq_ok (lookup_eq_ok_iff.1 hlookup).1
  exact isThere_iff.2 ⟨place, entry, h.lookup (hplace ▸ hS) hlookup⟩

/-- A directory all of whose places are kept is listed as before. -/
theorem Keeps.walk (h : d.Keeps S d') {path : String} {paths : List String}
    (hS : ∀ names, S (d.placeOf path ++ names)) (hwalk : d.walk path = .ok paths) :
    d'.walk path = .ok paths := by
  unfold Disk.walk at hwalk ⊢
  split at hwalk
  · next place hlookup =>
    obtain rfl := locate_eq_ok (lookup_eq_ok_iff.1 hlookup).1
    have hplace : S (d.placeOf path) := by simpa using hS []
    rw [h.lookup hplace hlookup]
    simp only [h.listing _ hS]
    exact hwalk
  · cases hwalk
  · cases hwalk

end ThemeLocales.Disk
