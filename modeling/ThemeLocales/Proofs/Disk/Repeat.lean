import Mathlib.Data.List.TakeWhile
import ThemeLocales.Proofs.Disk.Frame
import ThemeLocales.Proofs.Text.Search

/-!
# Doing again what was done

A file can be written when the disk can follow its path and no directory stands there
(`isWritable_iff`); it need not be there yet. The directories of such a path are there: making them
changes nothing (`makeDirectories_of_locate`). A file that can be read can be written, and writing
what it holds changes nothing (`write_same`). Neither does making directories that were made before
(`makeDirectories_again`).
-/

set_option autoImplicit false

namespace ThemeLocales.Disk

variable {S : List String → Prop} {d d' d'' : Disk}

/-! ## The directories of a path -/

theorem isDirectory_iff {path : String} :
    d.isDirectory path = true ↔ ∃ place, d.lookup path = .ok (place, .directory) := by
  unfold isDirectory
  split
  · next place hlookup => exact ⟨fun _ => ⟨place, hlookup⟩, fun _ => rfl⟩
  · next hnot =>
    constructor
    · intro h
      cases h
    · rintro ⟨place, hlookup⟩
      exact absurd hlookup (hnot place)

/-- A directory stays one. -/
theorem Keeps.isDirectory (h : d.Keeps S d') {path : String} (hpath : d.isDirectory path = true) :
    d'.isDirectory path = true := by
  obtain ⟨place, hlookup⟩ := isDirectory_iff.1 hpath
  obtain ⟨hlocate, hentry⟩ := lookup_eq_ok_iff.1 hlookup
  refine isDirectory_iff.2 ⟨place, lookup_eq_ok_iff.2 ⟨h.locate hlocate, ?_⟩⟩
  exact isDirectoryAt_iff.1 (h.directory place (isDirectoryAt_iff.2 hentry))

theorem isThere_of_isDirectory {path : String} (h : d.isDirectory path = true) :
    d.isThere path = true := by
  obtain ⟨place, hlookup⟩ := isDirectory_iff.1 h
  rw [isThere, hlookup]
  rfl

/-- The place at which the names of a path begin. -/
def startOf (d : Disk) (path : String) : List String :=
  if Path.isAbsolute path then [] else d.workingDirectory

/-- A path text that the system takes. -/
def Passes (path : String) : Prop :=
  path ≠ "" ∧ '\x00' ∉ path.toList ∧ path.utf8ByteSize ≤ 4095

theorem locate_eq_ok_iff {path : String} {place : List String} :
    d.locate path = .ok place ↔
      Passes path ∧ (Text.pieces '/' path).foldlM d.stepTo (d.startOf path) = .ok place := by
  unfold locate Passes startOf
  by_cases hempty : path = ""
  · simp [hempty]
  · by_cases hnull : '\x00' ∈ path.toList
    · simp [hempty, hnull]
    · by_cases hlong : 4095 < path.utf8ByteSize
      · simp [hempty, hnull, hlong, Nat.not_le.2 hlong]
      · simp [hempty, hnull, hlong, Nat.not_lt.1 hlong]

/-- The front of a path text that the system takes is taken too, if there is one. -/
theorem Passes.front {front rest : List Char} (h : Passes (String.ofList (front ++ rest)))
    (hfront : front ≠ []) : Passes (String.ofList front) := by
  obtain ⟨-, hnull, hlong⟩ := h
  refine ⟨by simpa using hfront, fun hmem => ?_, ?_⟩
  · rw [String.toList_ofList] at hnull hmem
    exact hnull (List.mem_append_left rest hmem)
  · rw [String.ofList_append, String.utf8ByteSize_append] at hlong
    omega

theorem startOf_front {front rest : List Char} (hfront : front ≠ []) :
    d.startOf (String.ofList (front ++ rest)) = d.startOf (String.ofList front) := by
  rw [startOf, startOf, String.ofList_append, Path.isAbsolute_append (by simpa using hfront)]

/-- A path can only be followed through directories. -/
theorem isDirectoryAt_of_foldlM_pieces {text : String} {place p : List String}
    (h : (Text.pieces '/' text).foldlM d.stepTo place = .ok p) : d.isDirectoryAt place = true := by
  have hne : Text.pieces '/' text ≠ [] := by
    simp [Text.pieces, List.splitOn_ne_nil]
  cases hpieces : Text.pieces '/' text with
  | nil => exact absurd hpieces hne
  | cons name names =>
    rw [hpieces] at h
    obtain ⟨q, hstep, -⟩ := foldlM_stepTo_cons.1 h
    exact (stepTo_eq_ok_iff.1 hstep).1

/-- Whoever follows a path passes by the directory of each of its fronts. -/
theorem exists_of_locate_slash {front rest : List Char} {p : List String}
    (h : d.locate (String.ofList (front ++ '/' :: rest)) = .ok p) :
    ∃ place, (Text.pieces '/' (String.ofList front)).foldlM d.stepTo
      (d.startOf (String.ofList (front ++ '/' :: rest))) = .ok place ∧
        d.isDirectoryAt place = true := by
  obtain ⟨-, hfold⟩ := locate_eq_ok_iff.1 h
  rw [Text.pieces_append_cons] at hfold
  obtain ⟨place, hplace, hrest⟩ := foldlM_stepTo_append.1 hfold
  exact ⟨place, hplace, isDirectoryAt_of_foldlM_pieces hrest⟩

theorem isDirectory_of_locate_slash {front rest : List Char} {p : List String}
    (h : d.locate (String.ofList (front ++ '/' :: rest)) = .ok p) (hfront : front ≠ []) :
    d.isDirectory (String.ofList front) = true := by
  obtain ⟨place, hplace, hdirectory⟩ := exists_of_locate_slash h
  rw [startOf_front hfront] at hplace
  have hlocate : d.locate (String.ofList front) = .ok place :=
    locate_eq_ok_iff.2 ⟨(locate_eq_ok_iff.1 h).1.front hfront, hplace⟩
  exact isDirectory_iff.2 ⟨place, lookup_eq_ok_iff.2 ⟨hlocate, isDirectoryAt_iff.1 hdirectory⟩⟩

/-- So it does with a slash at the end of the front. -/
theorem isDirectory_of_locate_slash' {front rest : List Char} {p : List String}
    (h : d.locate (String.ofList (front ++ '/' :: rest)) = .ok p) :
    d.isDirectory (String.ofList (front ++ ['/'])) = true := by
  obtain ⟨place, hplace, hdirectory⟩ := exists_of_locate_slash h
  have hne : front ++ ['/'] ≠ [] := by simp
  have hsplit : front ++ '/' :: rest = front ++ ['/'] ++ rest := by simp
  rw [hsplit, startOf_front hne] at hplace
  rw [hsplit] at h
  have hhere : d.stepTo place "" = .ok place :=
    stepTo_eq_ok_iff.2 ⟨hdirectory, rfl, Or.inl rfl⟩
  have hlocate : d.locate (String.ofList (front ++ ['/'])) = .ok place := by
    refine locate_eq_ok_iff.2 ⟨(locate_eq_ok_iff.1 h).1.front hne, ?_⟩
    rw [Text.pieces_append_cons]
    exact foldlM_stepTo_append.2 ⟨place, hplace, foldlM_stepTo_cons.2 ⟨place, hhere, rfl⟩⟩
  exact isDirectory_iff.2 ⟨place, lookup_eq_ok_iff.2 ⟨hlocate, isDirectoryAt_iff.1 hdirectory⟩⟩

/-- A directory above a path is what comes before a slash that more than slashes follow. -/
theorem exists_of_mem_ancestorsOf {front rest : List Char} {path : String}
    (h : path ∈ Path.ancestorsOf front rest) :
    ∃ cut after, path = String.ofList cut ∧ cut ≠ [] ∧ front ++ rest = cut ++ '/' :: after ∧
      after.all (· == '/') = false := by
  induction rest generalizing front with
  | nil => simp [Path.ancestorsOf] at h
  | cons c rest ih =>
    have hshift : front ++ c :: rest = front ++ [c] ++ rest := by simp
    -- a slash may end an ancestor; any other character belongs to the name before it
    by_cases hc : c = '/'
    · subst hc
      simp only [Path.ancestorsOf] at h
      split_ifs at h with hskip
      · rw [hshift]
        exact ih h
      · rcases List.mem_cons.1 h with rfl | h
        · simp only [Bool.or_eq_true, not_or, Bool.not_eq_true] at hskip
          refine ⟨front, rest, rfl, ?_, rfl, hskip.2⟩
          rintro rfl
          simp at hskip
        · rw [hshift]
          exact ih h
    · have hstep : Path.ancestorsOf front (c :: rest) = Path.ancestorsOf (front ++ [c]) rest := by
        rw [Path.ancestorsOf]
        exact hc
      rw [hstep] at h
      rw [hshift]
      exact ih h

theorem isDirectory_of_mem_ancestors {path above : String} {p : List String}
    (h : d.locate path = .ok p) (habove : above ∈ Path.ancestors path) :
    d.isDirectory above = true := by
  obtain ⟨cut, after, rfl, hcut, hpath, -⟩ := exists_of_mem_ancestorsOf habove
  have hwhole : path = String.ofList (cut ++ '/' :: after) := by
    rw [← hpath, List.nil_append, String.ofList_toList]
  rw [hwhole] at h
  exact isDirectory_of_locate_slash h hcut

/-- The text up to the last slash is empty, or that slash ends it. -/
theorem splitLast_front_cases (path : String) :
    (Path.splitLast path).1 = [] ∨ ∃ before name, (Path.splitLast path).1 = before ++ ['/'] ∧
      path.toList = before ++ '/' :: name := by
  generalize hr : path.toList.reverse = reversed
  have hpath : path.toList =
      (reversed.dropWhile (· != '/')).reverse ++ (reversed.takeWhile (· != '/')).reverse := by
    rw [← List.reverse_append, List.takeWhile_append_dropWhile, ← hr, List.reverse_reverse]
  have hfront : (Path.splitLast path).1 = (reversed.dropWhile (· != '/')).reverse := by
    rw [Path.splitLast, hr, hpath]
    simp
  rw [hfront]
  cases hdrop : reversed.dropWhile (· != '/') with
  | nil => exact Or.inl rfl
  | cons c before =>
    obtain rfl : c = '/' := by
      have hhead := List.head_dropWhile_not (· != '/') (l := reversed) (by simp [hdrop])
      simpa [hdrop] using hhead
    refine Or.inr ⟨before.reverse, (reversed.takeWhile (· != '/')).reverse, List.reverse_cons, ?_⟩
    rw [hpath, hdrop]
    simp

/-- The directory of a path comes before a slash, or it is made of slashes only. -/
theorem exists_of_directory {path : String} (h : Path.directory path ≠ "") :
    ∃ front rest, path = String.ofList (front ++ '/' :: rest) ∧
      ((front ≠ [] ∧ Path.directory path = String.ofList front) ∨
        Path.directory path = String.ofList (front ++ ['/'])) := by
  rcases splitLast_front_cases path with hfront | ⟨before, name, hfront, hpath⟩
  · refine absurd ?_ h
    rw [Path.directory, hfront]
    rfl
  have hwhole : path = String.ofList (before ++ '/' :: name) := by
    rw [← hpath, String.ofList_toList]
  by_cases hall : before.all (· == '/') = true
  · refine ⟨before, name, hwhole, Or.inr ?_⟩
    rw [Path.directory, hfront]
    simp [hall]
  · -- all slashes at the end of the front may follow the directory
    obtain ⟨k, hk⟩ := Text.exists_dropped_end '/' before
    have hslashes : List.replicate k '/' ++ '/' :: name = '/' :: (List.replicate k '/' ++ name) := by
      rw [← List.singleton_append, ← List.append_assoc, ← List.replicate_succ',
        List.replicate_succ, List.cons_append]
    refine ⟨(before.reverse.dropWhile (· == '/')).reverse, List.replicate k '/' ++ name, ?_,
      Or.inl ⟨?_, ?_⟩⟩
    · rw [hwhole, ← hslashes, ← List.append_assoc, ← hk]
    · intro hnil
      rw [List.reverse_eq_nil_iff, List.dropWhile_eq_nil_iff] at hnil
      exact hall (List.all_eq_true.2 fun c hc => hnil c (List.mem_reverse.2 hc))
    · rw [Path.directory, hfront]
      simp [hall]

/-! ## Making directories -/

theorem foldlM_makeMissing_of_isThere {paths : List String}
    (h : ∀ path ∈ paths, d.isThere path = true) : paths.foldlM makeMissing d = .ok d := by
  induction paths with
  | nil => rfl
  | cons path rest ih =>
    rw [List.foldlM_cons, makeMissing, if_pos (h path List.mem_cons_self)]
    exact ih fun p hp => h p (List.mem_cons_of_mem path hp)

/-- Making a directory that is there changes nothing. -/
theorem makeDirectories_of_isDirectory {path : String} (h : d.isDirectory path = true) :
    d.makeDirectories path = .ok d := by
  obtain ⟨place, hlookup⟩ := isDirectory_iff.1 h
  have habove : (Path.ancestors path).foldlM makeMissing d = .ok d :=
    foldlM_makeMissing_of_isThere fun above habove => isThere_of_isDirectory
      (isDirectory_of_mem_ancestors (lookup_eq_ok_iff.1 hlookup).1 habove)
  simp [makeDirectories, habove, bind, Except.bind, h]

/-- The directories of a path that can be followed are there. -/
theorem makeDirectories_of_locate {path : String} {place : List String}
    (h : d.locate path = .ok place) (hne : Path.directory path ≠ "") :
    d.makeDirectories (Path.directory path) = .ok d := by
  refine makeDirectories_of_isDirectory ?_
  obtain ⟨front, rest, hpath, hdirectory⟩ := exists_of_directory hne
  rw [hpath] at h
  rcases hdirectory with ⟨hfront, hdirectory⟩ | hdirectory
  · rw [hdirectory]
    exact isDirectory_of_locate_slash h hfront
  · rw [hdirectory]
    exact isDirectory_of_locate_slash' h

/-- So are those of a file that can be read. -/
theorem makeDirectories_of_read {path : String} {bytes : ByteArray}
    (h : d.read path = .ok bytes) (hne : Path.directory path ≠ "") :
    d.makeDirectories (Path.directory path) = .ok d :=
  makeDirectories_of_locate (read_eq_ok_iff.1 h).1 hne

/-- Slashes at the end do not matter for what is above a path. -/
theorem isDirectory_of_mem_ancestors_of_withoutFinalSlashes {path above : String} {p : List String}
    (h : d.locate (Path.withoutFinalSlashes path) = .ok p) (habove : above ∈ Path.ancestors path) :
    d.isDirectory above = true := by
  obtain ⟨cut, after, rfl, hcut, hpath, hafter⟩ := exists_of_mem_ancestorsOf habove
  rw [List.nil_append] at hpath
  have hkept : (after.reverse.dropWhile (· == '/')).isEmpty = false := by
    rw [Bool.eq_false_iff, ne_eq, List.isEmpty_iff, List.dropWhile_eq_nil_iff]
    intro hall
    rw [List.all_eq_true.2 fun c hc => hall c (List.mem_reverse.2 hc)] at hafter
    cases hafter
  have hwhole : Path.withoutFinalSlashes path =
      String.ofList (cut ++ '/' :: (after.reverse.dropWhile (· == '/')).reverse) := by
    rw [Path.withoutFinalSlashes, hpath]
    simp [List.dropWhile_append, hkept]
  rw [hwhole] at h
  exact isDirectory_of_locate_slash h hcut

/-- What was made is a directory. -/
theorem exists_of_makeDirectory {path : String} (h : d.makeDirectory path = .ok d') :
    ∃ place, d'.locate (Path.withoutFinalSlashes path) = .ok place ∧
      d'.isDirectoryAt place = true := by
  have hk := keeps_makeDirectory h
  unfold makeDirectory at h
  split at h
  · cases h
  · next place hlocate =>
    split at h
    · cases h
    · next hnone =>
      have hroot : place ≠ [] := by
        rintro rfl
        simp [entryAt?] at hnone
      refine ⟨place, hk.locate hlocate, ?_⟩
      cases h
      rw [isDirectoryAt_iff, entryAt?_set _ hroot, if_pos rfl]

/-- Making directories that were made before changes nothing, if it succeeds. -/
theorem makeDirectories_again {path : String} {made : Disk} (h : d.makeDirectories path = .ok d')
    (hk : d'.Keeps S d'') (h' : d''.makeDirectories path = .ok made) : made = d'' := by
  unfold makeDirectories at h
  cases hfold : (Path.ancestors path).foldlM makeMissing d with
  | error e => simp [hfold, bind, Except.bind] at h
  | ok above =>
    simp only [hfold, bind, Except.bind] at h
    split_ifs at h with hthere
    · cases h
      rw [makeDirectories_of_isDirectory (hk.isDirectory hthere)] at h'
      exact (Except.ok.inj h').symm
    · obtain ⟨place, hlocate, hplace⟩ := exists_of_makeDirectory h
      have hlocate' := hk.locate hlocate
      have habove : (Path.ancestors path).foldlM makeMissing d'' = .ok d'' :=
        foldlM_makeMissing_of_isThere fun above habove => isThere_of_isDirectory
          (isDirectory_of_mem_ancestors_of_withoutFinalSlashes hlocate' habove)
      have hentry := isDirectoryAt_iff.1 (hk.directory place hplace)
      simp only [makeDirectories, habove, bind, Except.bind, makeDirectory, hlocate', hentry] at h'
      split_ifs at h'
      exact (Except.ok.inj h').symm

/-- The directories of a path were made at some time. -/
def Made (path : String) (d : Disk) : Prop :=
  ∃ old made : Disk, old.makeDirectories path = .ok made ∧ made.Keeps (fun _ => False) d

theorem Keeps.made (h : d.Keeps S d') {path : String} (hd : d.Made path) : d'.Made path := by
  obtain ⟨old, made, hmade, hk⟩ := hd
  exact ⟨old, made, hmade, hk.trans (h.mono fun _ hfalse => hfalse.elim)⟩

theorem Made.again {path : String} (h : d.Made path) (hmake : d.makeDirectories path = .ok d') :
    d' = d := by
  obtain ⟨old, made, hmade, hk⟩ := h
  exact makeDirectories_again hmade hk hmake

/-! ## Writing -/

/-- Whether a file can be written. -/
def isWritable (d : Disk) (path : String) : Bool :=
  (d.writablePlace path).isOk

/-- A file can be written when its path can be followed and does not lead to a directory. -/
theorem isWritable_iff {path : String} :
    d.isWritable path = true ↔
      d.locate path = .ok (d.placeOf path) ∧ d.isDirectoryAt (d.placeOf path) = false := by
  unfold isWritable writablePlace
  cases hlocate : d.locate path with
  | error cause => simp [bind, Except.bind, Except.isOk, Except.toBool]
  | ok place =>
    obtain rfl := locate_eq_ok hlocate
    unfold isDirectoryAt
    rcases hentry : d.entryAt? (d.placeOf path) with _ | (_ | _) <;>
      simp [bind, Except.bind, Except.isOk, Except.toBool, hentry]

theorem exists_write {path : String} (h : d.isWritable path = true) (bytes : ByteArray) :
    ∃ d', d.write path bytes = .ok d' := by
  unfold isWritable at h
  unfold write
  cases hplace : d.writablePlace path with
  | error cause =>
    rw [hplace] at h
    cases h
  | ok place => exact ⟨_, rfl⟩

/-- A file that can be read can be written. -/
theorem isWritable_of_read {path : String} {bytes : ByteArray} (h : d.read path = .ok bytes) :
    d.isWritable path = true := by
  obtain ⟨hlocate, hfile⟩ := read_eq_ok_iff.1 h
  refine isWritable_iff.2 ⟨hlocate, ?_⟩
  simp only [isDirectoryAt, fileAt?_eq_some_iff.1 hfile]

theorem exists_write_of_read {path : String} {old : ByteArray} (h : d.read path = .ok old)
    (bytes : ByteArray) : ∃ d', d.write path bytes = .ok d' :=
  exists_write (isWritable_of_read h) bytes

/-- Writing one file does not stand in the way of another. -/
theorem isWritable_write {path other : String} {bytes : ByteArray}
    (hpath : d.isWritable path = true) (h : d.write other bytes = .ok d') :
    d'.isWritable path = true := by
  obtain ⟨hlocate, hfree⟩ := isWritable_iff.1 hpath
  have hkeeps := keeps_write h
  have hroot := placeOf_ne_nil_of_write h
  obtain ⟨-, -, rfl⟩ := write_eq_ok h
  rw [isWritable_iff, hkeeps.placeOf]
  refine ⟨hkeeps.locate hlocate, ?_⟩
  unfold isDirectoryAt at hfree ⊢
  rw [entryAt?_set _ hroot]
  split_ifs
  · rfl
  · exact hfree

/-- Nor does it take the place of a file that can be read. -/
theorem exists_read_write {path other : String} {old bytes : ByteArray}
    (hread : d.read path = .ok old) (h : d.write other bytes = .ok d') :
    ∃ new, d'.read path = .ok new := by
  have hkeeps := keeps_write h
  by_cases hplace : d.placeOf path = d.placeOf other
  · refine ⟨bytes, read_eq_ok_iff.2 ?_⟩
    rw [hkeeps.placeOf, hplace]
    exact ⟨hplace ▸ hkeeps.locate (read_eq_ok_iff.1 hread).1, fileAt?_write h⟩
  · exact ⟨old, hkeeps.read hplace hread⟩

/-- Writing what a file holds changes nothing. -/
theorem write_same {path : String} {bytes : ByteArray} (h : d.read path = .ok bytes) :
    d.write path bytes = .ok d := by
  obtain ⟨d', hwrite⟩ := exists_write_of_read h bytes
  have hroot := placeOf_ne_nil_of_write hwrite
  obtain ⟨-, -, rfl⟩ := write_eq_ok hwrite
  have hentry := fileAt?_eq_some_iff.1 (read_eq_ok_iff.1 h).2
  rw [entryAt?, if_neg hroot] at hentry
  rw [hwrite, Assoc.set_of_get? hentry]

end ThemeLocales.Disk
