import ThemeLocales.Proofs.Disk.Repeat

/-!
# What a path text looks at

Whoever follows a path text looks at the places on its way, from the one at which it begins to the
one that it names (`Way`). Two disks may have the same entries at some places (`SameAt`). No path
whose way keeps to those places tells them apart: it leads to the same place, names the same thing,
is read with the same bytes and refused for the same cause (`SameAt.locate`, `SameAt.lookup`,
`SameAt.read`). What is written through such a path, or made of directories, leaves the two disks
the same at those places, if it is not refused on both (`Alike`, `SameAt.write`,
`SameAt.makeDirectories`).
-/

set_option autoImplicit false

namespace ThemeLocales.Disk

/-- The places on the way of a path text, the one that it names included. -/
def Way (d : Disk) (path : String) (place : List String) : Prop :=
  ∃ front rest, Text.pieces '/' path = front ++ rest ∧
    place = front.foldl stepPlace (d.startOf path)

/-- The way of a path text keeps to some places. The empty text has no way: it is always refused. -/
def Sees (P : List String → Prop) (d : Disk) (path : String) : Prop :=
  path ≠ "" → ∀ place, d.Way path place → P place

/-- Two disks have the same entries at some places. -/
structure SameAt (P : List String → Prop) (d d' : Disk) : Prop where
  workingDirectory : d'.workingDirectory = d.workingDirectory
  entry : ∀ place, P place → d'.entryAt? place = d.entryAt? place

variable {P : List String → Prop} {d d' d'' : Disk} {path : String}

theorem SameAt.refl (P : List String → Prop) (d : Disk) : d.SameAt P d :=
  ⟨rfl, fun _ _ => rfl⟩

theorem SameAt.trans (h : d.SameAt P d') (h' : d'.SameAt P d'') : d.SameAt P d'' :=
  ⟨h'.workingDirectory.trans h.workingDirectory,
    fun place hplace => (h'.entry place hplace).trans (h.entry place hplace)⟩

theorem SameAt.placeOf (h : d.SameAt P d') (path : String) : d'.placeOf path = d.placeOf path := by
  simp only [Disk.placeOf, h.workingDirectory]

theorem SameAt.fileAt? (h : d.SameAt P d') {place : List String} (hplace : P place) :
    d'.fileAt? place = d.fileAt? place := by
  rw [Disk.fileAt?, Disk.fileAt?, h.entry place hplace]

/-- The place that a path names lies at the end of its way. -/
theorem way_placeOf (d : Disk) (path : String) : d.Way path (d.placeOf path) :=
  ⟨Text.pieces '/' path, [], (List.append_nil _).symm, rfl⟩

theorem way_congr (h : d'.workingDirectory = d.workingDirectory) (path : String) :
    d'.Way path = d.Way path := by
  funext place
  rw [Way, Way, startOf, startOf, h]

theorem sees_congr (h : d'.workingDirectory = d.workingDirectory) :
    Sees P d' path ↔ Sees P d path := by
  rw [Sees, Sees, way_congr h]

theorem Sees.placeOf (h : Sees P d path) (hne : path ≠ "") : P (d.placeOf path) :=
  h hne _ (way_placeOf d path)

/-! ## Following a path -/

theorem SameAt.foldlM_stepTo (h : d.SameAt P d') {names place : List String}
    (hway : ∀ front rest, names = front ++ rest → P (front.foldl stepPlace place)) :
    names.foldlM d'.stepTo place = names.foldlM d.stepTo place := by
  induction names generalizing place with
  | nil => rfl
  | cons name rest ih =>
    have hstep : d'.stepTo place name = d.stepTo place name := by
      simp only [stepTo, h.entry place (hway [] _ rfl)]
    rw [List.foldlM_cons, List.foldlM_cons, hstep]
    cases hq : d.stepTo place name with
    | error cause => rfl
    | ok q =>
      obtain rfl := (stepTo_eq_ok_iff.1 hq).2.1
      refine ih fun front more hsplit => ?_
      exact hway (name :: front) more (by rw [hsplit]; rfl)

theorem SameAt.locate (h : d.SameAt P d') (hsees : Sees P d path) :
    d'.locate path = d.locate path := by
  by_cases hempty : path = ""
  · simp [Disk.locate, hempty]
  · have hfold : (Text.pieces '/' path).foldlM d'.stepTo (d.startOf path) =
        (Text.pieces '/' path).foldlM d.stepTo (d.startOf path) := by
      refine h.foldlM_stepTo fun front rest hsplit => ?_
      exact hsees hempty _ ⟨front, rest, hsplit, rfl⟩
    rw [startOf] at hfold
    simp only [Disk.locate, h.workingDirectory, hfold]

/-- What stands where a path leads is the same too. -/
theorem SameAt.entry_of_locate (h : d.SameAt P d') (hsees : Sees P d path) {place : List String}
    (hlocate : d.locate path = .ok place) : d'.entryAt? place = d.entryAt? place := by
  have hne : path ≠ "" := (locate_eq_ok_iff.1 hlocate).1.1
  rw [locate_eq_ok hlocate]
  exact h.entry _ (hsees.placeOf hne)

theorem SameAt.lookup (h : d.SameAt P d') (hsees : Sees P d path) :
    d'.lookup path = d.lookup path := by
  rw [Disk.lookup, Disk.lookup, h.locate hsees]
  cases hlocate : d.locate path with
  | error cause => rfl
  | ok place =>
    simp only [bind, Except.bind, h.entry_of_locate hsees hlocate]

theorem SameAt.isThere (h : d.SameAt P d') (hsees : Sees P d path) :
    d'.isThere path = d.isThere path := by
  rw [Disk.isThere, Disk.isThere, h.lookup hsees]

theorem SameAt.isDirectory (h : d.SameAt P d') (hsees : Sees P d path) :
    d'.isDirectory path = d.isDirectory path := by
  rw [Disk.isDirectory, Disk.isDirectory, h.lookup hsees]

theorem SameAt.read (h : d.SameAt P d') (hsees : Sees P d path) :
    d'.read path = d.read path := by
  rw [Disk.read, Disk.read, h.lookup hsees]

/-! ## Paths on the way of a path -/

/-- Every place on the way of one path text is on the way of another, wherever they are followed. -/
def OnWay (above path : String) : Prop :=
  ∀ d place, Way d above place → Way d path place

theorem Sees.of_onWay (h : Sees P d path) {above : String} (habove : OnWay above path)
    (hne : path ≠ "") : Sees P d above :=
  fun _ place hplace => h hne place (habove d place hplace)

/-- What comes before a slash is on the way. -/
theorem onWay_front {front rest : List Char} (hfront : front ≠ []) :
    OnWay (String.ofList front) (String.ofList (front ++ '/' :: rest)) := by
  rintro d place ⟨names, more, hsplit, rfl⟩
  refine ⟨names, more ++ Text.pieces '/' (String.ofList rest), ?_, ?_⟩
  · rw [Text.pieces_append_cons, hsplit, List.append_assoc]
  · rw [startOf_front hfront]

/-- A slash at the end of a path adds no place to its way. -/
theorem way_slash {front : List Char} {place : List String}
    (h : d.Way (String.ofList (front ++ ['/'])) place) :
    ∃ names more, Text.pieces '/' (String.ofList front) = names ++ more ∧
      place = names.foldl stepPlace (d.startOf (String.ofList (front ++ ['/']))) := by
  obtain ⟨names, more, hsplit, rfl⟩ := h
  rw [Text.pieces_append_cons] at hsplit
  have hlast : Text.pieces '/' (String.ofList []) = [""] := by decide
  rw [hlast] at hsplit
  rcases List.eq_nil_or_concat more with rfl | ⟨more', last, rfl⟩
  · -- All names were followed, and the empty one at the end stays where it is.
    rw [List.append_nil] at hsplit
    refine ⟨_, [], (List.append_nil _).symm, ?_⟩
    rw [← hsplit, List.foldl_append]
    rfl
  · rw [List.concat_eq_append, ← List.append_assoc] at hsplit
    exact ⟨names, more', List.append_inj_left' hsplit rfl, rfl⟩

theorem onWay_front_slash (front rest : List Char) :
    OnWay (String.ofList (front ++ ['/'])) (String.ofList (front ++ '/' :: rest)) := by
  intro d place hplace
  obtain ⟨names, more, hsplit, rfl⟩ := way_slash hplace
  have hwhole : front ++ '/' :: rest = front ++ ['/'] ++ rest := by simp
  refine ⟨names, more ++ Text.pieces '/' (String.ofList rest), ?_, ?_⟩
  · rw [Text.pieces_append_cons, hsplit, List.append_assoc]
  · have hstart : d.startOf (String.ofList (front ++ '/' :: rest)) =
        d.startOf (String.ofList (front ++ ['/'])) := by
      rw [hwhole]
      exact startOf_front (List.append_ne_nil_of_right_ne_nil front (List.cons_ne_nil '/' []))
    rw [hstart]

/-- The directory of a path is on its way. -/
theorem onWay_directory (h : Path.directory path ≠ "") : OnWay (Path.directory path) path := by
  obtain ⟨front, rest, hpath, ⟨hfront, hdirectory⟩ | hdirectory⟩ := exists_of_directory h
  · rw [hdirectory]
    conv in OnWay _ path => rw [hpath]
    exact onWay_front hfront
  · rw [hdirectory]
    conv in OnWay _ path => rw [hpath]
    exact onWay_front_slash front rest

/-- The directories above a path are on its way. -/
theorem onWay_of_mem_ancestors {above : String} (h : above ∈ Path.ancestors path) :
    OnWay above path := by
  obtain ⟨cut, after, rfl, hcut, hpath, -⟩ := exists_of_mem_ancestorsOf h
  have hwhole : path = String.ofList (cut ++ '/' :: after) := by
    rw [← hpath, List.nil_append, String.ofList_toList]
  rw [hwhole]
  exact onWay_front hcut

/-- A path without its last slashes is on the way of the path, if anything is left of it. -/
theorem onWay_withoutFinalSlashes (h : Path.withoutFinalSlashes path ≠ "") :
    OnWay (Path.withoutFinalSlashes path) path := by
  obtain ⟨k, hpath⟩ := Text.exists_dropped_end '/' path.toList
  rw [Path.withoutFinalSlashes] at h ⊢
  generalize (path.toList.reverse.dropWhile (· == '/')).reverse = front at h hpath ⊢
  have hne : front ≠ [] := fun hnil => h (by rw [hnil])
  cases k with
  | zero =>
    rw [List.replicate_zero, List.append_nil] at hpath
    rw [← hpath, String.ofList_toList]
    exact fun _ _ hplace => hplace
  | succ k =>
    have hwhole : path = String.ofList (front ++ '/' :: List.replicate k '/') := by
      rw [← List.replicate_succ, ← hpath, String.ofList_toList]
    rw [hwhole]
    exact onWay_front hne

theorem Sees.withoutFinalSlashes (h : Sees P d path) :
    Sees P d (Path.withoutFinalSlashes path) := by
  intro hne
  have hpath : path ≠ "" := by
    rintro rfl
    exact hne (by decide)
  exact h.of_onWay (onWay_withoutFinalSlashes hne) hpath hne

theorem Sees.ancestor (h : Sees P d path) {above : String} (habove : above ∈ Path.ancestors path) :
    Sees P d above := by
  refine h.of_onWay (onWay_of_mem_ancestors habove) ?_
  rintro rfl
  exact absurd habove List.not_mem_nil

theorem Sees.directory (h : Sees P d path) (hne : Path.directory path ≠ "") :
    Sees P d (Path.directory path) := by
  refine h.of_onWay (onWay_directory hne) ?_
  rintro rfl
  exact hne (by decide)

/-! ## Changing both disks -/

/-- A change was refused on two disks for one reason, or it left them the same at some places. -/
inductive Alike (P : List String → Prop) : Except Refusal Disk → Except Refusal Disk → Prop
  | ok {d d' : Disk} : d.SameAt P d' → Alike P (.ok d) (.ok d')
  | refused (refusal : Refusal) : Alike P (.error refusal) (.error refusal)

/-- The same entry set at the same place. -/
theorem SameAt.set (h : d.SameAt P d') {place : List String} (entry : DiskEntry)
    (hplace : place ≠ []) : SameAt P { d with entries := Assoc.set place entry d.entries }
      { d' with entries := Assoc.set place entry d'.entries } := by
  refine ⟨h.workingDirectory, fun other hother => ?_⟩
  rw [entryAt?_set entry hplace, entryAt?_set entry hplace, h.entry other hother]

/-- Whether a file can be written is seen on the way of its path. -/
theorem SameAt.writablePlace (h : d.SameAt P d') (hsees : Sees P d path) :
    d'.writablePlace path = d.writablePlace path := by
  rw [Disk.writablePlace, Disk.writablePlace, h.locate hsees]
  cases hlocate : d.locate path with
  | error cause => rfl
  | ok place =>
    simp only [bind, Except.bind, h.entry_of_locate hsees hlocate]

/-- The root is a directory and no place for a file. -/
theorem ne_nil_of_writablePlace {place : List String} (h : d.writablePlace path = .ok place) :
    place ≠ [] := by
  rintro rfl
  rw [writablePlace] at h
  cases hlocate : d.locate path with
  | error cause => simp [hlocate, bind, Except.bind] at h
  | ok place =>
    simp only [hlocate, bind, Except.bind] at h
    split at h
    · cases h
    · next hentry =>
      cases h
      exact hentry rfl

theorem SameAt.write (h : d.SameAt P d') (hsees : Sees P d path) (bytes : ByteArray) :
    Alike P (d.write path bytes) (d'.write path bytes) := by
  rw [Disk.write, Disk.write, h.writablePlace hsees]
  cases hplace : d.writablePlace path with
  | error cause => exact .refused _
  | ok place => exact .ok (h.set _ (ne_nil_of_writablePlace hplace))

/-- Whether a file can be written does not depend on its bytes. -/
theorem write_eq_error {refusal : Refusal} {bytes : ByteArray}
    (h : d.write path bytes = .error refusal) (other : ByteArray) :
    d.write path other = .error refusal := by
  rw [Disk.write] at h ⊢
  split at h
  · cases h
  · exact h

theorem SameAt.makeDirectory (h : d.SameAt P d') (hsees : Sees P d path) :
    Alike P (d.makeDirectory path) (d'.makeDirectory path) := by
  have hsees' := hsees.withoutFinalSlashes
  rw [Disk.makeDirectory, Disk.makeDirectory, h.locate hsees']
  cases hlocate : d.locate (Path.withoutFinalSlashes path) with
  | error cause => exact .refused _
  | ok place =>
    simp only [h.entry_of_locate hsees' hlocate]
    cases hentry : d.entryAt? place with
    | some entry => exact .refused _
    | none =>
      refine .ok (h.set _ ?_)
      rintro rfl
      simp [entryAt?] at hentry

theorem SameAt.makeMissing (h : d.SameAt P d') (hsees : Sees P d path) :
    Alike P (d.makeMissing path) (d'.makeMissing path) := by
  rw [Disk.makeMissing, Disk.makeMissing, h.isThere hsees]
  split_ifs
  · exact .ok h
  · exact h.makeDirectory hsees

theorem SameAt.foldlM_makeMissing (h : d.SameAt P d') (paths : List String)
    (hsees : ∀ path ∈ paths, Sees P d path) :
    Alike P (paths.foldlM Disk.makeMissing d) (paths.foldlM Disk.makeMissing d') := by
  induction paths generalizing d d' with
  | nil => exact .ok h
  | cons path rest ih =>
    rw [List.foldlM_cons, List.foldlM_cons]
    have hfirst := h.makeMissing (hsees path List.mem_cons_self)
    generalize hmade : d.makeMissing path = x at hfirst ⊢
    generalize d'.makeMissing path = x' at hfirst ⊢
    cases hfirst with
    | refused refusal => exact .refused refusal
    | ok h' =>
      -- The ways of the other paths are still the same.
      have hkept := (keeps_makeMissing hmade).workingDirectory
      refine ih h' fun other hother => ?_
      exact (sees_congr hkept).2 (hsees other (List.mem_cons_of_mem path hother))

theorem SameAt.makeDirectories (h : d.SameAt P d') (hsees : Sees P d path) :
    Alike P (d.makeDirectories path) (d'.makeDirectories path) := by
  rw [Disk.makeDirectories, Disk.makeDirectories]
  have habove := h.foldlM_makeMissing (Path.ancestors path) fun _ hmem => hsees.ancestor hmem
  generalize hmade : (Path.ancestors path).foldlM Disk.makeMissing d = x at habove ⊢
  generalize (Path.ancestors path).foldlM Disk.makeMissing d' = x' at habove ⊢
  cases habove with
  | refused refusal => exact .refused refusal
  | ok h' =>
    have hsees' := (sees_congr (keeps_foldlM_makeMissing hmade).workingDirectory).2 hsees
    change Alike P (if _ then _ else _) (if _ then _ else _)
    rw [h'.isDirectory hsees']
    split_ifs
    · exact .ok h'
    · exact h'.makeDirectory hsees'

/-- A line at the end of a file is not seen at any other place. -/
theorem sameAt_appendLine {line : String} (h : ¬ P (d.placeOf path)) :
    d.SameAt P (d.appendLine path line) := by
  unfold appendLine
  split
  · exact .refl P d
  · next bytes _ =>
    cases hwrite : d.write path (bytes ++ (line ++ "\n").toUTF8) with
    | error => exact .refl P d
    | ok d' =>
      have hroot := placeOf_ne_nil_of_write hwrite
      obtain ⟨-, -, rfl⟩ := write_eq_ok hwrite
      refine ⟨rfl, fun place hplace => ?_⟩
      refine (entryAt?_set _ hroot).trans (if_neg ?_)
      rintro rfl
      exact h hplace

end ThemeLocales.Disk
