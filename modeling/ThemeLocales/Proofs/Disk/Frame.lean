import ThemeLocales.Disk.Basic
import Mathlib.Tactic.SplitIfs

/-!
# What a change of a disk leaves alone

Every path text names one place, whatever stands on the way (`placeOf`); a disk may refuse to go
there. A disk keeps a set of places when the files at those places, and every directory, are as they
were: `Keeps`. Writing a file keeps every other place, and making directories keeps all of them.
What was found before such a change is found after it.
-/

set_option autoImplicit false

namespace ThemeLocales.Disk

/-- The bytes of the file that stands at a place. -/
def fileAt? (d : Disk) (place : List String) : Option ByteArray :=
  match d.entryAt? place with
  | some (.file bytes) => some bytes
  | _ => none

/-- The place that a name leads to from a directory. -/
def stepPlace (place : List String) (name : String) : List String :=
  if name = "" || name = "." then place
  else if name = ".." then place.dropLast
  else place ++ [name]

/-- The place that a path text names. -/
def placeOf (d : Disk) (path : String) : List String :=
  (Text.pieces '/' path).foldl stepPlace
    (if Path.isAbsolute path then [] else d.workingDirectory)

/-- A disk after a change has the files at some places and all directories of the disk before it. A
directory lists the same files when all places below it are among those. -/
structure Keeps (S : List String → Prop) (d d' : Disk) : Prop where
  workingDirectory : d'.workingDirectory = d.workingDirectory
  directory : ∀ place, d.isDirectoryAt place = true → d'.isDirectoryAt place = true
  file : ∀ place, S place → d'.fileAt? place = d.fileAt? place
  listing : ∀ base, (∀ names, S (base ++ names)) → d'.filesBelow base = d.filesBelow base

variable {S : List String → Prop} {d d' d'' : Disk}

theorem Keeps.refl (S : List String → Prop) (d : Disk) : d.Keeps S d :=
  ⟨rfl, fun _ h => h, fun _ _ => rfl, fun _ _ => rfl⟩

theorem Keeps.trans (h : d.Keeps S d') (h' : d'.Keeps S d'') : d.Keeps S d'' where
  workingDirectory := h'.workingDirectory.trans h.workingDirectory
  directory place hp := h'.directory place (h.directory place hp)
  file place hp := (h'.file place hp).trans (h.file place hp)
  listing base hb := (h'.listing base hb).trans (h.listing base hb)

theorem Keeps.mono {T : List String → Prop} (h : d.Keeps S d') (hT : ∀ place, T place → S place) :
    d.Keeps T d' :=
  ⟨h.workingDirectory, h.directory, fun place hp => h.file place (hT place hp),
    fun base hb => h.listing base fun names => hT _ (hb names)⟩

theorem Keeps.placeOf (h : d.Keeps S d') (path : String) : d'.placeOf path = d.placeOf path := by
  simp only [Disk.placeOf, h.workingDirectory]

/-! ## Places and path texts -/

theorem isDirectoryAt_iff {place : List String} :
    d.isDirectoryAt place = true ↔ d.entryAt? place = some .directory := by
  unfold isDirectoryAt
  split <;> simp_all

theorem fileAt?_eq_some_iff {place : List String} {bytes : ByteArray} :
    d.fileAt? place = some bytes ↔ d.entryAt? place = some (.file bytes) := by
  unfold fileAt?
  split <;> simp_all

theorem stepTo_eq_ok_iff {place p : List String} {name : String} :
    d.stepTo place name = .ok p ↔
      d.isDirectoryAt place = true ∧ p = stepPlace place name ∧
        (name = "" ∨ name = "." ∨ name = ".." ∨ name.utf8ByteSize ≤ 255) := by
  rw [isDirectoryAt_iff]
  unfold stepTo stepPlace
  rcases hentry : d.entryAt? place with _ | (_ | _)
  · simp
  · simp
  · simp only [true_and]
    by_cases hhere : (name = "" || name = ".") = true
    · have hname : name = "" ∨ name = "." := by simpa using hhere
      rw [if_pos hhere, if_pos hhere, Except.ok.injEq]
      exact ⟨fun h => ⟨h.symm, hname.imp_right Or.inl⟩, fun h => h.1.symm⟩
    · have hname : name ≠ "" ∧ name ≠ "." := by simpa using hhere
      rw [if_neg hhere, if_neg hhere]
      by_cases hup : name = ".."
      · rw [if_pos hup, if_pos hup, Except.ok.injEq]
        exact ⟨fun h => ⟨h.symm, Or.inr (Or.inr (Or.inl hup))⟩, fun h => h.1.symm⟩
      · rw [if_neg hup, if_neg hup]
        by_cases hlong : 255 < name.utf8ByteSize
        · rw [if_pos hlong]
          simp [hname.1, hname.2, hup, hlong]
        · rw [if_neg hlong, Except.ok.injEq]
          have hshort := Nat.not_lt.1 hlong
          exact ⟨fun h => ⟨h.symm, Or.inr (Or.inr (Or.inr hshort))⟩, fun h => h.1.symm⟩

/-- Names are followed one after the other. -/
theorem foldlM_stepTo_cons {name : String} {names : List String} {place p : List String} :
    (name :: names).foldlM d.stepTo place = .ok p ↔
      ∃ q, d.stepTo place name = .ok q ∧ names.foldlM d.stepTo q = .ok p := by
  rw [List.foldlM_cons]
  cases d.stepTo place name <;> simp [bind, Except.bind]

/-- The first names lead to a place, and the others lead on from there. -/
theorem foldlM_stepTo_append {names more : List String} {place p : List String} :
    (names ++ more).foldlM d.stepTo place = .ok p ↔
      ∃ q, names.foldlM d.stepTo place = .ok q ∧ more.foldlM d.stepTo q = .ok p := by
  rw [List.foldlM_append]
  cases names.foldlM d.stepTo place <;> simp [bind, Except.bind]

theorem foldlM_stepTo_eq_ok {names : List String} {place p : List String}
    (h : names.foldlM d.stepTo place = .ok p) : p = names.foldl stepPlace place := by
  induction names generalizing place with
  | nil => exact (Except.ok.inj h).symm
  | cons name rest ih =>
    obtain ⟨q, hstep, hrest⟩ := foldlM_stepTo_cons.1 h
    rw [List.foldl_cons, ← (stepTo_eq_ok_iff.1 hstep).2.1]
    exact ih hrest

/-- A path that the disk can follow leads to the place that it names. -/
theorem locate_eq_ok {path : String} {p : List String} (h : d.locate path = .ok p) :
    p = d.placeOf path := by
  simp only [locate] at h
  split_ifs at h <;> simpa [placeOf, *] using foldlM_stepTo_eq_ok h

theorem Keeps.foldlM_stepTo (h : d.Keeps S d') {names : List String} {place p : List String}
    (hp : names.foldlM d.stepTo place = .ok p) : names.foldlM d'.stepTo place = .ok p := by
  induction names generalizing place with
  | nil => exact hp
  | cons name rest ih =>
    obtain ⟨q, hstep, hrest⟩ := foldlM_stepTo_cons.1 hp
    obtain ⟨hdir, hq⟩ := stepTo_eq_ok_iff.1 hstep
    exact foldlM_stepTo_cons.2 ⟨q, stepTo_eq_ok_iff.2 ⟨h.directory place hdir, hq⟩, ih hrest⟩

/-- What could be followed before a change can be followed after it. -/
theorem Keeps.locate (h : d.Keeps S d') {path : String} {p : List String}
    (hp : d.locate path = .ok p) : d'.locate path = .ok p := by
  simp only [Disk.locate] at hp ⊢
  rw [h.workingDirectory]
  split_ifs at hp ⊢ <;> exact h.foldlM_stepTo hp

theorem lookup_eq_ok_iff {path : String} {place : List String} {entry : DiskEntry} :
    d.lookup path = .ok (place, entry) ↔
      d.locate path = .ok place ∧ d.entryAt? place = some entry := by
  unfold lookup
  cases hlocate : d.locate path with
  | error cause => simp [bind, Except.bind]
  | ok p =>
    cases hentry : d.entryAt? p with
    | none =>
      simp only [bind, Except.bind, hentry, Except.ok.injEq]
      constructor
      · intro h
        cases h
      · rintro ⟨rfl, h⟩
        rw [hentry] at h
        cases h
    | some e =>
      simp only [bind, Except.bind, hentry, Except.ok.injEq, Prod.mk.injEq]
      constructor
      · rintro ⟨rfl, rfl⟩
        exact ⟨rfl, hentry⟩
      · rintro ⟨rfl, h⟩
        rw [hentry] at h
        exact ⟨rfl, Option.some.inj h⟩

/-- A file is read at the place that its path names, if the disk can go there. -/
theorem read_eq_ok_iff {path : String} {bytes : ByteArray} :
    d.read path = .ok bytes ↔
      d.locate path = .ok (d.placeOf path) ∧ d.fileAt? (d.placeOf path) = some bytes := by
  unfold read
  constructor
  · intro h
    split at h
    · next place found hlookup =>
      cases h
      obtain ⟨hlocate, hentry⟩ := lookup_eq_ok_iff.1 hlookup
      obtain rfl := locate_eq_ok hlocate
      exact ⟨hlocate, fileAt?_eq_some_iff.2 hentry⟩
    · cases h
    · cases h
  · rintro ⟨hlocate, hfile⟩
    rw [lookup_eq_ok_iff.2 ⟨hlocate, fileAt?_eq_some_iff.1 hfile⟩]

/-- A file that was read and is kept is read again. -/
theorem Keeps.read (h : d.Keeps S d') {path : String} {bytes : ByteArray}
    (hS : S (d.placeOf path)) (hread : d.read path = .ok bytes) : d'.read path = .ok bytes := by
  rw [read_eq_ok_iff] at hread ⊢
  rw [h.placeOf]
  exact ⟨h.locate hread.1, (h.file _ hS).trans hread.2⟩

/-! ## Changes -/

/-- A result of one change and then another. -/
theorem bind_eq_ok {α β : Type} {x : Except Refusal α} {f : α → Except Refusal β} {b : β} :
    x >>= f = .ok b ↔ ∃ a, x = .ok a ∧ f a = .ok b := by
  cases x <;> simp [bind, Except.bind]

/-- The names from a place to one below it lead there. -/
theorem append_of_below? {base names rest : List String} (h : below? base names = some rest) :
    names = base ++ rest := by
  induction base generalizing names with
  | nil =>
    cases names with
    | nil => cases h
    | cons n ns =>
      cases h
      rfl
  | cons b bs ih =>
    cases names with
    | nil => cases h
    | cons n ns =>
      simp only [below?] at h
      split_ifs at h with hb
      rw [hb, List.cons_append, ← ih h]

theorem entryAt?_set {place other : List String} (entry : DiskEntry) (hplace : place ≠ []) :
    ({ d with entries := Assoc.set place entry d.entries } : Disk).entryAt? other =
      if other = place then some entry else d.entryAt? other := by
  unfold entryAt?
  by_cases hroot : other = []
  · subst hroot
    simp [hplace.symm]
  · by_cases hother : other = place
    · subst hother
      simp [hroot, Assoc.get?_set_self]
    · simp [hroot, hother, Assoc.get?_set_of_ne hother]

/-- Setting an entry changes no listing if no listing shows it, neither before nor after, or if it
is a file that was a file before. -/
theorem filesBelow_set {base place : List String} {entry : DiskEntry}
    (h : below? base place = none ∨
      (entry = .directory ∧ Assoc.get? place d.entries = none) ∨
      ∃ new old, entry = .file new ∧ Assoc.get? place d.entries = some (.file old)) :
    ({ d with entries := Assoc.set place entry d.entries } : Disk).filesBelow base =
      d.filesBelow base := by
  unfold filesBelow
  congr 1
  generalize d.entries = entries at h
  -- the entry at the place is replaced or added at the end, and in each case nothing new is listed
  induction entries with
  | nil =>
    rcases h with h | ⟨rfl, -⟩ | ⟨new, old, rfl, h⟩
    · cases entry <;> simp [Assoc.set, h]
    · rfl
    · cases h
  | cons e rest ih =>
    obtain ⟨k, v⟩ := e
    by_cases hk : k = place
    · subst hk
      rcases h with h | ⟨-, h⟩ | ⟨new, old, rfl, h⟩
      · cases entry <;> cases v <;> simp [Assoc.set, h]
      · simp [Assoc.get?] at h
      · obtain rfl : v = .file old := by simpa [Assoc.get?] using h
        simp [Assoc.set, List.filterMap_cons]
    · have ih := ih (by simpa [Assoc.get?, hk] using h)
      cases v <;> simp [Assoc.set, hk, List.filterMap_cons, ih]

theorem write_eq_ok {path : String} {bytes : ByteArray} (h : d.write path bytes = .ok d') :
    d.locate path = .ok (d.placeOf path) ∧ d.isDirectoryAt (d.placeOf path) = false ∧
      d' = { d with entries := Assoc.set (d.placeOf path) (.file bytes) d.entries } := by
  unfold write writablePlace at h
  cases hlocate : d.locate path with
  | error cause => simp [hlocate, bind, Except.bind] at h
  | ok place =>
    obtain rfl := locate_eq_ok hlocate
    simp only [hlocate, bind, Except.bind] at h
    refine ⟨rfl, ?_⟩
    unfold isDirectoryAt
    split at h
    · next hok =>
      split at hok
      · cases hok
      · next hdir =>
        cases hok
        cases h
        exact ⟨rfl, rfl⟩
    · cases h

/-- The root is no file, so what is written is not the root. -/
theorem placeOf_ne_nil_of_write {path : String} {bytes : ByteArray}
    (h : d.write path bytes = .ok d') : d.placeOf path ≠ [] := by
  intro hroot
  obtain ⟨-, hdir, -⟩ := write_eq_ok h
  rw [hroot] at hdir
  simp [isDirectoryAt, entryAt?] at hdir

theorem fileAt?_write {path : String} {bytes : ByteArray} (h : d.write path bytes = .ok d') :
    d'.fileAt? (d.placeOf path) = some bytes := by
  have hroot := placeOf_ne_nil_of_write h
  obtain ⟨-, -, rfl⟩ := write_eq_ok h
  rw [fileAt?_eq_some_iff, entryAt?_set _ hroot, if_pos rfl]

/-- Writing a file keeps every other place. -/
theorem keeps_write {path : String} {bytes : ByteArray} (h : d.write path bytes = .ok d') :
    d.Keeps (· ≠ d.placeOf path) d' := by
  have hroot := placeOf_ne_nil_of_write h
  obtain ⟨-, hdir, rfl⟩ := write_eq_ok h
  refine ⟨rfl, fun place hplace => ?_, fun place hne => ?_, fun base hbase => ?_⟩
  · rw [isDirectoryAt_iff] at hplace ⊢
    rw [entryAt?_set _ hroot, if_neg, hplace]
    rintro rfl
    rw [isDirectoryAt_iff.2 hplace] at hdir
    cases hdir
  · simp only [fileAt?, entryAt?_set _ hroot, if_neg hne]
  · refine filesBelow_set (Or.inl ?_)
    cases hbelow : below? base (d.placeOf path) with
    | none => rfl
    | some rest => exact absurd (append_of_below? hbelow).symm (hbase rest)

/-- What was written is read back. -/
theorem read_write {path : String} {bytes : ByteArray} (h : d.write path bytes = .ok d') :
    d'.read path = .ok bytes := by
  have hkeeps := keeps_write h
  rw [read_eq_ok_iff, hkeeps.placeOf]
  exact ⟨hkeeps.locate (write_eq_ok h).1, fileAt?_write h⟩

/-- A line at the end of a file keeps every other place. -/
theorem keeps_appendLine (d : Disk) (path line : String) :
    d.Keeps (· ≠ d.placeOf path) (d.appendLine path line) := by
  unfold appendLine
  split
  · exact .refl _ d
  · next bytes _ =>
    cases hwrite : d.write path (bytes ++ (line ++ "\n").toUTF8) with
    | error => exact .refl _ d
    | ok d' => exact keeps_write hwrite

/-- Making a directory keeps every place. -/
theorem keeps_makeDirectory {path : String} (h : d.makeDirectory path = .ok d') :
    d.Keeps (fun _ => True) d' := by
  unfold makeDirectory at h
  split at h
  · cases h
  · next place _ =>
    split at h
    · cases h
    · next hnone =>
      cases h
      -- the root is always there, so a place where nothing stands is not the root
      have hroot : place ≠ [] := by
        rintro rfl
        simp [entryAt?] at hnone
      refine ⟨rfl, fun other hother => ?_, fun other _ => ?_, fun base _ => ?_⟩
      · rw [isDirectoryAt_iff] at hother ⊢
        rw [entryAt?_set _ hroot]
        split_ifs
        · rfl
        · exact hother
      · unfold fileAt?
        rw [entryAt?_set _ hroot]
        split_ifs with heq
        · rw [heq, hnone]
        · rfl
      · refine filesBelow_set (Or.inr (Or.inl ⟨rfl, ?_⟩))
        rwa [entryAt?, if_neg hroot] at hnone

theorem keeps_makeMissing {path : String} (h : d.makeMissing path = .ok d') :
    d.Keeps (fun _ => True) d' := by
  unfold makeMissing at h
  split_ifs at h
  · cases h
    exact .refl _ _
  · exact keeps_makeDirectory h

theorem keeps_foldlM_makeMissing {paths : List String}
    (h : paths.foldlM makeMissing d = .ok d') : d.Keeps (fun _ => True) d' := by
  induction paths generalizing d with
  | nil =>
    cases h
    exact .refl _ _
  | cons path rest ih =>
    rw [List.foldlM_cons] at h
    cases hmake : d.makeMissing path with
    | error e =>
      rw [hmake] at h
      cases h
    | ok made =>
      rw [hmake] at h
      exact (keeps_makeMissing hmake).trans (ih h)

/-- Making a directory and those above it keeps every place. -/
theorem keeps_makeDirectories {path : String} (h : d.makeDirectories path = .ok d') :
    d.Keeps (fun _ => True) d' := by
  unfold makeDirectories at h
  cases hmake : (Path.ancestors path).foldlM makeMissing d with
  | error e => simp [hmake, bind, Except.bind] at h
  | ok above =>
    simp only [hmake, bind, Except.bind] at h
    have habove := keeps_foldlM_makeMissing hmake
    split_ifs at h
    · cases h
      exact habove
    · exact habove.trans (keeps_makeDirectory h)

end ThemeLocales.Disk
