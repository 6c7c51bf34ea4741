import ThemeLocales.Proofs.Disk.View
import ThemeLocales.Proofs.Project.LocaleFile

/-!
# Revisions of locale files

A run that writes a locale file makes the directory of the file and then writes what becomes of its
document: a `Revision`. A run that stops has applied some revisions, and it may have made the
directory for the next one (`Leaves`).

When no two revisions are about one place and each of them changes nothing when it is applied again,
it does not matter that a run stopped. All revisions together, applied to what it left, come to what
they come to from the start (`applyEach_of_leaves`).
-/

set_option autoImplicit false

namespace ThemeLocales

namespace Disk

/-- The disk with the directory of a path. -/
def withDirectory (d : Disk) (path : String) : Except Refusal Disk :=
  if Path.directory path ≠ "" then d.makeDirectories (Path.directory path) else .ok d

/-- The disk with a file written, and its directory made before. -/
def save (d : Disk) (path : String) (bytes : ByteArray) : Except Refusal Disk := do
  (← d.withDirectory path).write path bytes

variable {S P : List String → Prop} {c d d' e : Disk} {path : String} {bytes : ByteArray}

theorem save_eq_ok : d.save path bytes = .ok e ↔
    ∃ c, d.withDirectory path = .ok c ∧ c.write path bytes = .ok e :=
  bind_eq_ok

theorem keeps_withDirectory (h : d.withDirectory path = .ok e) : d.Keeps (fun _ => True) e := by
  unfold withDirectory at h
  split_ifs at h
  · exact keeps_makeDirectories h
  · cases h
    exact .refl _ d

theorem withDirectory_of_read (h : d.read path = .ok bytes) : d.withDirectory path = .ok d := by
  unfold withDirectory
  split_ifs with hdirectory
  · exact makeDirectories_of_read h hdirectory
  · rfl

/-- The directory of a path that was made before is not made again. -/
theorem withDirectory_again (h : d.withDirectory path = .ok c) (hk : c.Keeps S d')
    (h' : d'.withDirectory path = .ok e) : e = d' := by
  unfold withDirectory at h h'
  split_ifs at h h' with hdirectory
  · exact makeDirectories_again h hk h'
  · exact (Except.ok.inj h').symm

theorem keeps_save (h : d.save path bytes = .ok e) : d.Keeps (· ≠ d.placeOf path) e := by
  obtain ⟨c, hmade, hwritten⟩ := save_eq_ok.1 h
  have hmade := keeps_withDirectory hmade
  refine (hmade.mono fun _ _ => trivial).trans ?_
  rw [← hmade.placeOf]
  exact keeps_write hwritten

theorem read_save (h : d.save path bytes = .ok e) : e.read path = .ok bytes := by
  obtain ⟨c, -, hwritten⟩ := save_eq_ok.1 h
  exact read_write hwritten

/-- Saving what a file holds changes nothing. -/
theorem save_same (h : d.read path = .ok bytes) : d.save path bytes = .ok d :=
  save_eq_ok.2 ⟨d, withDirectory_of_read h, write_same h⟩

/-- A file that can be read can be saved. -/
theorem exists_save_of_read (h : d.read path = .ok bytes) (new : ByteArray) :
    ∃ e, d.save path new = .ok e := by
  obtain ⟨e, hwritten⟩ := exists_write_of_read h new
  exact ⟨e, save_eq_ok.2 ⟨d, withDirectory_of_read h, hwritten⟩⟩

theorem SameAt.points? (h : d.SameAt P d') (hsees : Sees P d path) :
    d'.points? path = d.points? path := by
  rw [Disk.points?, Disk.points?, h.read hsees]

theorem SameAt.document? (h : d.SameAt P d') (hsees : Sees P d path) :
    d'.document? path = d.document? path := by
  rw [Disk.document?, Disk.document?, h.read hsees]

theorem SameAt.localeDocument (h : d.SameAt P d') (hsees : Sees P d path) :
    d'.localeDocument path = d.localeDocument path := by
  rw [Disk.localeDocument, Disk.localeDocument, h.document? hsees]

end Disk

namespace Project

/-- What a run makes of the document of one locale file. -/
structure Revision where
  path : String
  change : Document → Document
  storable : ∀ doc, doc.Storable → (change doc).Storable

namespace Revision

variable {c d e : Disk} {r : Revision} {rs more : List Revision}

/-- The document that a revision writes. -/
def result (r : Revision) (d : Disk) : Document :=
  r.change (d.localeDocument r.path)

/-- The place that a revision is about. -/
def place (r : Revision) (d : Disk) : List String :=
  d.placeOf r.path

/-- The disk after a revision. -/
def apply (r : Revision) (d : Disk) : Except Disk.Refusal Disk :=
  d.save r.path (localeText (r.result d)).toUTF8

/-- The disk after some revisions in order. -/
def applyEach (rs : List Revision) (d : Disk) : Except Disk.Refusal Disk :=
  rs.foldlM (fun d r => r.apply d) d

/-- A revision that changes nothing when it is applied to its own result. -/
def Idempotent (r : Revision) : Prop :=
  ∀ doc, r.change (r.change doc) = r.change doc

/-- No two revisions are about one place. -/
def Distinct (rs : List Revision) (d : Disk) : Prop :=
  rs.Pairwise fun r other => r.place d ≠ other.place d

theorem storable_result (r : Revision) (d : Disk) : (r.result d).Storable :=
  r.storable _ (Disk.storable_localeDocument _ _)

/-! ## One revision -/

theorem keeps_apply (h : r.apply d = .ok e) : d.Keeps (· ≠ r.place d) e :=
  Disk.keeps_save h

theorem shows_apply (h : r.apply d = .ok e) : e.Shows r.path (r.result d) :=
  ⟨r.storable_result d, Disk.read_save h⟩

/-- A revision leaves no surrogate alone where none was. -/
theorem isUnpairedAt_of_apply (h : r.apply d = .ok e) {spot : List String}
    (hspot : e.IsUnpairedAt spot) : d.IsUnpairedAt spot := by
  by_cases hsame : spot = r.place d
  · rw [hsame, place, ← (keeps_apply h).placeOf] at hspot
    exact absurd hspot (shows_apply h).not_isUnpairedAt
  · exact ((keeps_apply h).isUnpairedAt hsame).1 hspot

/-- Where the file shows what the revision makes of something, the revision changes nothing. -/
theorem Idempotent.apply_eq (h : r.Idempotent) (hshows : d.Shows r.path (r.result c)) :
    r.apply d = .ok d := by
  have hresult : r.result d = r.result c := by
    rw [result, hshows.localeDocument]
    exact h _
  rw [apply, hresult]
  exact Disk.save_same hshows.read

/-! ## Revisions in order -/

theorem applyEach_append :
    applyEach (rs ++ more) d = .ok e ↔ ∃ c, applyEach rs d = .ok c ∧ applyEach more c = .ok e := by
  rw [applyEach, List.foldlM_append]
  exact Disk.bind_eq_ok

theorem applyEach_cons :
    applyEach (r :: rs) d = .ok e ↔ ∃ c, r.apply d = .ok c ∧ applyEach rs c = .ok e := by
  rw [applyEach, List.foldlM_cons]
  exact Disk.bind_eq_ok

theorem applyEach_singleton (r : Revision) (d : Disk) : applyEach [r] d = r.apply d :=
  bind_pure _

/-- Revisions keep what none of them is about. -/
theorem keeps_applyEach (h : applyEach rs d = .ok e) :
    d.Keeps (fun place => ∀ r ∈ rs, place ≠ r.place d) e := by
  induction rs generalizing d with
  | nil =>
    cases h
    exact .refl _ _
  | cons r rs ih =>
    obtain ⟨c, hfirst, hrest⟩ := applyEach_cons.1 h
    have hk := keeps_apply hfirst
    refine (hk.mono fun spot hplace => hplace r List.mem_cons_self).trans ?_
    refine (ih hrest).mono fun spot hplace other hother => ?_
    rw [place, hk.placeOf]
    exact hplace other (List.mem_cons_of_mem r hother)

/-- In a file that is to be revised a surrogate stands alone. -/
def Unpaired (rs : List Revision) (d : Disk) : Prop :=
  ∃ r ∈ rs, d.IsUnpairedAt (r.place d)

theorem Unpaired.mono {more : List Revision} (h : Unpaired rs d) (hmore : ∀ r ∈ rs, r ∈ more) :
    Unpaired more d := by
  obtain ⟨r, hr, hplace⟩ := h
  exact ⟨r, hmore r hr, hplace⟩

theorem isUnpairedAt_of_applyEach (h : applyEach rs d = .ok e) {spot : List String}
    (hspot : e.IsUnpairedAt spot) : d.IsUnpairedAt spot := by
  induction rs generalizing d with
  | nil =>
    cases h
    exact hspot
  | cons r rs ih =>
    obtain ⟨c, hfirst, hrest⟩ := applyEach_cons.1 h
    exact isUnpairedAt_of_apply hfirst (ih hrest)

/-- What is unpaired after some revisions was so before them. -/
theorem Unpaired.of_applyEach {more : List Revision} (h : applyEach rs d = .ok e)
    (hmore : Unpaired more e) : Unpaired more d := by
  obtain ⟨r, hr, hplace⟩ := hmore
  refine ⟨r, hr, isUnpairedAt_of_applyEach h ?_⟩
  rwa [place, ← (keeps_applyEach h).placeOf]

/-- The places stay where they are. -/
theorem Distinct.of_workingDirectory (h : Distinct rs d)
    (hsame : e.workingDirectory = d.workingDirectory) : Distinct rs e := by
  refine h.imp fun {r other} hne => ?_
  simp only [place, Disk.placeOf, hsame] at hne ⊢
  exact hne

/-- Each file shows what its revision made of the document that a disk before it had. -/
theorem shows_of_applyEach (hdistinct : Distinct rs d) (h : applyEach rs d = .ok e) :
    ∀ r ∈ rs, ∃ before, d.Keeps (· = r.place d) before ∧ e.Shows r.path (r.result before) := by
  induction rs generalizing d with
  | nil =>
    intro r hr
    exact absurd hr List.not_mem_nil
  | cons first rs ih =>
    obtain ⟨hfirst, hrest⟩ := List.pairwise_cons.1 hdistinct
    obtain ⟨c, happlied, hmore⟩ := applyEach_cons.1 h
    have hk := keeps_apply happlied
    intro r hr
    rcases List.mem_cons.1 hr with rfl | hr
    · -- No later revision is about the first place, so its file stays as it was written.
      refine ⟨d, .refl _ d, (keeps_applyEach hmore).shows ?_ (shows_apply happlied)⟩
      intro other hother
      rw [place, hk.placeOf, hk.placeOf]
      exact hfirst other hother
    · -- The first revision is not about the places of the others, so their files wait unchanged.
      have hrest := Distinct.of_workingDirectory hrest hk.workingDirectory
      obtain ⟨before, hbefore, hshows⟩ := ih hrest hmore r hr
      refine ⟨before, (hk.mono ?_).trans (hbefore.mono ?_), hshows⟩
      · rintro place rfl heq
        exact hfirst r hr heq.symm
      · rintro place rfl
        exact (hk.placeOf _).symm

/-- Where all files show what their revisions make of something, the revisions change nothing. -/
theorem applyEach_of_shows
    (h : ∀ r ∈ rs, r.Idempotent ∧ ∃ before, d.Shows r.path (r.result before)) :
    applyEach rs d = .ok d := by
  induction rs with
  | nil => rfl
  | cons r rs ih =>
    obtain ⟨hidempotent, before, hshows⟩ := h r List.mem_cons_self
    refine applyEach_cons.2 ⟨d, hidempotent.apply_eq hshows, ih fun other hother => ?_⟩
    exact h other (List.mem_cons_of_mem r hother)

/-! ## Stopping and starting over -/

/-- What revisions leave when they stop: some were applied, and perhaps the directory for the next
one was made before its file was denied. -/
inductive Leaves : List Revision → Disk → Disk → Prop
  | now (rs : List Revision) (d : Disk) : Leaves rs d d
  | denied {r : Revision} {rs : List Revision} {d c : Disk} {bytes : ByteArray}
      {refusal : Disk.Refusal} : d.withDirectory r.path = .ok c →
      c.write r.path bytes = .error refusal → Leaves (r :: rs) d c
  | next {r : Revision} {rs : List Revision} {d d' c : Disk} : r.apply d = .ok d' →
      Leaves rs d' c → Leaves (r :: rs) d c

theorem Leaves.append_right (h : Leaves rs d c) (more : List Revision) :
    Leaves (rs ++ more) d c := by
  induction h with
  | now rs d => exact .now _ d
  | denied hmade hdenied => exact .denied hmade hdenied
  | next happlied _ ih => exact .next happlied ih

theorem Leaves.append_left (h : applyEach rs d = .ok e) (hmore : Leaves more e c) :
    Leaves (rs ++ more) d c := by
  induction rs generalizing d with
  | nil =>
    cases h
    exact hmore
  | cons r rs ih =>
    obtain ⟨m, hfirst, hrest⟩ := applyEach_cons.1 h
    exact .next hfirst (ih hrest)

/-- What is left keeps what no revision is about. -/
theorem keeps_of_leaves (h : Leaves rs d c) :
    d.Keeps (fun place => ∀ r ∈ rs, place ≠ r.place d) c := by
  induction h with
  | now rs d => exact .refl _ d
  | denied hmade _ => exact (Disk.keeps_withDirectory hmade).mono fun _ _ => trivial
  | @next r rs d m c happlied _ ih =>
    have hk := keeps_apply happlied
    refine (hk.mono fun spot hplace => hplace r List.mem_cons_self).trans (ih.mono ?_)
    intro spot hplace other hother
    rw [place, hk.placeOf]
    exact hplace other (List.mem_cons_of_mem r hother)

/-- All revisions, applied to what was left when they stopped, come to what they come to from the
start. -/
theorem applyEach_of_leaves (hidempotent : ∀ r ∈ rs, r.Idempotent) (hdistinct : Distinct rs d)
    (hleaves : Leaves rs d c) (h : applyEach rs c = .ok e) : applyEach rs d = .ok e := by
  induction hleaves with
  | now => exact h
  | denied hmade hdenied =>
    -- The file is denied again, so the revisions would not have come to anything.
    obtain ⟨m, hfirst, -⟩ := applyEach_cons.1 h
    obtain ⟨m', hagain, hwritten⟩ := Disk.save_eq_ok.1 hfirst
    obtain rfl := Disk.withDirectory_again hmade (.refl (fun _ => True) _) hagain
    rw [Disk.write_eq_error hdenied] at hwritten
    cases hwritten
  | @next r rs d m c happlied hleaves ih =>
    obtain ⟨hfirst, hrest⟩ := List.pairwise_cons.1 hdistinct
    have hk := keeps_apply happlied
    -- The file of the first revision still shows its result, so it changes nothing any more.
    have hshows : c.Shows r.path (r.result d) := by
      refine (keeps_of_leaves hleaves).shows (fun other hother => ?_) (shows_apply happlied)
      rw [place, hk.placeOf, hk.placeOf]
      exact hfirst other hother
    obtain ⟨m', hagain, hmore⟩ := applyEach_cons.1 h
    rw [(hidempotent r List.mem_cons_self).apply_eq hshows] at hagain
    cases hagain
    refine applyEach_cons.2 ⟨m, happlied, ih ?_ ?_ hmore⟩
    · intro other hother
      exact hidempotent other (List.mem_cons_of_mem r hother)
    · exact Distinct.of_workingDirectory hrest hk.workingDirectory

end Revision

end Project

end ThemeLocales
