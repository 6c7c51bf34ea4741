import ThemeLocales.Proofs.Project.Atomic
import ThemeLocales.Proofs.Project.Mirror

/-!
# Assignments of translations

Translations of one project, by providers that have the same answers, have an `Assignment` in
common. What a run that succeeds makes of a disk is a relation between disks (`FinishesEach`), and
what a run leaves that stops is another (`Stops`).

From what was left, a translation comes to no other disk than from the start
(`finishesEach_of_stops`): documents that are complete are read back and walked again without a
change, and a document of the main language that was missing at the start cannot have come into
being.
-/

set_option autoImplicit false

namespace ThemeLocales.Project

/-- What the translations of one project have in common: the settings, the main language, the target
languages, and the answers that there are for the texts of each language. -/
structure Assignment where
  settings : Settings
  main : String
  targets : List String
  answer : String → String → String

namespace Assignment

variable {x : Assignment} {kind : LocaleKind} {kinds : List LocaleKind} {c d d' e e' start : Disk}

/-- The path of a document of the main language. -/
def mainPath (x : Assignment) (kind : LocaleKind) : String :=
  localePath x.settings.localesPath x.main kind

/-- The places of the documents of one kind in the target languages. -/
def KindPlaces (x : Assignment) (d : Disk) (kind : LocaleKind) (place : List String) : Prop :=
  ∃ language ∈ x.targets, place = d.placeOf (localePath x.settings.localesPath language kind)

/-- The translations of all documents of one kind. -/
def translations (x : Assignment) (kind : LocaleKind) (source : Document)
    (hsource : source.Storable) : List Revision :=
  x.targets.map (translation x.settings x.answer kind source hsource)

/-- No two languages have a file at one place. -/
structure Separate (x : Assignment) (d : Disk) : Prop where
  distinct : (x.main :: x.targets).Pairwise fun language other =>
    Elsewhere x.settings.localesPath language d other

/-- All files are separate, and no answer is empty. -/
structure Sound (x : Assignment) (d : Disk) : Prop extends x.Separate d where
  answers : ∀ language s, x.answer language s ≠ ""

theorem Separate.of_workingDirectory (h : x.Separate d)
    (hsame : e.workingDirectory = d.workingDirectory) : x.Separate e :=
  ⟨h.distinct.imp fun helsewhere => (elsewhere_congr hsame).2 helsewhere⟩

theorem Sound.of_workingDirectory (h : x.Sound d)
    (hsame : e.workingDirectory = d.workingDirectory) : x.Sound e :=
  ⟨h.toSeparate.of_workingDirectory hsame, h.answers⟩

theorem kindPlaces_congr (h : e.workingDirectory = d.workingDirectory) :
    x.KindPlaces e kind = x.KindPlaces d kind := by
  funext place
  simp only [KindPlaces, placeOf_congr h]

theorem Separate.placeOf_main_not (h : x.Separate d) (kind other : LocaleKind) :
    ¬ x.KindPlaces d other (d.placeOf (x.mainPath kind)) := by
  rintro ⟨language, hlanguage, heq⟩
  exact (List.pairwise_cons.1 h.distinct).1 language hlanguage other ⟨kind, heq.symm⟩

/-- Documents of two kinds never stand at one place. -/
theorem Separate.kind_eq (h : x.Separate d) {other : LocaleKind} {place : List String}
    (hplace : x.KindPlaces d kind place) (hother : x.KindPlaces d other place) : kind = other := by
  obtain ⟨language, hlanguage, rfl⟩ := hplace
  obtain ⟨language', hlanguage', heq⟩ := hother
  have htargets := (List.pairwise_cons.1 h.distinct).2
  by_contra hne
  exact placeOf_ne_of_elsewhere htargets hlanguage hlanguage' hne heq

section Revisions

variable {source : Document} {hsource : source.Storable}

theorem place_of_mem_translations {r : Revision} (h : r ∈ x.translations kind source hsource)
    (d : Disk) : x.KindPlaces d kind (r.place d) := by
  obtain ⟨language, hlanguage, rfl⟩ := List.mem_map.1 h
  exact ⟨language, hlanguage, rfl⟩

theorem Sound.idempotent (h : x.Sound d) {r : Revision}
    (hr : r ∈ x.translations kind source hsource) : r.Idempotent := by
  obtain ⟨language, -, rfl⟩ := List.mem_map.1 hr
  exact idempotent_translation x.settings h.answers kind hsource language

theorem Separate.distinct_translations (h : x.Separate d) :
    Revision.Distinct (x.translations kind source hsource) d := by
  refine List.pairwise_map.2 ((List.pairwise_cons.1 h.distinct).2.imp ?_)
  intro language other helsewhere heq
  exact helsewhere kind ⟨kind, heq.symm⟩

theorem keeps_translations (h : Revision.applyEach (x.translations kind source hsource) d = .ok e) :
    d.Keeps (fun place => ¬ x.KindPlaces d kind place) e := by
  refine (Revision.keeps_applyEach h).mono fun place hplace r hr heq => ?_
  exact hplace (heq ▸ place_of_mem_translations hr d)

end Revisions

/-! ## What a run comes to -/

/-- What the translation of the files of one kind comes to, if it succeeds. -/
inductive Finishes (x : Assignment) (kind : LocaleKind) (d : Disk) : Disk → Prop
  | skipped : d.isThere (x.mainPath kind) = false → Finishes x kind d d
  | translated {source : Document} {e : Disk} (hdoc : d.document? (x.mainPath kind) = some source) :
      Revision.applyEach (x.translations kind source (Disk.storable_document? hdoc)) d = .ok e →
        Finishes x kind d e

/-- What the translation of the files of some kinds comes to. -/
inductive FinishesEach (x : Assignment) : List LocaleKind → Disk → Disk → Prop
  | nil (d : Disk) : FinishesEach x [] d d
  | cons {kind : LocaleKind} {kinds : List LocaleKind} {d d' e : Disk} : x.Finishes kind d d' →
      FinishesEach x kinds d' e → FinishesEach x (kind :: kinds) d e

/-- What the translation of the files of some kinds leaves when it stops. -/
inductive Stops (x : Assignment) : List LocaleKind → Disk → Disk → Prop
  | before (kinds : List LocaleKind) (d : Disk) : Stops x kinds d d
  | within {kind : LocaleKind} {kinds : List LocaleKind} {d c : Disk} {source : Document}
      (hdoc : d.document? (x.mainPath kind) = some source) :
      Revision.Leaves (x.translations kind source (Disk.storable_document? hdoc)) d c →
        Stops x (kind :: kinds) d c
  | after {kind : LocaleKind} {kinds : List LocaleKind} {d d' c : Disk} : x.Finishes kind d d' →
      Stops x kinds d' c → Stops x (kind :: kinds) d c

/-- Where the document of the main language is there, it is the one that is translated. -/
theorem Finishes.applied {source : Document} (h : x.Finishes kind d e)
    (hdoc : d.document? (x.mainPath kind) = some source) :
    Revision.applyEach (x.translations kind source (Disk.storable_document? hdoc)) d = .ok e := by
  cases h with
  | skipped hmissing =>
    rw [Disk.isThere_of_document? hdoc] at hmissing
    cases hmissing
  | translated hdoc' happlied =>
    obtain rfl := Option.some.inj (hdoc.symm.trans hdoc')
    exact happlied

/-- There is one disk at most to which the translation comes. -/
theorem Finishes.unique (h : x.Finishes kind d e) (h' : x.Finishes kind d e') : e = e' := by
  cases h with
  | skipped hmissing =>
    cases h' with
    | skipped => rfl
    | translated hdoc =>
      rw [Disk.isThere_of_document? hdoc] at hmissing
      cases hmissing
  | translated hdoc happlied => exact Except.ok.inj (happlied.symm.trans (h'.applied hdoc))

theorem FinishesEach.unique (h : x.FinishesEach kinds d e) (h' : x.FinishesEach kinds d e') :
    e = e' := by
  induction h with
  | nil d =>
    cases h'
    rfl
  | cons hfirst _ ih =>
    cases h' with
    | cons hfirst' hrest' =>
      obtain rfl := hfirst.unique hfirst'
      exact ih hrest'

theorem Finishes.keeps (h : x.Finishes kind d e) :
    d.Keeps (fun place => ¬ x.KindPlaces d kind place) e := by
  cases h with
  | skipped => exact .refl _ d
  | translated hdoc happlied => exact keeps_translations happlied

theorem FinishesEach.stops (h : x.FinishesEach kinds d e) : x.Stops kinds d e := by
  induction h with
  | nil d => exact .before [] d
  | cons hfirst _ ih => exact .after hfirst ih

/-- Only documents of the target languages are changed. -/
theorem Stops.keeps (h : x.Stops kinds d c) :
    d.Keeps (fun place => ∀ kind ∈ kinds, ¬ x.KindPlaces d kind place) c := by
  induction h with
  | before kinds d => exact .refl _ d
  | within hdoc hleaves =>
    refine (Revision.keeps_of_leaves hleaves).mono fun place hplace r hr heq => ?_
    exact hplace _ List.mem_cons_self (heq ▸ place_of_mem_translations hr _)
  | after hfirst _ ih =>
    have hk := hfirst.keeps
    refine (hk.mono fun place hplace => hplace _ List.mem_cons_self).trans (ih.mono ?_)
    intro place hplace kind hkind
    rw [kindPlaces_congr hk.workingDirectory]
    exact hplace kind (List.mem_cons_of_mem _ hkind)

/-- Where there is no document of the main language, there is nothing to do. -/
theorem Stops.eq_or_exists (h : x.Stops kinds d c) :
    c = d ∨ ∃ kind source, d.document? (x.mainPath kind) = some source := by
  induction h with
  | before => exact Or.inl rfl
  | within hdoc _ => exact Or.inr ⟨_, _, hdoc⟩
  | after hfirst _ ih =>
    cases hfirst with
    | skipped => exact ih
    | translated hdoc => exact Or.inr ⟨_, _, hdoc⟩

/-- Where there are no target languages, there is nothing to do either. -/
theorem Stops.eq_of_targets (h : x.Stops kinds d c) (hnone : x.targets = []) : c = d := by
  induction h with
  | before => rfl
  | within hdoc hleaves =>
    rw [translations, hnone] at hleaves
    cases hleaves
    rfl
  | after hfirst _ ih =>
    rw [ih]
    cases hfirst with
    | skipped => rfl
    | translated hdoc happlied =>
      rw [translations, hnone] at happlied
      exact (Except.ok.inj happlied).symm

/-- The documents of a kind that is finished are not changed any more. -/
theorem Finishes.eq_of_again (hsound : x.Sound d) (hfirst : x.Finishes kind d d')
    (hstops : x.Stops kinds d' c) (hkind : kind ∉ kinds) (h : x.Finishes kind c e) : e = c := by
  have hfirst_keeps := hfirst.keeps
  have hk := hstops.keeps
  have hplaces : ∀ kind', x.KindPlaces d' kind' = x.KindPlaces d kind' := fun kind' =>
    kindPlaces_congr hfirst_keeps.workingDirectory
  simp only [hplaces] at hk
  have hmain : d.placeOf (x.mainPath kind) = d'.placeOf (x.mainPath kind) :=
    (hfirst_keeps.placeOf _).symm
  cases hfirst with
  | skipped hmissing =>
    cases h with
    | skipped => rfl
    | translated hdoc =>
      -- The document of the main language would have come into being.
      rcases hstops.eq_or_exists with rfl | ⟨other, source, hother⟩
      · rw [Disk.isThere_of_document? hdoc] at hmissing
        cases hmissing
      · obtain ⟨bytes, hread, -⟩ := Disk.exists_read_of_document? hdoc
        refine absurd hread (read_ne_ok_of_missing hk ?_ hother hmissing bytes)
        exact fun kind' _ => hsound.placeOf_main_not kind kind'
  | @translated source _ hdoc happlied =>
    have hdoc' : c.document? (x.mainPath kind) = some source := by
      refine hk.document? ?_ (hfirst_keeps.document? (hsound.placeOf_main_not kind kind) hdoc)
      rw [← hmain]
      exact fun kind' _ => hsound.placeOf_main_not kind kind'
    -- Every file still shows the complete document.
    have hsame : Revision.applyEach _ c = .ok c := Revision.applyEach_of_shows fun r hr => by
      obtain ⟨before, -, hshows⟩ :=
        Revision.shows_of_applyEach hsound.distinct_translations happlied r hr
      refine ⟨hsound.idempotent hr, before, hk.shows (fun kind' hkind' hplace => ?_) hshows⟩
      rw [hfirst_keeps.placeOf] at hplace
      obtain rfl := hsound.kind_eq (place_of_mem_translations hr d) hplace
      exact hkind hkind'
    exact Except.ok.inj ((h.applied hdoc').symm.trans hsame)

/-- From what was left when a translation stopped, it comes to no other disk than from the start. -/
theorem finishesEach_of_stops (hsound : x.Sound d) (hkinds : kinds.Nodup)
    (hstops : x.Stops kinds d c) (h : x.FinishesEach kinds c e) : x.FinishesEach kinds d e := by
  induction hstops with
  | before => exact h
  -- the second run finds a document in which only leaves of this file were written
  | within hdoc hleaves =>
    cases h with
    | cons hfirst hrest =>
      have hdoc' := (Revision.keeps_of_leaves hleaves).document? (fun r hr heq =>
        hsound.placeOf_main_not _ _ (heq ▸ place_of_mem_translations hr _)) hdoc
      refine .cons (.translated hdoc ?_) hrest
      exact Revision.applyEach_of_leaves (fun r hr => hsound.idempotent hr)
        hsound.distinct_translations hleaves (hfirst.applied hdoc')
  -- a file that the first run finished is as the second run would leave it
  | after hfirst hrest ih =>
    obtain ⟨hkind, hkinds⟩ := List.nodup_cons.1 hkinds
    cases h with
    | cons hagain hmore =>
      obtain rfl := hfirst.eq_of_again hsound hrest hkind hagain
      have hsound' := hsound.of_workingDirectory hfirst.keeps.workingDirectory
      exact .cons hfirst (ih hsound' hkinds hmore)

/-! ## Where all files are there -/

section Shown

variable {mains : LocaleKind → Document} {documents : String → LocaleKind → Document}

end Shown

end Assignment

end ThemeLocales.Project
