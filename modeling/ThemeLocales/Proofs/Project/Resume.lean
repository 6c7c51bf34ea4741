import Mathlib.Logic.Relation
import ThemeLocales.Proofs.Project.Assignment

/-!
# Resuming a translation

A translation that fails leaves some documents complete and the others as they were. Whoever runs
it again, with a provider that has the same answers, completes the others and leaves the complete
ones alone. So any number of attempts, wherever they fail, followed by a run that succeeds, leave
the same files as one run from the start that does not fail (`resumed_translation`).

Each run does to the disk what its assignment says (`Assignment.Performs`), and every world between
two runs mirrors a disk from which the assignment comes to no other than from the start
(`Assignment.Reached`). One attempt leads from such a world to another (`Assignment.Ready.attempt`),
and so do any number of them.
-/

set_option autoImplicit false

namespace ThemeLocales.Project

open Operation World

variable {P : List String → Prop} {d start : Disk}

/-! ## Finding the languages -/

section Languages

variable {settings : Settings} {main : String} {targets : List String} {v w : World}

/-- The schema declares the same languages in worlds that mirror two disks, if both have it or lack
it and it is read from the second as from the first. -/
theorem replays_extractLanguages_mirrors {path : String} (hsees : Disk.Sees P start path)
    (hsame : d.workingDirectory = start.workingDirectory)
    (hthere : d.isThere path = start.isThere path)
    (hread : ∀ bytes, start.read path = .ok bytes → d.read path = .ok bytes) :
    Replays (fun v w => v.Mirrors P start ∧ w.Mirrors P d) (extractLanguages path) := by
  have hsees' : Disk.Sees P d path := (Disk.sees_congr hsame).2 hsees
  -- The search asks whether the schema is there, reads it, and writes records.
  apply replays_extractLanguages
  · intro v w there v₁ hR h
    cases h
    refine ⟨w, congrArg (fun there => (Except.ok there, w)) ?_, hR⟩
    rw [hR.1.disk.isThere hsees, hR.2.disk.isThere hsees', hthere]
  · refine Replays.ofView (fun d => d.read path) fun v w bytes hR hbytes => ?_
    rw [hR.1.disk.read hsees] at hbytes
    rw [hR.2.disk.read hsees']
    exact hread bytes hbytes
  · intro level message v w a v₁ hR h
    cases h
    exact ⟨w.logged ⟨level, message⟩, rfl, hR.1.logged _, hR.2.logged _⟩

/-- A schema that is missing declares no languages, and one that is there can be read. -/
theorem meets_extractLanguages_mirrors {path : String} (hsees : Disk.Sees P d path) :
    Meets (World.Mirrors P d) (extractLanguages path)
      (fun languages _ => d.isThere path = false ∧ languages = [] ∨
        ∃ bytes, d.read path = .ok bytes) fun _ => True := by
  refine .bind (.isThere (R := fun there w => d.isThere path = there ∧ w.Mirrors P d) fun w hw =>
    ⟨(hw.disk.isThere hsees).symm, hw⟩) fun there => .of_and fun hthere => ?_
  have hlog : ∀ {p : Prop}, LogStable fun _ => p := fun _ _ hw => hw
  cases there with
  | false =>
    refine .bind (Q := fun _ _ => True) (hlog.logMessage .error _ |>.mono (fun _ _ => trivial)
      (fun _ _ _ => trivial) fun _ _ hw => hw) fun _ => ?_
    exact .pure _ fun _ _ => Or.inl ⟨hthere, rfl⟩
  | true =>
    refine .bind (Q := fun _ _ => ∃ bytes, d.read path = .ok bytes)
      ((meets_readPoints_mirrors hsees).mono (fun _ hw => hw) ?_ fun _ _ => trivial)
      fun schema => ?_
    · intro schema w hw
      obtain ⟨bytes, hread, -⟩ := Disk.exists_read_of_points? hw.1
      exact ⟨bytes, hread⟩
    · refine .bind (Q := fun _ _ => ∃ bytes, d.read path = .ok bytes)
        (.ofResult (fun _ _ hw _ => hw) fun _ _ _ => trivial) fun languages => ?_
      cases languages <;>
        exact .bind (hlog.logMessage .info _) fun _ => .pure _ fun _ hread => Or.inr hread

/-- Where the schema decides about the languages, it can be read or there are no targets. -/
theorem Plans.read_schema (hplan : Plans settings w main targets)
    (hempty : settings.targetLanguages.isEmpty = true) (hw : w.Mirrors P d)
    (hsees : Disk.Sees P d settings.schemaPath) :
    targets = [] ∨ ∃ bytes, d.read settings.schemaPath = .ok bytes := by
  obtain ⟨found, languages, w₁, w₂, hfound, hlanguages, -, rfl⟩ := hplan
  have hw₁ := (maintains_mainLanguage (logStable_mirrors P d) settings).of_ok hw hfound
  simp only [allLanguages, hempty, if_true] at hlanguages
  obtain ⟨declared, w₃, hdeclared, hall⟩ := runIn_bind_eq_ok.1 hlanguages
  rcases (meets_extractLanguages_mirrors hsees).of_ok hw₁ hdeclared with ⟨-, rfl⟩ | hread
  · refine Or.inl ?_
    cases hall
    -- The only language there may be is the main language.
    cases hdefault : settings.defaultLanguage with
    | none => rfl
    | some language =>
      by_cases hne : language = ""
      · subst hne
        rfl
      · rw [mainLanguage_of_default hdefault hne] at hfound
        cases hfound
        simp [distinctLanguages, hne]
  · exact Or.inr hread

/-- A translation finds the languages of an earlier world again, and then works on the files of all
kinds. -/
theorem Plans.exists_translateAll (hplan : Plans settings v main targets) (hv : v.Mirrors P start)
    (hw : w.Mirrors P d) (hlanguages : settings.targetLanguages.isEmpty = true →
      Replays (fun v w => v.Mirrors P start ∧ w.Mirrors P d)
        (extractLanguages settings.schemaPath)) :
    ∃ languages found w', languages.filter (fun language => some language ≠ found) = targets ∧
      found.getD "None" = main ∧ w'.Mirrors P d ∧ ∀ adapter,
        (translateLocales settings adapter).runIn w =
          (translateAll adapter settings languages found).runIn w' := by
  obtain ⟨found, languages, v₁, v₂, hfound, hall, hmain, htargets⟩ := hplan
  have hreplays := replays_allLanguages hlanguages
  obtain ⟨w₁, hfound', hR₁⟩ := replays_mainLanguage hreplays v w found v₁ ⟨hv, hw⟩ hfound
  obtain ⟨w₂, hall', hR₂⟩ := hreplays v₁ w₁ languages v₂ hR₁ hall
  refine ⟨languages, found, w₂, htargets, hmain, hR₂.2, fun adapter => ?_⟩
  exact (runIn_bind_of_ok hfound').trans (runIn_bind_of_ok hall')

end Languages

namespace Assignment

variable {x : Assignment} {adapter : Provider.Adapter} {kinds : List LocaleKind} {c e : Disk}

/-! ## A run -/

/-- The ways to all locale files keep to some places. -/
def Seen (x : Assignment) (P : List String → Prop) (d : Disk) : Prop :=
  ∀ language ∈ x.main :: x.targets, ∀ kind,
    Disk.Sees P d (localePath x.settings.localesPath language kind)

theorem Seen.of_workingDirectory (h : x.Seen P d)
    (hsame : e.workingDirectory = d.workingDirectory) : x.Seen P e :=
  fun language hlanguage kind => (Disk.sees_congr hsame).2 (h language hlanguage kind)

/-- In a file of a target language a surrogate stands alone. -/
def Unpaired (x : Assignment) (d : Disk) : Prop :=
  ∃ language ∈ x.targets, ∃ kind,
    d.IsUnpairedAt (d.placeOf (localePath x.settings.localesPath language kind))

/-- What is unpaired after the files of a kind were translated was so before. -/
theorem Unpaired.of_finishes {kind : LocaleKind} (hfinishes : x.Finishes kind d e)
    (h : x.Unpaired e) : x.Unpaired d := by
  cases hfinishes with
  | skipped => exact h
  | translated hdoc happlied =>
    obtain ⟨language, hlanguage, other, hplace⟩ := h
    refine ⟨language, hlanguage, other, Revision.isUnpairedAt_of_applyEach happlied ?_⟩
    rwa [← (Revision.keeps_applyEach happlied).placeOf]

/-- The files of one kind are translated one after the other, once the document of the main language
was read. -/
theorem ends_translateFiles_mirrors (hsteady : Steady P x.answer adapter)
    (hwet : x.settings.dryRun = false) (hseen : x.Seen P d) {kind : LocaleKind}
    (kinds : List LocaleKind) {source : Document}
    (hdoc : d.document? (x.mainPath kind) = some source) :
    Ends (World.Mirrors P d)
      (x.targets.mapM (translateFile adapter x.settings x.main kind source))
      (fun _ w => ∃ e, x.Finishes kind d e ∧ w.Mirrors P e)
      (fun failure w => ∃ c, x.Stops (kind :: kinds) d c ∧ w.Mirrors P c ∧
        (Unfailing adapter → (failure = .json .unpaired ∧ x.Unpaired d) ∨
          ∀ e, ¬ x.Finishes kind d e)) := by
  have hfiles : Carries P d (x.targets.mapM (translateFile adapter x.settings x.main kind source))
      (x.targets.flatMap fun language => [translation x.settings x.answer kind source
        (Disk.storable_document? hdoc) language]) (Unfailing adapter) := by
    refine Carries.mapM fun language hlanguage e hsame => ?_
    refine carries_translateFile hsteady hwet x.main _ ?_
    exact (Disk.sees_congr hsame).2 (hseen language (List.mem_cons_of_mem _ hlanguage) kind)
  rw [← List.map_eq_flatMap] at hfiles
  refine Ends.mono hfiles (fun _ hw => hw) ?_ ?_
  · rintro _ w ⟨e, happlied, hw⟩
    exact ⟨e, .translated hdoc happlied, hw⟩
  · rintro failure w ⟨c, hleaves, hw, hnever⟩
    refine ⟨c, .within hdoc hleaves, hw, fun hunfailing => ?_⟩
    rcases hnever hunfailing with ⟨hfailure, _, hr, hplace⟩ | hnever
    · obtain ⟨language, hlanguage, rfl⟩ := List.mem_map.1 hr
      exact Or.inl ⟨hfailure, language, hlanguage, kind, hplace⟩
    · exact Or.inr fun e hfinishes => hnever e (hfinishes.applied hdoc)

/-- The translation of the files of one kind does what the assignment says. -/
theorem ends_translateKind_mirrors (hsteady : Steady P x.answer adapter)
    (hwet : x.settings.dryRun = false) (hseen : x.Seen P d) (kind : LocaleKind)
    (kinds : List LocaleKind) :
    Ends (World.Mirrors P d) (translateKind adapter x.settings x.main x.targets kind)
      (fun _ w => ∃ e, x.Finishes kind d e ∧ w.Mirrors P e)
      (fun failure w => ∃ c, x.Stops (kind :: kinds) d c ∧ w.Mirrors P c ∧
        (Unfailing adapter → (failure = .json .unpaired ∧ x.Unpaired d) ∨
          ∀ e, ¬ x.Finishes kind d e)) := by
  have hmain := hseen x.main List.mem_cons_self kind
  refine .bind (.isThere (R := fun there w => d.isThere (x.mainPath kind) = there ∧ w.Mirrors P d)
    fun w hw => ⟨(hw.disk.isThere hmain).symm, hw⟩) fun there => .of_and fun hthere => ?_
  cases there with
  | false =>
    refine .bind ((logStable_mirrors P d).logMessage .info _) fun _ => ?_
    exact .pure _ fun w hw => ⟨d, .skipped hthere, hw⟩
  | true =>
    refine .bind (Ends.mono (meets_readJson_mirrors hmain) (fun _ hw => hw) (fun _ _ hw => hw) ?_)
      fun source => .of_and fun hdoc => ?_
    · -- The document of the main language cannot be read.
      rintro _ w ⟨hunread, hw⟩
      refine ⟨d, .before _ d, hw, fun _ => Or.inr fun e hfinishes => ?_⟩
      cases hfinishes with
      | skipped hmissing => simp [hmissing] at hthere
      | translated hdoc => simp [mainPath, hunread] at hdoc
    · exact .bind (ends_translateFiles_mirrors hsteady hwet hseen kinds hdoc) fun _ =>
        .pure _ fun _ hw => hw

/-- An operation does to a mirrored disk what the assignment says about the files of some kinds: it
comes to the disk to which their translation comes. Where it fails it leaves what their translation
leaves when it stops. With a provider that never fails it fails only where their translation comes
to no disk, or because a surrogate stands alone in one of the files. -/
def Performs (x : Assignment) (P : List String → Prop) (d : Disk) (adapter : Provider.Adapter)
    (kinds : List LocaleKind) {α : Type} (op : Operation α) : Prop :=
  Ends (World.Mirrors P d) op (fun _ w => ∃ e, x.FinishesEach kinds d e ∧ w.Mirrors P e)
    (fun failure w => ∃ c, x.Stops kinds d c ∧ w.Mirrors P c ∧
      (Unfailing adapter → (failure = .json .unpaired ∧ x.Unpaired d) ∨
        ∀ e, ¬ x.FinishesEach kinds d e))

/-- What is told about the written files afterwards does not matter. -/
theorem Performs.map {α β : Type} {op : Operation α} (h : x.Performs P d adapter kinds op)
    (f : α → β) : x.Performs P d adapter kinds (op >>= fun a => pure (f a)) := by
  apply Ends.bind h
  intro a
  exact .pure _ fun _ hw => hw

/-- The translation of the files of several kinds does what the assignment says, too. -/
theorem performs_translateKinds (hsteady : Steady P x.answer adapter)
    (hwet : x.settings.dryRun = false) (hseen : x.Seen P d) (kinds : List LocaleKind) :
    x.Performs P d adapter kinds
      (kinds.mapM (translateKind adapter x.settings x.main x.targets)) := by
  induction kinds generalizing d with
  | nil => exact .pure _ fun w hw => ⟨d, .nil d, hw⟩
  | cons kind kinds ih =>
    rw [List.mapM_cons]
    refine .bind ((ends_translateKind_mirrors hsteady hwet hseen kind kinds).mono (fun _ hw => hw)
      (fun _ _ hw => hw) ?_) fun _ => .of_exists fun m => .of_and fun hfirst => ?_
    · -- The first kind stops, and the others are not begun.
      rintro failure w ⟨c, hstops, hw, hnever⟩
      refine ⟨c, hstops, hw, ?_⟩
      refine fun hunfailing => (hnever hunfailing).imp id fun hnever e hfinishes => ?_
      cases hfinishes with
      | cons hfirst _ => exact hnever _ hfirst
    · have hseen' := hseen.of_workingDirectory hfirst.keeps.workingDirectory
      refine .bind (Q := fun _ w => ∃ e, x.FinishesEach (kind :: kinds) d e ∧ w.Mirrors P e)
        (Ends.mono (ih hseen') (fun _ hw => hw) ?_ ?_) fun _ => .pure _ fun _ hw => hw
      · rintro _ w ⟨e, hrest, hw⟩
        exact ⟨e, .cons hfirst hrest, hw⟩
      · rintro failure w ⟨c, hstops, hw, hnever⟩
        refine ⟨c, .after hfirst hstops, hw, ?_⟩
        intro hunfailing
        rcases hnever hunfailing with ⟨hfailure, hunpaired⟩ | hnever
        · exact Or.inl ⟨hfailure, hunpaired.of_finishes hfirst⟩
        · refine Or.inr fun e hfinishes => ?_
          cases hfinishes with
          | cons hfirst' hrest =>
            obtain rfl := hfirst.unique hfirst'
            exact hnever e hrest

/-! ## Between two runs -/

/-- A disk that attempts have reached from another: the documents of the main language, the schema
and everything else that is no document of a target language is as it was, and the assignment comes
to no other disk than from the start. -/
structure Reached (x : Assignment) (start d : Disk) : Prop where
  kept : start.Keeps (fun place => ∀ kind, ¬ x.KindPlaces start kind place) d
  still : x.targets = [] → d = start
  resumes : ∀ e, x.FinishesEach LocaleKind.all d e → x.FinishesEach LocaleKind.all start e

theorem Reached.refl (x : Assignment) (d : Disk) : x.Reached d d :=
  ⟨.refl _ d, fun _ => rfl, fun _ h => h⟩

/-- One more attempt, wherever it stops. -/
theorem Reached.stops (h : x.Reached start d) (hsound : x.Sound start)
    (hstops : x.Stops LocaleKind.all d c) : x.Reached start c where
  kept := by
    refine h.kept.trans (hstops.keeps.mono fun place hplace kind _ => ?_)
    rw [kindPlaces_congr h.kept.workingDirectory]
    exact hplace kind
  still hnone := (hstops.eq_of_targets hnone).trans (h.still hnone)
  resumes e hfinishes := by
    have hsound' := hsound.of_workingDirectory h.kept.workingDirectory
    exact h.resumes e (finishesEach_of_stops hsound' (by decide) hstops hfinishes)

/-- The schema, where it decides about the languages, is no document of a target language. -/
def SchemaApart (x : Assignment) (d : Disk) : Prop :=
  x.settings.targetLanguages.isEmpty = true →
    ∀ kind, ¬ x.KindPlaces d kind (d.placeOf x.settings.schemaPath)

/-! ## Attempts -/

/-- What may happen between the first attempt and the last: a run with a provider that has the
assigned answers and may fail at any text, or anything else that leaves alone the places at which
runs look. -/
inductive Attempt (x : Assignment) (P : List String → Prop) : World → World → Prop
  | run {adapter : Provider.Adapter} (w : World) : Steady P x.answer adapter →
      Attempt x P w ((translateLocales x.settings adapter).runIn w).2
  | other {w w' : World} : w.disk.SameAt P w'.disk → w'.Apart P → Attempt x P w w'

/-- A world from which attempts start. The assignment has the languages that are found there, its
files are apart from each other and from the schema, its runs are not dry, and all that they look at
is among the places to which no record is written. -/
structure Ready (x : Assignment) (P : List String → Prop) (start : World) : Prop where
  plan : Plans x.settings start x.main x.targets
  sound : x.Sound start.disk
  schema : x.SchemaApart start.disk
  wet : x.settings.dryRun = false
  mirrors : start.Mirrors P start.disk
  seen : x.Seen P start.disk
  seesSchema : Disk.Sees P start.disk x.settings.schemaPath

section Ready

variable {start w w' : World}

/-- In a world that attempts have reached, the languages are found again. -/
theorem Ready.replays (h : x.Ready P start) (hreached : x.Reached start.disk d)
    (hempty : x.settings.targetLanguages.isEmpty = true) :
    Replays (fun v w => v.Mirrors P start.disk ∧ w.Mirrors P d)
      (extractLanguages x.settings.schemaPath) := by
  have hkept : ∀ bytes, start.disk.read x.settings.schemaPath = .ok bytes →
      d.read x.settings.schemaPath = .ok bytes := fun bytes =>
    hreached.kept.read (h.schema hempty)
  refine replays_extractLanguages_mirrors h.seesSchema hreached.kept.workingDirectory ?_ hkept
  rcases h.plan.read_schema hempty h.mirrors h.seesSchema with hnone | ⟨bytes, hread⟩
  · rw [hreached.still hnone]
  · rw [Disk.isThere_of_read hread, Disk.isThere_of_read (hkept bytes hread)]

/-- A run from a world that attempts have reached does what the assignment says. -/
theorem Ready.performs_translateLocales (h : x.Ready P start) (hreached : x.Reached start.disk d)
    (hsteady : Steady P x.answer adapter) :
    x.Performs P d adapter LocaleKind.all (translateLocales x.settings adapter) := by
  refine ⟨fun w hw => ?_⟩
  obtain ⟨languages, found, w', htargets, hmain, hw', hrun⟩ :=
    h.plan.exists_translateAll h.mirrors hw (h.replays hreached)
  rw [hrun, translateAll, hmain, htargets]
  have hseen' := h.seen.of_workingDirectory hreached.kept.workingDirectory
  have hkinds := performs_translateKinds hsteady h.wet hseen' LocaleKind.all
  exact Ends.outcome (hkinds.map List.flatten) w' hw'

/-- One more attempt leads to a world that mirrors a disk which attempts have reached. -/
theorem Ready.attempt (h : x.Ready P start) (hreached : x.Reached start.disk d)
    (hw : w.Mirrors P d) (hattempt : x.Attempt P w w') :
    ∃ e, x.Reached start.disk e ∧ w'.Mirrors P e := by
  cases hattempt with
  | @run adapter _ hsteady =>
    have hmeets : Meets (World.Mirrors P d) (translateLocales x.settings adapter)
        (fun _ w => ∃ e, x.Reached start.disk e ∧ w.Mirrors P e)
        fun w => ∃ e, x.Reached start.disk e ∧ w.Mirrors P e := by
      apply Ends.mono (h.performs_translateLocales hreached hsteady) (fun _ hw => hw)
      · rintro _ w' ⟨e, hfinishes, hw'⟩
        exact ⟨e, hreached.stops h.sound hfinishes.stops, hw'⟩
      · rintro _ w' ⟨c, hstops, hw', -⟩
        exact ⟨c, hreached.stops h.sound hstops, hw'⟩
    exact hmeets.run hw (fun _ _ hw => hw) fun _ hw => hw
  | other hsame hapart => exact ⟨d, hreached, hw.disk.trans hsame, hapart⟩

/-- So do any number of attempts. -/
theorem Ready.attempts (h : x.Ready P start)
    (hattempts : Relation.ReflTransGen (x.Attempt P) start w) :
    ∃ d, x.Reached start.disk d ∧ w.Mirrors P d := by
  induction hattempts with
  | refl => exact ⟨start.disk, .refl x _, h.mirrors⟩
  | tail _ hattempt ih =>
    obtain ⟨d, hreached, hw⟩ := ih
    exact h.attempt hreached hw hattempt

end Ready

end Assignment

end ThemeLocales.Project
