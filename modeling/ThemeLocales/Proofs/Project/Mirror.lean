import ThemeLocales.Proofs.Document.Completed
import ThemeLocales.Proofs.Project.Reconcile
import ThemeLocales.Proofs.Project.Revision
import ThemeLocales.Proofs.Project.Run

/-!
# What runs do to locale files, as revisions

A world mirrors a disk at some places when it has the same entries there and writes no record to any
of them (`Mirrors`). An operation carries out revisions when it does to every mirrored disk what
they do (`Carries`): it succeeds where they do, and where it fails it leaves what they leave when
they stop. So does the update of a document of a target in an extraction (`carries_updateTarget`),
and so does the translation of one file by a provider that has one answer for each text
(`carries_translateFile`), whatever else the provider and the run do to the world.
-/

set_option autoImplicit false

namespace ThemeLocales

/-- A world has the entries of a disk at some places, and no record is written to them. -/
structure World.Mirrors (P : List String → Prop) (d : Disk) (w : World) : Prop where
  disk : d.SameAt P w.disk
  apart : w.Apart P

namespace World

variable {P : List String → Prop} {d : Disk} {w : World}

theorem Apart.mirrors (h : w.Apart P) : w.Mirrors P w.disk :=
  ⟨.refl P w.disk, h⟩

/-- What the same disk is, with the same journal, is mirrored again. -/
theorem Mirrors.of_sameAt {w' : World} (h : w.Mirrors P d) (hdisk : w.disk.SameAt P w'.disk)
    (hjournal : w'.journal = w.journal) : w'.Mirrors P d := by
  refine ⟨h.disk.trans hdisk, fun path hpath => ?_⟩
  rw [hdisk.placeOf]
  exact h.apart path (hjournal ▸ hpath)

theorem Mirrors.logged (h : w.Mirrors P d) (r : LogRecord) : (w.logged r).Mirrors P d := by
  refine h.of_sameAt ?_ rfl
  rcases logged_disk w r with hdisk | ⟨path, line, hfile, hdisk⟩
  · rw [hdisk]
    exact .refl P w.disk
  · rw [hdisk]
    exact Disk.sameAt_appendLine (h.apart path hfile)

end World

namespace Project

open Operation World

variable {P : List String → Prop} {d : Disk}

theorem logStable_mirrors (P : List String → Prop) (d : Disk) : LogStable (World.Mirrors P d) :=
  fun _ r hw => hw.logged r

/-! ## Reading and writing -/

/-- Reading a locale file yields what it counts as on the mirrored disk, or it fails because a
surrogate stands alone in the file. -/
theorem ends_readLocale_mirrors {path : String} (hsees : Disk.Sees P d path) :
    Ends (World.Mirrors P d) (readLocale path)
      (fun doc w => doc = d.localeDocument path ∧ w.Mirrors P d)
      fun failure w => (failure = .json .unpaired ∧ d.IsUnpaired path) ∧ w.Mirrors P d := by
  refine ends_readLocale (fun w hw => ⟨?_, hw⟩) (fun doc w r hw => ⟨hw.1, hw.2.logged r⟩)
    fun w hw hunpaired => ⟨⟨rfl, ?_⟩, hw⟩
  · exact hw.disk.localeDocument hsees
  · obtain ⟨doc, hdoc, hdocument⟩ := hunpaired
    exact ⟨doc, (hw.disk.points? hsees).symm.trans hdoc, hdocument⟩

/-- Reading a file as JSON yields what it holds on the mirrored disk. -/
theorem meets_readPoints_mirrors {path : String} (hsees : Disk.Sees P d path) :
    Meets (World.Mirrors P d) (readPoints path)
      (fun doc w => d.points? path = some doc ∧ w.Mirrors P d)
      (fun w => d.points? path = none ∧ w.Mirrors P d) := by
  refine (meets_readPoints path).mono (fun _ hw => hw) (fun doc w hw => ?_) fun w hw => ?_
  · exact ⟨(hw.1.disk.points? hsees).symm.trans hw.2, hw.1⟩
  · exact ⟨(hw.1.disk.points? hsees).symm.trans hw.2, hw.1⟩

/-- The same of the document of strings that it is. -/
theorem meets_readJson_mirrors {path : String} (hsees : Disk.Sees P d path) :
    Meets (World.Mirrors P d) (readJson path)
      (fun doc w => d.document? path = some doc ∧ w.Mirrors P d)
      (fun w => d.document? path = none ∧ w.Mirrors P d) := by
  refine (meets_readJson path).mono (fun _ hw => hw) (fun doc w hw => ?_) fun w hw => ?_
  · exact ⟨(hw.1.disk.document? hsees).symm.trans hw.2, hw.1⟩
  · exact ⟨(hw.1.disk.document? hsees).symm.trans hw.2, hw.1⟩

/-- A change that the two disks admit alike is made to the mirrored disk as well. -/
theorem meets_changeDisk_mirrors {change : Disk → Except Disk.Refusal Disk}
    (halike : ∀ d', d.SameAt P d' → Disk.Alike P (change d) (change d'))
    (hkeeps : ∀ e, change d = .ok e → e.workingDirectory = d.workingDirectory) :
    Meets (World.Mirrors P d) (changeDisk change)
      (fun _ w => ∃ e, change d = .ok e ∧ w.Mirrors P e)
      (fun w => w.Mirrors P d ∧ ∃ refusal, change d = .error refusal) := by
  refine .changeDisk (fun w d' hw hchanged => ?_) fun w refusal hw hrefused => ⟨hw, ?_⟩
  · have h := halike w.disk hw.disk
    rw [hchanged] at h
    generalize hx : change d = x at h
    cases h with
    | @ok e _ hsame =>
      refine ⟨e, rfl, hsame, ?_⟩
      -- The change leaves the working directory, so the file of the records stays at its place.
      intro path hpath
      have hplace : d'.placeOf path = w.disk.placeOf path := by
        simp only [Disk.placeOf, hsame.workingDirectory, hkeeps e hx, hw.disk.workingDirectory]
      change ¬ P (d'.placeOf path)
      rw [hplace]
      exact hw.apart path hpath
  · have h := halike w.disk hw.disk
    rw [hrefused] at h
    generalize change d = x at h
    cases h
    exact ⟨refusal, rfl⟩

/-- Makes the directory of a path. -/
def makeDirectoryOf (path : String) : Operation Unit :=
  if Path.directory path ≠ "" then makeDirectories (Path.directory path) else pure ()

theorem writeLocale_eq (path : String) (doc : Document) :
    writeLocale path doc = makeDirectoryOf path >>= fun _ => writeText path (localeText doc) := by
  by_cases hdirectory : Path.directory path = "" <;>
    simp [writeLocale, makeDirectoryOf, hdirectory]

/-- The directory of a file is made on the mirrored disk. -/
theorem meets_makeDirectoryOf_mirrors {path : String} (hsees : Disk.Sees P d path) :
    Meets (World.Mirrors P d) (makeDirectoryOf path)
      (fun _ w => ∃ c, d.withDirectory path = .ok c ∧ w.Mirrors P c)
      (fun w => w.Mirrors P d ∧ ∃ refusal, d.withDirectory path = .error refusal) := by
  unfold makeDirectoryOf Disk.withDirectory
  split_ifs with hdirectory
  · refine meets_changeDisk_mirrors (fun d' hd' => ?_) fun e hmade => ?_
    · exact hd'.makeDirectories (hsees.directory hdirectory)
    · exact (Disk.keeps_makeDirectories hmade).workingDirectory
  · exact .pure _ fun w hw => ⟨d, rfl, hw⟩

/-! ## Operations that carry out revisions -/

variable {α β : Type}

/-- An operation carries out revisions on a mirrored disk: it does what they do. Where it fails it
leaves what they leave when they stop. Where it has no other reason to fail, a surrogate stands
alone in one of the files, or they do not succeed either. -/
def Carries (P : List String → Prop) (d : Disk) (op : Operation α) (rs : List Revision)
    (unfailing : Prop) : Prop :=
  Ends (World.Mirrors P d) op
    (fun _ w => ∃ e, Revision.applyEach rs d = .ok e ∧ w.Mirrors P e)
    (fun failure w => ∃ c, Revision.Leaves rs d c ∧ w.Mirrors P c ∧
      (unfailing → (failure = .json .unpaired ∧ Revision.Unpaired rs d) ∨
        ∀ e, Revision.applyEach rs d ≠ .ok e))

variable {op : Operation α} {rs more : List Revision} {unfailing : Prop}

theorem carries_pure (a : α) : Carries P d (pure a : Operation α) [] unfailing :=
  .pure a fun _ hw => ⟨d, rfl, hw⟩

theorem carries_logMessage (level : Level) (message : String) :
    Carries P d (logMessage level message) [] unfailing :=
  ((logStable_mirrors P d).logMessage level message).mono (fun _ hw => hw)
    (fun _ _ hw => ⟨d, rfl, hw⟩) fun _ _ hw => hw

/-- Revisions that are carried out one after the other. -/
theorem Carries.bind {f : α → Operation β} (hop : Carries P d op rs unfailing)
    (hf : ∀ e, Revision.applyEach rs d = .ok e → ∀ a, Carries P e (f a) more unfailing) :
    Carries P d (op >>= f) (rs ++ more) unfailing := by
  refine Ends.bind (Ends.mono hop (fun _ hw => hw) (fun _ _ hw => hw) ?_)
    fun a => .of_exists fun c => .of_and fun happlied => ?_
  · -- The first operation fails, and nothing more is done.
    rintro failure w ⟨c, hleaves, hw, hnever⟩
    refine ⟨c, hleaves.append_right more, hw, ?_⟩
    intro hunfailing
    rcases hnever hunfailing with ⟨hfailure, hunpaired⟩ | hnever
    · exact Or.inl ⟨hfailure, hunpaired.mono fun r => List.mem_append_left more⟩
    · refine Or.inr fun e hok => ?_
      obtain ⟨m, happlied, -⟩ := Revision.applyEach_append.1 hok
      exact hnever m happlied
  · -- It has applied its revisions, and the second goes on from there.
    refine Ends.mono (hf c happlied a) (fun _ hw => hw) ?_ ?_
    · rintro b w ⟨e, hmore, hw⟩
      exact ⟨e, Revision.applyEach_append.2 ⟨c, happlied, hmore⟩, hw⟩
    · rintro failure w ⟨e, hleaves, hw, hnever⟩
      refine ⟨e, .append_left happlied hleaves, hw, ?_⟩
      intro hunfailing
      rcases hnever hunfailing with ⟨hfailure, hunpaired⟩ | hnever
      · have hbefore := hunpaired.of_applyEach happlied
        exact Or.inl ⟨hfailure, hbefore.mono fun r => List.mem_append_right rs⟩
      · refine Or.inr fun e' hok => ?_
        obtain ⟨m, happlied', hmore⟩ := Revision.applyEach_append.1 hok
        rw [happlied] at happlied'
        cases happlied'
        exact hnever e' hmore

/-- What follows may be a pure step or a record. -/
theorem Carries.bind_nil {f : α → Operation β} (hop : Carries P d op rs unfailing)
    (hf : ∀ e a, Carries P e (f a) [] unfailing) : Carries P d (op >>= f) rs unfailing := by
  have h := hop.bind fun e _ => hf e
  rwa [List.append_nil] at h

/-- What comes before may look at the mirrored disk, and fail for another reason. -/
theorem Carries.after {f : α → Operation β} {R : α → Prop}
    (hop : Ends (World.Mirrors P d) op (fun a w => R a ∧ w.Mirrors P d)
      fun failure w => (unfailing → failure = .json .unpaired ∧ Revision.Unpaired rs d) ∧
        w.Mirrors P d)
    (hf : ∀ a, R a → Carries P d (f a) rs unfailing) : Carries P d (op >>= f) rs unfailing := by
  refine Ends.bind (hop.mono (fun _ hw => hw) (fun _ _ hw => hw) ?_) fun a => .of_and (hf a)
  exact fun failure w hw => ⟨d, .now rs d, hw.2, fun hunfailing => Or.inl (hw.1 hunfailing)⟩

/-- What comes before may be the reading of the file that is revised first. -/
theorem Carries.after_readLocale {f : Document → Operation β} {r : Revision}
    (hsees : Disk.Sees P d r.path)
    (hf : Carries P d (f (d.localeDocument r.path)) (r :: rs) unfailing) :
    Carries P d (readLocale r.path >>= f) (r :: rs) unfailing :=
  .after ((ends_readLocale_mirrors hsees).mono (fun _ hw => hw) (fun _ _ hw => hw) fun _ _ hw =>
    ⟨fun _ => ⟨hw.1.1, r, List.mem_cons_self, hw.1.2.isUnpairedAt⟩, hw.2⟩) fun _ hdoc => hdoc ▸ hf

theorem Carries.mapM {ι : Type} {f : ι → Operation α} {revisions : ι → List Revision}
    {xs : List ι} (h : ∀ x ∈ xs, ∀ e, e.workingDirectory = d.workingDirectory →
      Carries P e (f x) (revisions x) unfailing) :
    Carries P d (xs.mapM f) (xs.flatMap revisions) unfailing := by
  induction xs generalizing d with
  | nil => exact carries_pure _
  | cons x xs ih =>
    rw [List.mapM_cons, List.flatMap_cons]
    refine (h x List.mem_cons_self d rfl).bind fun e happlied _ => ?_
    have hkept := (Revision.keeps_applyEach happlied).workingDirectory
    refine (ih fun y hy e' he' => ?_).bind_nil fun _ _ => carries_pure _
    exact h y (List.mem_cons_of_mem x hy) e' (he'.trans hkept)

/-- Writing the document of a revision carries out the revision. -/
theorem carries_writeLocale (r : Revision) (hsees : Disk.Sees P d r.path) :
    Carries P d (writeLocale r.path (r.result d)) [r] unfailing := by
  have happly : ∀ e, Revision.applyEach [r] d = .ok e ↔ ∃ c, d.withDirectory r.path = .ok c ∧
      c.write r.path (localeText (r.result d)).toUTF8 = .ok e := by
    intro e
    rw [Revision.applyEach_singleton]
    exact Disk.save_eq_ok
  rw [writeLocale_eq]
  refine Ends.bind (Ends.mono (meets_makeDirectoryOf_mirrors hsees) (fun _ hw => hw)
    (fun _ _ hw => hw) ?_) fun _ => .of_exists fun c => .of_and fun hmade => ?_
  · -- The directory is refused, so nothing was done.
    rintro _ w ⟨hw, refusal, hrefused⟩
    refine ⟨d, .now _ d, hw, fun _ => Or.inr fun e hok => ?_⟩
    obtain ⟨c, hmade, -⟩ := (happly e).1 hok
    rw [hrefused] at hmade
    cases hmade
  · have hsees' := (Disk.sees_congr (Disk.keeps_withDirectory hmade).workingDirectory).2 hsees
    refine Ends.mono (meets_changeDisk_mirrors (fun d' hd' => hd'.write hsees' _)
      fun e hwritten => ?_) (fun _ hw => hw) ?_ ?_
    · exact (Disk.keeps_write hwritten).workingDirectory
    · rintro _ w ⟨e, hwritten, hw⟩
      exact ⟨e, (happly e).2 ⟨c, hmade, hwritten⟩, hw⟩
    · -- The file is denied, and its directory stays.
      rintro _ w ⟨hw, refusal, hdenied⟩
      refine ⟨c, .denied hmade hdenied, hw, fun _ => Or.inr fun e hok => ?_⟩
      obtain ⟨c', hmade', hwritten⟩ := (happly e).1 hok
      rw [hmade] at hmade'
      cases hmade'
      rw [hdenied] at hwritten
      cases hwritten

/-- A provider that leaves some places and the journal alone, whatever it does, and has one answer
for each text and target language. It may fail for any text at any time. -/
structure Steady (P : List String → Prop) (answer : String → String → String)
    (adapter : Provider.Adapter) : Prop where
  disk : ∀ text source target languages (w : World), w.Apart P →
    w.disk.SameAt P ((adapter.translate text source target languages).runIn w).2.disk
  journal : ∀ text source target languages (w : World),
    ((adapter.translate text source target languages).runIn w).2.journal = w.journal
  answers : ∀ text source target languages w result w',
    (adapter.translate text source target languages).runIn w = (.ok result, w') →
      result.translatedText = .string (answer target text)

variable {adapter : Provider.Adapter} {answer : String → String → String}

/-- An operation that leaves a mirrored disk as it is, and fails only if a provider does. -/
def Watches (P : List String → Prop) (d : Disk) (adapter : Provider.Adapter) {α : Type}
    (op : Operation α) (_ : List String) (R : α → Prop) : Prop :=
  Meets (World.Mirrors P d) op (fun a w => R a ∧ w.Mirrors P d)
    fun w => w.Mirrors P d ∧ ¬ Unfailing adapter

theorem traced_watches (P : List String → Prop) (d : Disk) (adapter : Provider.Adapter) :
    Document.Traced (Watches P d adapter) where
  pure := fun ha => .pure _ fun _ hw => ⟨ha, hw⟩
  bind := fun hop hf => Ends.bind hop fun a => .of_and (hf a)
  mono := fun hop hRS => Meets.mono hop (fun _ hw => hw) (fun a _ hw => ⟨hRS a hw.1, hw.2⟩)
    fun _ hw => hw

theorem watches_translateText (h : Steady P answer adapter) (settings : Settings)
    (main language text : String) :
    Watches P d adapter (translateText adapter settings main language text) [text]
      (Document.FixedAnswer (answer language) text) := by
  have hask : Meets (World.Mirrors P d) (adapter.translate text main language settings.languageMap)
      (fun result w => result.translatedText = .string (answer language text) ∧ w.Mirrors P d)
      fun w => w.Mirrors P d ∧ ¬ Unfailing adapter := by
    refine ⟨fun w hw => ?_⟩
    have hkept := hw.of_sameAt (h.disk text main language settings.languageMap w hw.apart)
      (h.journal text main language settings.languageMap w)
    -- an answer is the one on record; without one the adapter is not an unfailing one
    split
    · next result w' hrun =>
      rw [hrun] at hkept
      exact ⟨h.answers _ _ _ _ _ _ _ hrun, hkept⟩
    · next hrun =>
      rw [hrun] at hkept
      refine ⟨hkept, fun hunfailing => ?_⟩
      obtain ⟨result, w', hanswered⟩ := hunfailing text main language settings.languageMap w
      rw [hanswered] at hrun
      cases hrun
  refine Ends.bind hask fun result => .of_and fun hresult => ?_
  refine Ends.bind (Q := fun _ => World.Mirrors P d) (.modify fun w hw => ?_) fun _ => ?_
  · exact hw.of_sameAt (.refl P w.disk) rfl
  · exact .pure _ fun w hw => ⟨hresult, hw⟩

/-- What a provider with fixed answers makes of a document is the completed document. -/
theorem meets_translateDocument_mirrors (h : Steady P answer adapter) (settings : Settings)
    (main language : String) (source target : Document) (name : String) :
    Meets (World.Mirrors P d) (translateDocument adapter settings main language source target name)
      (fun result w => result = Document.completed (answer language) source target ∧
        w.Mirrors P d)
      fun w => w.Mirrors P d ∧ ¬ Unfailing adapter := by
  refine .bind ((logStable_mirrors P d).logMessage .info _) fun _ => ?_
  refine .bind (Q := fun _ => World.Mirrors P d) (.modify fun w hw => ?_) fun _ => ?_
  · exact hw.of_sameAt (.refl P w.disk) rfl
  · have hfill : Watches P d adapter _ _ (Document.Filled _ source target) :=
      (traced_watches P d adapter).fill
        (fun text _ => watches_translateText h settings main language text) source target
    exact Meets.mono hfill (fun _ hw => hw)
      (fun _ _ hw => ⟨Document.eq_completed hw.1, hw.2⟩) fun _ hw => hw

/-- The revision of a document of a target language in a translation. -/
def translation (settings : Settings) (answer : String → String → String) (kind : LocaleKind)
    (source : Document) (hsource : source.Storable) (language : String) : Revision where
  path := localePath settings.localesPath language kind
  change := Document.completed (answer language) source
  storable _ htarget := Document.storable_completed hsource htarget

theorem idempotent_translation (settings : Settings)
    (hanswer : ∀ language s, answer language s ≠ "") (kind : LocaleKind) {source : Document}
    (hsource : source.Storable) (language : String) :
    (translation settings answer kind source hsource language).Idempotent :=
  fun _ => Document.completed_again hsource (hanswer language)

/-- Translating a file revises its document. -/
theorem carries_translateFile (h : Steady P answer adapter) {settings : Settings}
    (hwet : settings.dryRun = false) (main : String) {kind : LocaleKind} {source : Document}
    (hsource : source.Storable) {language : String}
    (hsees : Disk.Sees P d (localePath settings.localesPath language kind)) :
    Carries P d (translateFile adapter settings main kind source language)
      [translation settings answer kind source hsource language] (Unfailing adapter) := by
  let r := translation settings answer kind source hsource language
  refine .after_readLocale (r := r) hsees (.after (Ends.mono
    (meets_translateDocument_mirrors h settings main language source _ _) (fun _ hw => hw)
    (fun _ _ hw => hw) fun _ _ hw => ⟨fun hunfailing => absurd hunfailing hw.2, hw.1⟩) ?_)
  rintro _ rfl
  rw [hwet]
  refine (carries_writeLocale r hsees).bind_nil fun _ _ => ?_
  exact (carries_logMessage .info _).bind_nil fun _ _ => carries_pure _

end Project

end ThemeLocales
