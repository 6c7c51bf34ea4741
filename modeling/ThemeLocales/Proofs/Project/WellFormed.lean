import ThemeLocales.Proofs.Disk.WellFormed
import ThemeLocales.Proofs.Project.Run

/-!
# Runs on a well-formed disk

Whatever a run comes to, it leaves a well-formed disk as one (`wellFormed_extractKeys`,
`wellFormed_translateLocales`), since all that it does to the disk is to write files and to make
directories. So what is known of the walk over the sources of a well-formed disk is known of every
extraction in a project that began with one, whatever was run there before.
-/

set_option autoImplicit false

namespace ThemeLocales

open Operation

/-- The disk of a world is well formed. -/
def World.Tidy (w : World) : Prop :=
  w.disk.WellFormed

/-! ## Filling -/

namespace Document

variable {I : World → Prop} {translate : String → Operation Document}

/-- Filling from a document maintains what every request maintains. -/
theorem maintains_fill (h : ∀ s, Maintains I (translate s)) (source : Document) :
    ∀ target, Maintains I (fill translate source target) := by
  induction source using structuralRec with
  | scalar d hd =>
    intro target
    cases d with
    | string s =>
      rw [fill]
      split_ifs
      · exact .pure _ fun _ hw => hw
      · exact .pure _ fun _ hw => hw
      · exact h s
    | list => simp [kind] at hd
    | map => simp [kind] at hd
    | _ => exact .pure _ fun _ hw => hw
  | list ds ih =>
    have hitems : ∀ ts, Maintains I (fillItems translate ds ts) := by
      induction ds with
      | nil => exact fun _ => .pure _ fun _ hw => hw
      | cons d ds ihds =>
        obtain ⟨hd, hds⟩ := List.forall_mem_cons.1 ih
        exact fun ts => .bind (hd _) fun _ => .bind (ihds hds ts.tail) fun _ =>
          .pure _ fun _ hw => hw
    exact fun target => .bind (hitems target.items) fun _ => .pure _ fun _ hw => hw
  | map es ih =>
    have hentries : ∀ ts, Maintains I (fillEntries translate es ts) := by
      induction es with
      | nil => exact fun _ => .pure _ fun _ hw => hw
      | cons e es ihes =>
        obtain ⟨he, hes⟩ := List.forall_mem_cons.1 ih
        exact fun ts => .bind (he _) fun _ => .bind (ihes hes ts) fun _ =>
          .pure _ fun _ hw => hw
    exact fun target => .bind (hentries target.entries) fun _ => .pure _ fun _ hw => hw

end Document

namespace Project

open World

/-! ## Changes of the disk -/

/-- A record is at most a line at the end of a file. -/
theorem logStable_tidy : LogStable Tidy := by
  intro w r hw
  rcases logged_disk w r with hdisk | ⟨path, line, -, hdisk⟩
  · rw [Tidy, hdisk]
    exact hw
  · rw [Tidy, hdisk]
    exact hw.appendLine path line

theorem maintains_makeDirectories_tidy (path : String) : Maintains Tidy (makeDirectories path) :=
  .changeDisk (fun _ _ hw hd => hw.makeDirectories hd) fun _ _ hw _ => hw

theorem maintains_writeLocale_tidy (path : String) (doc : Document) :
    Maintains Tidy (writeLocale path doc) :=
  meets_writeLocale (fun _ _ hw _ hd => hw.makeDirectories hd) (fun _ _ hw hd => hw.write hd)
    fun _ hw => Or.inl hw

/-! ## Extraction -/

section Extraction

variable {settings : Settings} {clean : Bool} {language : String} {e : Extracted}

theorem maintains_saveLocale_tidy (dryRun : Bool) (path : String) (doc : Document) :
    Maintains Tidy (saveLocale dryRun path doc) := by
  have hlog := logStable_tidy
  cases dryRun with
  | true => exact .bind (hlog.logMessage .info _) fun _ => .pure _ fun _ hw => hw
  | false =>
    exact .bind (maintains_writeLocale_tidy path doc) fun _ =>
      .bind (hlog.logMessage .info _) fun _ => .pure _ fun _ hw => hw

theorem maintains_updateMain_tidy : Maintains Tidy (updateMain settings clean language e) :=
  .bind (maintains_readLocale logStable_tidy _) fun _ =>
    .bind (maintains_saveLocale_tidy _ _ _) fun _ => .pure _ fun _ hw => hw

theorem maintains_updateTarget_tidy {mainDocument : Document} :
    Maintains Tidy (updateTarget settings clean language e mainDocument) :=
  .bind (maintains_readLocale logStable_tidy _) fun _ => maintains_saveLocale_tidy _ _ _

/-- An extraction leaves a well-formed disk as one, whether or not it fails. -/
theorem wellFormed_extractKeys (settings : Settings) (clean : Option Bool) {w : World}
    (h : w.disk.WellFormed) : ((extractKeys settings clean).runIn w).2.disk.WellFormed := by
  have hmeets : Meets (· = w) (extractKeys settings clean) (fun _ => Tidy) Tidy := by
    refine meets_extractKeys logStable_tidy h (fun _ hw => hw) fun languages main keys _ _ _ => ?_
    refine (meets_updateAll (J := Tidy) (F := fun _ => Tidy) (G := fun _ _ => Tidy)
      (H := fun _ _ => Tidy) (fun _ _ hw => hw) (fun _ => maintains_makeDirectories_tidy _)
      maintains_updateMain_tidy (fun _ => maintains_updateMain_tidy) (fun _ _ => ?_)
      fun _ _ => logStable_tidy).mono (fun _ hw => hw) (fun _ _ ⟨_, _, hw⟩ => hw) fun _ hw => hw
    exact Maintains.mapM fun _ _ =>
      maintains_updateLanguage maintains_updateTarget_tidy maintains_updateTarget_tidy
  exact hmeets.run rfl (fun _ _ hw => hw) fun _ hw => hw

end Extraction

/-! ## Translation -/

section Translation

variable {adapter : Provider.Adapter} {settings : Settings} {main language : String}
  {mainDocument : Document}

theorem maintains_translateText_tidy
    (hadapter : ∀ text source target languages,
      Maintains Tidy (adapter.translate text source target languages)) (text : String) :
    Maintains Tidy (translateText adapter settings main language text) := by
  refine .bind (hadapter text main language settings.languageMap) fun _ => ?_
  exact .bind (.modify (R := fun _ => Tidy) fun _ hw => hw) fun _ => .pure _ fun _ hw => hw

theorem maintains_translateFile_tidy
    (hadapter : ∀ text source target languages,
      Maintains Tidy (adapter.translate text source target languages)) {kind : LocaleKind} :
    Maintains Tidy (translateFile adapter settings main kind mainDocument language) := by
  have hlog := logStable_tidy
  have hfill : ∀ target name, Maintains Tidy
      (translateDocument adapter settings main language mainDocument target name) :=
    fun target name => .bind (hlog.logMessage .info _) fun _ =>
      .bind (.modify (R := fun _ => Tidy) fun _ hw => hw) fun _ =>
        Document.maintains_fill (maintains_translateText_tidy hadapter) mainDocument target
  refine .bind (maintains_readLocale hlog _) fun target => ?_
  refine .bind (hfill target _) fun translated => ?_
  cases settings.dryRun with
  | true => exact .bind (hlog.logMessage .info _) fun _ => .pure _ fun _ hw => hw
  | false =>
    exact .bind (maintains_writeLocale_tidy _ _) fun _ =>
      .bind (hlog.logMessage .info _) fun _ => .pure _ fun _ hw => hw

/-- So does a translation, with a provider that does so whatever it is asked. -/
theorem wellFormed_translateLocales {w : World}
    (hadapter : ∀ text source target languages,
      Maintains Tidy (adapter.translate text source target languages))
    (h : w.disk.WellFormed) :
    ((translateLocales settings adapter).runIn w).2.disk.WellFormed := by
  have hmeets : Meets (· = w) (translateLocales settings adapter) (fun _ => Tidy) Tidy := by
    refine meets_translateLocales logStable_tidy h (fun _ hw => hw) fun languages main _ => ?_
    exact Maintains.mapM fun kind _ => meets_translateKind_of_maintains (K := fun _ => Tidy)
      logStable_tidy (fun _ _ hw _ => hw) (fun _ _ _ => maintains_translateFile_tidy hadapter)
      (fun _ hw => hw) fun _ _ hw => hw
  exact hmeets.run rfl (fun _ _ hw => hw) fun _ hw => hw

end Translation

end Project

end ThemeLocales
