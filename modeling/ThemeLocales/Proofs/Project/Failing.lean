import ThemeLocales.Proofs.Document.Walk
import ThemeLocales.Proofs.Project.Languages
import ThemeLocales.Proofs.Project.Run

/-!
# What a run can fail with

The parts of an extraction and of a translation fail with files that cannot be read or written. A
run as a whole may fail with two things more: with languages that a settings schema declares in a
value from which they cannot be told (`Untold`), which matters only where no targets are configured,
and with what the provider fails with (`FailsWith`). `ends_extractKeys` and `ends_translateLocales`
are the main results.
-/

set_option autoImplicit false

namespace ThemeLocales.Project

open Operation

/-! ## Languages -/

/-- The failure of a run that asks the schema for its languages, since no targets are configured,
and cannot tell them. Records may stand between the start of the run and the look at the schema. -/
def UntoldAfter (start : World) (settings : Settings) (e : Failure) : Prop :=
  e = .wrongType ∧ settings.targetLanguages = [] ∧
    ∃ w, LogsTo start w ∧ Untold w.disk settings.schemaPath

/-- Where targets are configured, the schema is not asked for them. -/
theorem ends_allLanguages (start : World) (settings : Settings) :
    Ends (LogsTo start) (allLanguages settings) (fun _ => LogsTo start)
      fun e _ => e.isUnreadable = true ∨ UntoldAfter start settings e := by
  -- one rule says with what it fails, seen from the world in which it starts; another one that
  -- only records lead away from there
  have hkeep := maintains_allLanguages (logStable_logsTo start) settings
  apply Ends.of_forall
  intro w hw
  have hfail : Ends (· = w) (allLanguages settings) (fun _ _ => True)
      fun e _ => e.isUnreadable = true ∨ UntoldAfter start settings e := by
    unfold allLanguages
    cases htargets : settings.targetLanguages with
    | nil =>
      refine .bind ((ends_extractLanguages w settings.schemaPath).mono (fun _ hw => hw)
        (fun _ _ hw => hw) fun e _ he => ?_) fun targets => .pure _ fun _ hw => hw
      exact he.imp_right fun ⟨hfailure, huntold⟩ => ⟨hfailure, htargets, w, hw, huntold⟩
    | cons language rest => exact .pure _ fun _ _ => trivial
  refine (hfail.and hkeep).mono (fun v hv => ⟨hv, ?_⟩) (fun _ _ hv => hv.2) fun _ _ hv => hv.1
  rw [hv]
  exact hw

theorem ends_mainLanguage (start : World) (settings : Settings) :
    Ends (LogsTo start) (mainLanguage settings) (fun _ => LogsTo start)
      fun e _ => e.isUnreadable = true ∨ UntoldAfter start settings e := by
  rcases mainLanguage_cases settings with ⟨language, hdefault, hne⟩ | hfirst
  · rw [mainLanguage_of_default hdefault hne]
    exact .pure _ fun _ hw => hw
  · rw [hfirst]
    exact .bind (ends_allLanguages start settings) fun _ => .pure _ fun _ hw => hw

/-! ## Locale files -/

/-- A locale file that cannot be read counts as an empty document, and one that can be read may have
no document of strings. -/
theorem failsUnreadable_readLocale (path : String) : FailsUnreadable (readLocale path) := by
  refine .bind (.attempt _) fun outcome => ?_
  split
  · exact failsUnreadable_strings _
  · exact .bind (.logMessage _ _) fun _ => .pure _
  · exact .bind (.logMessage _ _) fun _ => .pure _

theorem failsUnreadable_writeLocale (path : String) (d : Document) :
    FailsUnreadable (writeLocale path d) := by
  have hwrite : FailsUnreadable (writeText path (localeText d)) := failsUnreadable_changeDisk _
  by_cases hdirectory : Path.directory path = ""
  · simpa only [writeLocale, hdirectory, ne_eq, not_true_eq_false, if_false] using hwrite
  · simp only [writeLocale, ne_eq, hdirectory, not_false_eq_true, if_true]
    exact .bind (failsUnreadable_changeDisk _) fun _ => hwrite

theorem failsUnreadable_saveLocale (dryRun : Bool) (path : String) (d : Document) :
    FailsUnreadable (saveLocale dryRun path d) := by
  cases dryRun with
  | true => exact .bind (.logMessage _ _) fun _ => .pure _
  | false =>
    refine .bind (failsUnreadable_writeLocale path d) fun _ => ?_
    exact .bind (.logMessage _ _) fun _ => .pure _

/-! ## Extraction -/

theorem failsUnreadable_collectFile (c : Collected) (path : String) :
    FailsUnreadable (collectFile c path) := by
  refine .bind (failsUnreadable_readBytes path) fun bytes => ?_
  exact .bind (.logTimes _ _ _) fun _ => .pure _

theorem failsUnreadable_requireStrings (c : Collected) : FailsUnreadable c.requireStrings := by
  unfold Collected.requireStrings
  split
  · exact .pure _
  · exact .throw rfl

theorem failsUnreadable_collectDirectory (extensions : List String) (c : Collected)
    (directory : String) : FailsUnreadable (collectDirectory extensions c directory) := by
  refine .bind (.isThere directory) fun there => ?_
  cases there with
  | false => exact .bind (.logMessage _ _) fun _ => .pure _
  | true =>
    have hfiles : FailsUnreadable (sourceFiles directory extensions) :=
      .bind .disk fun _ => .bind (failsUnreadable_ofDisk _) fun _ => .pure _
    refine .bind hfiles fun files => ?_
    exact .bind (.logMessage _ _) fun _ => .foldlM failsUnreadable_collectFile c files

theorem failsUnreadable_updateMain (settings : Settings) (clean : Bool) (main : String)
    (e : Extracted) : FailsUnreadable (updateMain settings clean main e) := by
  refine .bind (failsUnreadable_readLocale _) fun origin => ?_
  exact .bind (failsUnreadable_saveLocale _ _ _) fun _ => .pure _

theorem failsUnreadable_updateTarget (settings : Settings) (clean : Bool) (language : String)
    (e : Extracted) (main : Document) :
    FailsUnreadable (updateTarget settings clean language e main) :=
  .bind (failsUnreadable_readLocale _) fun _ => failsUnreadable_saveLocale _ _ _

theorem failsUnreadable_updateLanguage (settings : Settings) (clean : Bool)
    (normal schema : Extracted) (mainNormal mainSchema : Document) (language : String) :
    FailsUnreadable
      (updateLanguage settings clean normal schema mainNormal mainSchema language) := by
  refine .bind (failsUnreadable_updateTarget _ _ _ _ _) fun _ => ?_
  exact .bind (failsUnreadable_updateTarget _ _ _ _ _) fun _ => .pure _

theorem failsUnreadable_updateAll (settings : Settings) (clean : Bool) (languages : List String)
    (main : String) (normal schema : Extracted) :
    FailsUnreadable (updateAll settings clean languages main normal schema) := by
  have hfiles : FailsUnreadable (do
      let first ← updateMain settings clean main normal
      let second ← updateMain settings clean main schema
      let others ← (languages.filter (· ≠ main)).mapM
        (updateLanguage settings clean normal schema first.1 second.1)
      logMessage .info
        ((if clean then "Cleaned unused keys and extracted" else "Extracted") ++
          " translation keys into '" ++ settings.localesPath ++ "'.")
      return first.2 ++ second.2 ++ others.flatten) := by
    refine .bind (failsUnreadable_updateMain _ _ _ _) fun first => ?_
    refine .bind (failsUnreadable_updateMain _ _ _ _) fun second => ?_
    refine .bind (.mapM fun language _ => failsUnreadable_updateLanguage _ _ _ _ _ _ _) fun _ => ?_
    exact .bind (.logMessage _ _) fun _ => .pure _
  unfold updateAll
  cases settings.dryRun with
  | true => exact hfiles
  | false => exact .bind (failsUnreadable_changeDisk _) fun _ => hfiles

/-- An extraction fails with a file that cannot be read or written, without a main language, or
where its languages cannot be told. -/
theorem ends_extractKeys (start : World) (settings : Settings) (clean : Option Bool) :
    Ends (LogsTo start) (extractKeys settings clean) (fun _ _ => True)
      fun e _ => e.isUnreadable = true ∨ UntoldAfter start settings e := by
  refine .bind (ends_allLanguages start settings) fun languages => ?_
  refine .bind (ends_mainLanguage start settings) fun main => ?_
  -- After the languages come source files and locale files only.
  refine Ends.mono (FailsOnly.ends (K := fun e => e.isUnreadable = true) ?_) (fun _ hw => hw)
    (fun _ _ hw => hw) fun e _ he => .inl he
  have hrest : ∀ language, FailsUnreadable (do
      let keys ← collectKeys settings.sourcePaths sourceExtensions
      keys.requireStrings
      logMessage .info
        ("Extracted " ++ toString keys.normal.length ++ " key(s) and " ++
          toString keys.schema.length ++ " schema key(s).")
      updateAll settings (clean.getD settings.cleanUnused) languages language
        ⟨.normal, Document.expand keys.normal⟩ ⟨.schema, Document.expand keys.schema⟩) := by
    intro language
    refine .bind (.foldlM (failsUnreadable_collectDirectory _) _ _) fun keys => ?_
    refine .bind (failsUnreadable_requireStrings keys) fun _ => .bind (.logMessage _ _) fun _ => ?_
    exact failsUnreadable_updateAll settings _ languages _ _ _
  cases main with
  | none => exact .bind (.throw rfl) hrest
  | some language => exact .bind (.pure language) hrest

/-! ## Translation -/

/-- A provider may fail with this when it is asked for a text. -/
def FailsWith (adapter : Provider.Adapter) (e : Failure) : Prop :=
  ∃ text source target languages w w',
    (adapter.translate text source target languages).runIn w = (.error e, w')

/-- A failure of a file or of the provider. -/
def Stops (adapter : Provider.Adapter) (e : Failure) : Prop :=
  e.isUnreadable = true ∨ FailsWith adapter e

variable {K : Failure → Prop}

/-- A fill fails with what the translation of a text fails with. -/
theorem failsOnly_fill {translate : String → Operation Document}
    (h : ∀ s, FailsOnly K (translate s)) (source target : Document) :
    FailsOnly K (Document.fill translate source target) := by
  -- The results go along with the failures, since the rule for a sequence speaks of them.
  have htraced : Document.Traced fun {α : Type} (op : Operation α) (_ : List String)
      (R : α → Prop) => FailsOnly K op ∧ ∀ w a w', op.runIn w = (.ok a, w') → R a := by
    refine ⟨fun {_ _ a} ha => ⟨.pure a, ?_⟩, fun hop hf => ⟨?_, ?_⟩, fun hop hR => ⟨hop.1, ?_⟩⟩
    · intro w b w' hrun
      cases hrun
      exact ha
    · apply hop.1.bind_run
      intro a w w' hrun
      exact (hf a (hop.2 w a w' hrun)).1
    · intro w b w' hrun
      obtain ⟨a, w₁, hfirst, hsecond⟩ := runIn_bind_eq_ok.1 hrun
      exact (hf a (hop.2 w a w₁ hfirst)).2 w₁ b w' hsecond
    · intro w a w' hrun
      exact hR a (hop.2 w a w' hrun)
  have hask : ∀ s, s ≠ "" → FailsOnly K (translate s) ∧
      ∀ w a w', (translate s).runIn w = (.ok a, w') → True := by
    intro s _
    exact ⟨h s, fun _ _ _ _ => trivial⟩
  exact (htraced.fill (A := fun _ _ => True) hask source target).1

theorem failsOnly_translateText (adapter : Provider.Adapter) (settings : Settings)
    (main language text : String) :
    FailsOnly (Stops adapter) (translateText adapter settings main language text) := by
  refine .bind ?_ fun result => .bind (.modify _) fun _ => .pure _
  intro w e w' hrun
  exact .inr ⟨text, main, language, settings.languageMap, w, w', hrun⟩

theorem failsOnly_translateFile (adapter : Provider.Adapter) (settings : Settings) (main : String)
    (kind : LocaleKind) (mainDocument : Document) (language : String) :
    FailsOnly (Stops adapter)
      (translateFile adapter settings main kind mainDocument language) := by
  refine .bind ((failsUnreadable_readLocale _).mono fun _ => .inl) fun target => ?_
  have hdocument : FailsOnly (Stops adapter) (translateDocument adapter settings main language
      mainDocument target (Path.baseName (localePath settings.localesPath language kind))) := by
    refine .bind (.logMessage _ _) fun _ => .bind (.modify _) fun _ => ?_
    exact failsOnly_fill (failsOnly_translateText adapter settings main language) _ _
  refine .bind hdocument fun translated => ?_
  cases settings.dryRun with
  | true => exact .bind (.logMessage _ _) fun _ => .pure _
  | false =>
    refine .bind ((failsUnreadable_writeLocale _ _).mono fun _ => .inl) fun _ => ?_
    exact .bind (.logMessage _ _) fun _ => .pure _

theorem failsOnly_translateKind (adapter : Provider.Adapter) (settings : Settings) (main : String)
    (targets : List String) (kind : LocaleKind) :
    FailsOnly (Stops adapter) (translateKind adapter settings main targets kind) := by
  refine .bind (.isThere _) fun there => ?_
  cases there with
  | false => exact .bind (.logMessage _ _) fun _ => .pure _
  | true =>
    refine .bind ((failsUnreadable_readJson _).mono fun _ => .inl) fun mainDocument => ?_
    refine .bind (.mapM fun language _ => ?_) fun written => .pure _
    exact failsOnly_translateFile adapter settings main kind mainDocument language

/-- A translation fails with a file that cannot be read or written, with what its provider fails
with, or where its languages cannot be told. -/
theorem ends_translateLocales (start : World) (settings : Settings)
    (adapter : Provider.Adapter) :
    Ends (LogsTo start) (translateLocales settings adapter) (fun _ _ => True)
      fun e _ => Stops adapter e ∨ UntoldAfter start settings e := by
  have hlanguages : ∀ e : Failure, e.isUnreadable = true ∨ UntoldAfter start settings e →
      Stops adapter e ∨ UntoldAfter start settings e :=
    fun e he => he.imp_left .inl
  refine .bind ((ends_mainLanguage start settings).mono (fun _ hw => hw) (fun _ _ hw => hw)
    fun e _ => hlanguages e) fun main => ?_
  refine .bind ((ends_allLanguages start settings).mono (fun _ hw => hw) (fun _ _ hw => hw)
    fun e _ => hlanguages e) fun languages => ?_
  refine Ends.mono (FailsOnly.ends (K := Stops adapter) ?_) (fun _ hw => hw) (fun _ _ hw => hw)
    fun e _ he => .inl he
  exact .bind (.mapM fun kind _ => failsOnly_translateKind _ _ _ _ kind) fun _ => .pure _

end ThemeLocales.Project
