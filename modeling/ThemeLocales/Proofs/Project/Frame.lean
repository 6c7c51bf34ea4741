import ThemeLocales.Project.Extraction
import ThemeLocales.Proofs.Project.LocaleFile
import ThemeLocales.Proofs.Template.KeyTable

/-!
# What runs leave alone

The parts of a run that only read, and those that write to other places, maintain every property
that is framed by a set of places. Along the way: the keys that are collected from sources are
sound.
-/

set_option autoImplicit false

namespace ThemeLocales.Project

open Operation World

variable {S : List String → Prop} {I J E : World → Prop}

theorem logStable_of_framed (h : Framed S I) : LogStable I :=
  fun _ r hw => h.logged hw r

theorem maintains_readBytes (path : String) : Maintains I (readBytes path) :=
  (meets_readBytes path).mono (fun _ hw => hw) (fun _ _ hw => hw.1) fun _ hw => hw.1

theorem maintains_readPoints (path : String) : Maintains I (readPoints path) :=
  (meets_readPoints path).mono (fun _ hw => hw) (fun _ _ hw => hw.1) fun _ hw => hw.1

/-! ## Languages -/

theorem maintains_extractLanguages (h : LogStable I) (path : String) :
    Maintains I (extractLanguages path) := by
  refine .bind (.isThere (R := fun _ => I) fun _ hw => hw) fun there => ?_
  cases there with
  | false =>
    exact .bind (h.logMessage .error _) fun _ => .pure _ fun _ hw => hw
  | true =>
    refine .bind (maintains_readPoints path) fun schema => ?_
    refine .bind (Ends.ofResult (Q := fun _ => I) (fun _ _ hw _ => hw) fun _ _ hw => hw)
      fun languages => ?_
    cases languages with
    | nil => exact .bind (h.logMessage .info _) fun _ => .pure _ fun _ hw => hw
    | cons language rest => exact .bind (h.logMessage .info _) fun _ => .pure _ fun _ hw => hw

theorem maintains_allLanguages (h : LogStable I) (settings : Settings) :
    Maintains I (allLanguages settings) := by
  unfold allLanguages
  by_cases hempty : settings.targetLanguages.isEmpty = true
  · simp only [hempty, if_true]
    exact .bind (maintains_extractLanguages h _) fun _ => .pure _ fun _ hw => hw
  · simp only [hempty]
    exact .pure _ fun _ hw => hw

theorem mainLanguage_of_default {settings : Settings} {language : String}
    (h : settings.defaultLanguage = some language) (hne : language ≠ "") :
    mainLanguage settings = pure (some language) := by
  simp [mainLanguage, h, hne]

/-- Where no main language is configured it is the first of all languages. -/
theorem mainLanguage_cases (settings : Settings) :
    (∃ language, settings.defaultLanguage = some language ∧ language ≠ "") ∨
      mainLanguage settings = (do return (← allLanguages settings).head?) := by
  unfold mainLanguage
  cases settings.defaultLanguage with
  | none => exact Or.inr rfl
  | some language =>
    by_cases hempty : language = ""
    · subst hempty
      exact Or.inr rfl
    · exact Or.inl ⟨language, rfl, hempty⟩

theorem maintains_mainLanguage (h : LogStable I) (settings : Settings) :
    Maintains I (mainLanguage settings) := by
  rcases mainLanguage_cases settings with ⟨language, hdefault, hne⟩ | hfirst
  · rw [mainLanguage_of_default hdefault hne]
    exact .pure _ fun _ hw => hw
  · rw [hfirst]
    exact .bind (maintains_allLanguages h settings) fun _ => .pure _ fun _ hw => hw

/-! ## Sources -/

/-- Both tables of collected keys are sound. -/
structure Collected.Sound (c : Collected) : Prop where
  normal : c.normal.Sound
  schema : c.schema.Sound

/-- The document of the keys for one kind of locale files. -/
def Collected.document (c : Collected) : LocaleKind → Document
  | .normal => Document.expand c.normal
  | .schema => Document.expand c.schema

theorem Collected.Sound.document {c : Collected} (h : c.Sound) (kind : LocaleKind) :
    (c.document kind).Sound := by
  cases kind with
  | normal => exact Document.sound_expand (Document.sound_map_iff.1 h.normal).2
  | schema => exact Document.sound_expand (Document.sound_map_iff.1 h.schema).2

theorem sound_addContent {c : Collected} (hc : c.Sound) (content : String) :
    (c.addContent content).Sound :=
  ⟨KeyTable.sound_add hc.normal (KeyTable.sound_normalKeys (KeyTable.sound_ofContent content)),
    KeyTable.sound_add hc.schema (KeyTable.sound_schemaKeys (KeyTable.sound_ofContent content))⟩

theorem meets_collectFile (h : LogStable I) {c : Collected} (hc : c.Sound) (path : String) :
    Meets I (collectFile c path) (fun c w => c.Sound ∧ I w) I := by
  refine .bind (maintains_readBytes path) fun bytes => ?_
  refine .bind (h.logTimes .debug _ _) fun _ => ?_
  exact .pure _ fun w hw => ⟨sound_addContent hc _, hw⟩

theorem meets_foldlM_collectFile (h : LogStable I) (paths : List String) {c : Collected}
    (hc : c.Sound) :
    Meets I (paths.foldlM collectFile c) (fun c w => c.Sound ∧ I w) I := by
  induction paths generalizing c with
  | nil => exact .pure _ fun w hw => ⟨hc, hw⟩
  | cons path rest ih =>
    rw [List.foldlM_cons]
    exact (meets_collectFile h hc path).bind fun c' => .of_and fun hc' => ih hc'

theorem meets_collectDirectory (h : LogStable I) (extensions : List String) {c : Collected}
    (hc : c.Sound) (directory : String) :
    Meets I (collectDirectory extensions c directory) (fun c w => c.Sound ∧ I w) I := by
  refine .bind (.isThere (R := fun _ => I) fun _ hw => hw) fun there => ?_
  cases there with
  | false =>
    exact .bind (h.logMessage .warning _) fun _ => .pure _ fun w hw => ⟨hc, hw⟩
  | true =>
    have hfiles : Maintains I (sourceFiles directory extensions) := by
      refine .bind (.disk (R := fun _ => I) fun _ hw => hw) fun d => ?_
      refine .bind (.ofDisk (Q := fun _ => I) (fun _ _ hw _ => hw) fun _ _ hw _ => hw) fun _ => ?_
      exact .pure _ fun _ hw => hw
    refine .bind hfiles fun files => ?_
    exact .bind (h.logMessage .info _) fun _ => meets_foldlM_collectFile h files hc

/-- Collecting keys yields sound tables. -/
theorem meets_collectKeys (h : LogStable I) (directories extensions : List String) :
    Meets I (collectKeys directories extensions) (fun c w => c.Sound ∧ I w) I := by
  have hfold : ∀ (directories : List String) {c : Collected}, c.Sound →
      Meets I (directories.foldlM (collectDirectory extensions) c)
        (fun c w => c.Sound ∧ I w) I := by
    intro directories
    induction directories with
    | nil => exact fun hc => .pure _ fun w hw => ⟨hc, hw⟩
    | cons directory rest ih =>
      intro c hc
      rw [List.foldlM_cons]
      exact (meets_collectDirectory h extensions hc directory).bind fun c' =>
        .of_and fun hc' => ih hc'
  exact hfold directories ⟨Document.sound_map_nil, Document.sound_map_nil⟩

/-- The collected keys are strings, or one of them is none. -/
theorem ends_requireStrings {c : Collected} {Q : Unit → World → Prop}
    {F : Failure → World → Prop} (hQ : c.unpaired = [] → ∀ w, I w → Q () w)
    (hF : c.unpaired ≠ [] → ∀ w, I w → F (.json .unpaired) w) : Ends I c.requireStrings Q F := by
  unfold Collected.requireStrings
  split
  · next hempty => exact .pure _ (hQ (List.isEmpty_iff.1 hempty))
  · next hne => exact .throw _ (hF fun hempty => hne (List.isEmpty_iff.2 hempty))

/-! ## Writing elsewhere -/

/-- A framed property survives the making of directories, which keeps every place. -/
theorem framed_makeDirectories (h : Framed S I) {w : World} {d : Disk} {path : String} (hw : I w)
    (hd : w.disk.makeDirectories path = .ok d) : I { w with disk := d } :=
  h.disk hw ((Disk.keeps_makeDirectories hd).mono fun _ _ => trivial)

theorem maintains_makeDirectories (h : Framed S I) (path : String) :
    Maintains I (makeDirectories path) :=
  .changeDisk (fun _ _ hw hd => framed_makeDirectories h hw hd) fun _ _ hw _ => hw

/-- Saving a locale file, or only saying so in a dry run, maintains what does not look at it. -/
theorem maintains_saveLocale (h : Framed S I) {dryRun : Bool} {path : String} (doc : Document)
    (hpath : dryRun = false → ∀ w, I w → ¬ S (w.disk.placeOf path)) :
    Maintains I (saveLocale dryRun path doc) := by
  have hlog := logStable_of_framed h
  cases dryRun with
  | true => exact .bind (hlog.logMessage .info _) fun _ => .pure _ fun _ hw => hw
  | false =>
    have hwrite : Maintains I (writeLocale path doc) := by
      refine meets_writeLocale (fun w d hw _ hd => framed_makeDirectories h hw hd) ?_
        fun _ hw => Or.inl hw
      intro w d hw hwritten
      refine h.disk hw ((Disk.keeps_write hwritten).mono fun place hplace heq => ?_)
      exact hpath rfl w hw (heq ▸ hplace)
    exact .bind hwrite fun _ => .bind (hlog.logMessage .info _) fun _ => .pure _ fun _ hw => hw

theorem maintains_readLocale (h : LogStable I) (path : String) : Maintains I (readLocale path) :=
  ends_readLocale (fun _ hw => hw) (fun _ => h) fun _ hw _ => hw

end ThemeLocales.Project
