import ThemeLocales.Command.Run
import ThemeLocales.Proofs.Config.Load
import ThemeLocales.Proofs.Project.Failing

/-!
# The exit code of a command

A task ends with an exit code unless a failure escapes that it does not expect. `Breaks` lists the
failures of a task's work that may be of this kind: languages that a settings schema declares in a
value from which they cannot be told, and what an adapter fails with, from the run of its module to
the end of its use. `Escapes` adds those of loading the configuration, which is not guarded at all.
Whatever the files hold, however configuration files are read and modules run, and whatever a
provider answers, every other run ends in an exit code (`run_ends`).

For the listing of languages this is exact: it lets a failure out just where the languages of the
schema cannot be told (`run_eq_error_iff`). Where targets are configured the schema is not asked, so
an extraction always ends in a code (`endsInCode_extractKeys`), and a translation does when its
adapter is a generated one (`endsInCode_translate`).
-/

set_option autoImplicit false

namespace ThemeLocales.Command

open Operation Project
open Provider (AdapterClass Importer Service)

variable {host : Host} {settings : Settings} {task : Task} {w w' : World} {e : Failure}

/-! ## Adapters -/

/-- What a module at a path may fail with, beside a failure to be loaded: it ends the run, or the
search for its adapter fails. -/
inductive ModuleFails (importer : Importer) (path : String) : Failure → Prop
  | exits {code : ℕ} {w w' : World} : (importer path).runIn w = (.error (.exit code), w') →
      ModuleFails importer path (.exit code)
  | searched {search : Operation (Option AdapterClass)} {w w' v v' : World} {e : Failure} :
      (importer path).runIn w = (.ok search, w') → search.runIn v = (.error e, v') →
      ModuleFails importer path e

/-- A failure of a provider, or of a module. -/
def ChoiceFails (importer : Importer) (e : Failure) : Prop :=
  e.isProvider = true ∨ ∃ path, ModuleFails importer path e

theorem failsOnly_runModule (importer : Importer) (path : String) :
    FailsOnly (ChoiceFails importer) (Provider.Catalog.runModule importer path) := by
  refine .bind_run (.attempt _) fun outcome w w' hrun => ?_
  have hpair := Prod.ext_iff.1 hrun
  have hmodule : (importer path).runIn w = (outcome, w') :=
    Prod.ext (Except.ok.inj hpair.1) hpair.2
  split
  · exact .pure _
  · exact .throw (.inr ⟨path, .exits hmodule⟩)
  · exact .throw (.inl rfl)
  · exact .throw (.inl rfl)

/-- The search that a module comes to is the one that its importer gives. -/
theorem exists_importer_of_runModule {importer : Importer} {path : String}
    {search : Operation (Option AdapterClass)} {w w' : World}
    (h : (Provider.Catalog.runModule importer path).runIn w = (.ok search, w')) :
    (importer path).runIn w = (.ok search, w') := by
  rcases hmodule : (importer path).runIn w with ⟨outcome, w₁⟩
  rw [Provider.Catalog.runModule, runIn_bind_of_ok (runIn_attempt hmodule)] at h
  split at h
  · cases h
    rfl
  all_goals cases h

theorem failsOnly_inModule (importer : Importer) (path : String) :
    FailsOnly (ChoiceFails importer) (Provider.Catalog.inModule importer path) := by
  refine .bind_run (failsOnly_runModule importer path) fun search w w' hrun => ?_
  have hsearch : FailsOnly (ChoiceFails importer) search := fun v e v' hfailed =>
    .inr ⟨path, .searched (exists_importer_of_runModule hrun) hfailed⟩
  refine .bind (.logMessage _ _) fun _ => .bind hsearch fun found => ?_
  cases found with
  | some c => exact .pure c
  | none => exact .throw (.inl rfl)

theorem failsOnly_byPath (importer : Importer) (path : String) :
    FailsOnly (ChoiceFails importer) (Provider.Catalog.byPath importer path) := by
  refine .bind (.isThere path) fun there => ?_
  cases there with
  | false => exact .throw (.inl rfl)
  | true =>
    refine .bind .workingPath fun here => ?_
    split
    · exact failsOnly_inModule importer path
    · exact .throw (.inl rfl)

/-- The choice of an adapter fails where none can be loaded, or as a module does. -/
theorem failsOnly_chooseAdapter (host : Host) (settings : Settings) (name path : Option String) :
    FailsOnly (ChoiceFails host.importer) (chooseAdapter host settings name path) := by
  unfold chooseAdapter Provider.Catalog.choose
  dsimp only
  split
  · exact failsOnly_byPath _ _
  · refine .ofResult fun e he => ?_
    unfold Provider.Catalog.byName at he
    split at he
    · cases he
    · cases he
      exact .inl rfl
    · cases he
      exact .inl rfl
  · exact .throw (.inl rfl)

/-! ## The work of a task -/

/-- The adapter of a translation is set up in a world and leads to another one. -/
def SetUp (host : Host) (settings : Settings) (name path : Option String) (w : World)
    (service : Service) (w₂ : World) : Prop :=
  ∃ c w₁, (chooseAdapter host settings name path).runIn w = (.ok c, w₁) ∧
    (c.create settings.adapterOptions).runIn w₁ = (.ok service, w₂)

/-- A failure with which a task's work may break off, beside those of files and of the choice of an
adapter. -/
inductive Breaks (host : Host) (settings : Settings) (w : World) : Task → Failure → Prop
  /-- The languages of the schema cannot be told. -/
  | listed : Untold w.disk settings.schemaPath → Breaks host settings w .listLanguages .wrongType
  | extracted {clean : Option Bool} {e : Failure} :
      UntoldAfter w settings e → Breaks host settings w (.extractKeys clean) e
  | translated {name path : Option String} {service : Service} {w₂ : World} {e : Failure} :
      SetUp host settings name path w service w₂ → UntoldAfter w₂ settings e →
      Breaks host settings w (.translate name path) e
  /-- The module of the adapter ends the run, or the search for the adapter in it fails. -/
  | chosen {name path : Option String} {location : String} {w₁ : World} {e : Failure} :
      (chooseAdapter host settings name path).runIn w = (.error e, w₁) →
      ModuleFails host.importer location e → Breaks host settings w (.translate name path) e
  /-- The adapter cannot be set up with its options. -/
  | created {name path : Option String} {c : AdapterClass} {w₁ w₂ : World} {e : Failure} :
      (chooseAdapter host settings name path).runIn w = (.ok c, w₁) →
      (c.create settings.adapterOptions).runIn w₁ = (.error e, w₂) →
      Breaks host settings w (.translate name path) e
  /-- The options are no documents, so an adapter may make anything of them. -/
  | foreign {name path : Option String} {e : Failure} : settings.isPlain = false →
      Breaks host settings w (.translate name path) e
  /-- The adapter fails with a text. -/
  | asked {name path : Option String} {service : Service} {w₂ : World} {e : Failure} :
      SetUp host settings name path w service w₂ → FailsWith service.toAdapter e →
      Breaks host settings w (.translate name path) e
  /-- The use of the adapter does not end well. -/
  | closed {name path : Option String} {service : Service} {w₂ v v' : World} {e : Failure} :
      SetUp host settings name path w service w₂ → service.close.runIn v = (.error e, v') →
      Breaks host settings w (.translate name path) e

/-- A translation with a service fails as the translation does, or as the end of the service's
use. -/
theorem ends_translateWith {service : Service}
    (h : (translateWith settings service).runIn w = (.error e, w')) :
    (Stops service.toAdapter e ∨ UntoldAfter w settings e) ∨
      ∃ v v', service.close.runIn v = (.error e, v') := by
  rcases htranslate : (translateLocales settings service.toAdapter).runIn w with ⟨outcome, w₁⟩
  rw [translateWith, runIn_bind_of_ok (runIn_attempt htranslate)] at h
  rcases hclose : service.close.runIn w₁ with ⟨e₁ | ⟨⟩, w₂⟩
  · rw [runIn_bind_of_error hclose] at h
    cases h
    exact .inr ⟨w₁, w', hclose⟩
  · rw [runIn_bind_of_ok hclose] at h
    cases outcome with
    | ok written => cases h
    | error e₁ =>
      cases h
      exact .inl
        ((ends_translateLocales w settings service.toAdapter).of_error (.refl w) htranslate)

/-- A failure that a task reports, to end with a code. -/
def Expected (e : Failure) : Prop :=
  e.isProvider = true ∨ e.isUnreadable = true

/-- The work of a translation breaks off with a failure that is expected, or with one of those
listed. -/
theorem expected_or_breaks_translate {name path : Option String}
    (h : (work host settings (.translate name path)).runIn w = (.error e, w')) :
    Expected e ∨ Breaks host settings w (.translate name path) e := by
  -- An adapter is chosen, made, asked and closed, and each of these steps can fail.
  rcases hchoose : (chooseAdapter host settings name path).runIn w with ⟨e₁ | c, w₁⟩
  · rw [work, runIn_bind_of_error hchoose] at h
    cases h
    rcases failsOnly_chooseAdapter host settings name path w e w' hchoose with
      hprovider | ⟨location, hmodule⟩
    · exact .inl (.inl hprovider)
    · exact .inr (.chosen hchoose hmodule)
  rcases hcreate : (c.create settings.adapterOptions).runIn w₁ with ⟨e₂ | service, w₂⟩
  · rw [work, runIn_bind_of_ok hchoose, runIn_bind_of_error hcreate] at h
    cases h
    exact .inr (.created hchoose hcreate)
  have hsetUp : SetUp host settings name path w service w₂ := ⟨c, w₁, hchoose, hcreate⟩
  rcases htranslate : (translateWith settings service).runIn w₂ with ⟨e₃ | written, w₃⟩
  · rw [work, runIn_bind_of_ok hchoose, runIn_bind_of_ok hcreate,
      runIn_bind_of_error htranslate] at h
    cases h
    rcases ends_translateWith htranslate with ((hunreadable | hasked) | huntold) | ⟨v, v', hclose⟩
    · exact .inl (.inr hunreadable)
    · exact .inr (.asked hsetUp hasked)
    · exact .inr (.translated hsetUp huntold)
    · exact .inr (.closed hsetUp hclose)
  · rw [work, runIn_bind_of_ok hchoose, runIn_bind_of_ok hcreate, runIn_bind_of_ok htranslate] at h
    cases h

/-- The work of a task breaks off with a failure that is expected, or with one of those listed. -/
theorem expected_or_breaks (h : (work host settings task).runIn w = (.error e, w')) :
    Expected e ∨ Breaks host settings w task e := by
  cases task with
  | listLanguages =>
    have hends : Ends (· = w) (work host settings .listLanguages) (fun _ _ => True)
        fun e _ => e.isUnreadable = true ∨ (e = .wrongType ∧ Untold w.disk settings.schemaPath) :=
      .bind (ends_extractLanguages w settings.schemaPath) fun languages =>
        FailsOnly.ends (.modify _)
    rcases hends.of_error rfl h with hunreadable | ⟨rfl, huntold⟩
    · exact .inl (.inr hunreadable)
    · exact .inr (.listed huntold)
  | extractKeys clean =>
    have hends : Ends (· = w) (work host settings (.extractKeys clean)) (fun _ _ => True)
        fun e _ => e.isUnreadable = true ∨ UntoldAfter w settings e := by
      refine .bind ((ends_extractKeys w settings clean).mono ?_ (fun _ _ hw => hw)
        fun _ _ he => he) fun written => FailsOnly.ends (.logMessage _ _)
      rintro v rfl
      exact .refl v
    rcases hends.of_error rfl h with hunreadable | huntold
    · exact .inl (.inr hunreadable)
    · exact .inr (.extracted huntold)
  | translate name path => exact expected_or_breaks_translate h

/-! ## The guard -/

/-- Work that is done gives the code 0. -/
theorem runIn_guarded_of_ok (h : (work host settings task).runIn w = (.ok (), w')) :
    (guarded host settings task).runIn w = (.ok 0, w') := by
  rw [guarded, runIn_bind_of_ok (runIn_attempt h)]
  rfl

/-- A failure of the work gives the code 1 when it is expected, and goes on otherwise. -/
theorem runIn_guarded_of_error (h : (work host settings task).runIn w = (.error e, w')) :
    ((guarded host settings task).runIn w).1 =
      if e.isProvider || e.isUnreadable then .ok 1 else .error e := by
  rw [guarded, runIn_bind_of_ok (runIn_attempt h)]
  dsimp only
  cases e.isProvider with
  | true => rfl
  | false =>
    cases e.isUnreadable with
    | true => rfl
    | false => rfl

/-! ## The run -/

/-- A failure that a task lets out, when the run starts in a world. -/
inductive Escapes (host : Host) (file : Option String) (w : World) (task : Task) : Failure → Prop
  /-- Loading the configuration is not guarded. -/
  | loading {e : Failure} {w' : World} :
      (Config.load file none host.reader).runIn w = (.error e, w') →
      Config.Obstructs host.reader e → (∀ code, e ≠ .exit code) → Escapes host file w task e
  /-- The work breaks off with a failure that is not expected. -/
  | working {settings : Settings} {e : Failure} {w₁ : World} :
      (Config.load file none host.reader).runIn w = (.ok settings, w₁) →
      Breaks host settings w₁ task e → ¬ Expected e → (∀ code, e ≠ .exit code) →
      Escapes host file w task e

/-- The run ends with a code, or exits with one. -/
def EndsInCode (outcome : Except Failure Nat) : Prop :=
  outcome = .ok 0 ∨ outcome = .ok 1 ∨ ∃ code, outcome = .error (.exit code)

/-- An exit is an end in a code. -/
theorem endsInCode_or_not_exit (e : Failure) :
    EndsInCode (.error e) ∨ ∀ code, e ≠ .exit code := by
  by_cases hexit : ∃ code, e = .exit code
  · obtain ⟨code, rfl⟩ := hexit
    exact .inl (.inr (.inr ⟨code, rfl⟩))
  · exact .inr fun code hcode => hexit ⟨code, hcode⟩

/-- A task is performed with the settings that are loaded. -/
theorem perform_task_eq (host : Host) (file : Option String) (task : Task) :
    perform host ⟨file, .task task⟩ =
      (Config.load file none host.reader >>= fun settings => guarded host settings task) := rfl

/-- A task that is performed ends in a code, or lets a failure out. -/
theorem perform_task (host : Host) (file : Option String) (task : Task) (w : World) :
    EndsInCode ((perform host ⟨file, .task task⟩).runIn w).1 ∨
      ∃ e, ((perform host ⟨file, .task task⟩).runIn w).1 = .error e ∧
        Escapes host file w task e := by
  rw [perform_task_eq]
  -- Loading is not guarded, so whatever it fails with is let out.
  rcases hload : (Config.load file none host.reader).runIn w with ⟨e | settings, w₁⟩
  · rw [runIn_bind_of_error hload]
    have hobstructs := Config.failsOnly_load file none host.reader w e w₁ hload
    exact (endsInCode_or_not_exit e).imp_right fun hexit =>
      ⟨e, rfl, .loading hload hobstructs hexit⟩
  · rw [runIn_bind_of_ok hload]
    rcases hwork : (work host settings task).runIn w₁ with ⟨e | ⟨⟩, w₂⟩
    · rw [runIn_guarded_of_error hwork]
      -- The guard turns what is expected into a code, and lets out everything else.
      by_cases hexpected : Expected e
      · have hguard : (e.isProvider || e.isUnreadable) = true := by
          rwa [Bool.or_eq_true]
        rw [hguard]
        exact .inl (.inr (.inl rfl))
      · have hguard : (e.isProvider || e.isUnreadable) = false := by
          rw [← Bool.not_eq_true, Bool.or_eq_true]
          exact hexpected
        rw [hguard]
        have hbreaks := (expected_or_breaks hwork).resolve_left hexpected
        exact (endsInCode_or_not_exit e).imp_right fun hexit =>
          ⟨e, rfl, .working hload hbreaks hexpected hexit⟩
    · rw [runIn_guarded_of_ok hwork]
      exact .inl (.inl rfl)

/-- The failures that a task may let out once its configuration is loaded. -/
theorem endsInCode_or_breaks {arguments : List String} {file : Option String} {w w₁ : World}
    {settings : Settings} (hparse : parse arguments = .ok ⟨file, .task task⟩)
    (hload : (Config.load file none host.reader).runIn w = (.ok settings, w₁)) :
    EndsInCode ((run arguments host).runIn w).1 ∨ ∃ e, Breaks host settings w₁ task e := by
  have hrun : run arguments host = perform host ⟨file, .task task⟩ := by
    rw [run, hparse]
  rw [hrun]
  rcases perform_task host file task w with hends | ⟨e, -, hescapes⟩
  · exact .inl hends
  · cases hescapes with
    | loading hfailed =>
      rw [hload] at hfailed
      cases hfailed
    | working hload' hbreaks =>
      rw [hload] at hload'
      cases hload'
      exact .inr ⟨e, hbreaks⟩

/-- Where targets are configured, an extraction always ends in a code. -/
theorem endsInCode_extractKeys {arguments : List String} {file : Option String} {w w₁ : World}
    {settings : Settings} {clean : Option Bool}
    (hparse : parse arguments = .ok ⟨file, .task (.extractKeys clean)⟩)
    (hload : (Config.load file none host.reader).runIn w = (.ok settings, w₁))
    (htargets : settings.targetLanguages ≠ []) : EndsInCode ((run arguments host).runIn w).1 := by
  rcases endsInCode_or_breaks hparse hload with hends | ⟨e, hbreaks⟩
  · exact hends
  · cases hbreaks with
    | extracted huntold => exact absurd huntold.2.1 htargets

/-- Where targets are configured, a translation by a generated adapter always ends in a code. -/
theorem endsInCode_translate {arguments : List String} {file : Option String} {w w₁ w₂ : World}
    {settings : Settings} {name path : Option String} {generated : String}
    (hparse : parse arguments = .ok ⟨file, .task (.translate name path)⟩)
    (hload : (Config.load file none host.reader).runIn w = (.ok settings, w₁))
    (hchoose : (chooseAdapter host settings name path).runIn w₁ = (.ok (.generated generated), w₂))
    (hplain : settings.isPlain = true) (htargets : settings.targetLanguages ≠ []) :
    EndsInCode ((run arguments host).runIn w).1 := by
  rcases endsInCode_or_breaks hparse hload with hends | ⟨e, hbreaks⟩
  · exact hends
  -- the adapter that is set up is the generated one, which fails with nothing
  have hsetUp : ∀ {service w₃}, SetUp host settings name path w₁ service w₃ →
      (∀ e, ¬ FailsWith service.toAdapter e) ∧ service.close = pure () := by
    rintro service w₃ ⟨c, w₂', hchosen, hcreated⟩
    rw [hchoose] at hchosen
    cases hchosen
    cases hcreated
    refine ⟨?_, rfl⟩
    rintro e ⟨text, source, target, languages, w, w', hfailed⟩
    cases hfailed
  cases hbreaks with
  | translated _ huntold => exact absurd huntold.2.1 htargets
  | chosen hfailed =>
    rw [hchoose] at hfailed
    cases hfailed
  | created hchosen hfailed =>
    rw [hchoose] at hchosen
    cases hchosen
    cases hfailed
  | foreign hforeign =>
    rw [hplain] at hforeign
    cases hforeign
  | asked hready hfails => exact absurd hfails ((hsetUp hready).1 e)
  | closed hready hfails =>
    rw [(hsetUp hready).2] at hfails
    cases hfails

/-- Once its configuration is loaded, a listing of languages fails just where the schema's languages
cannot be told. -/
theorem run_eq_error_iff {arguments : List String} {file : Option String} {w w₁ : World}
    {settings : Settings} (hparse : parse arguments = .ok ⟨file, .task .listLanguages⟩)
    (hload : (Config.load file none host.reader).runIn w = (.ok settings, w₁)) {e : Failure} :
    ((run arguments host).runIn w).1 = .error e ↔
      e = .wrongType ∧ Untold w₁.disk settings.schemaPath := by
  have hrun : run arguments host = (Config.load file none host.reader >>= fun settings =>
      guarded host settings .listLanguages) := by
    rw [run, hparse]
    exact perform_task_eq host file .listLanguages
  rw [hrun, runIn_bind_of_ok hload]
  constructor
  · intro houtcome
    -- The guard takes all failures that are expected, and a listing has only one other.
    rcases hwork : (work host settings .listLanguages).runIn w₁ with ⟨e' | ⟨⟩, w₂⟩
    · have hguard := runIn_guarded_of_error hwork
      rw [houtcome] at hguard
      split_ifs at hguard with hexpected
      cases hguard
      have hbreaks := (expected_or_breaks hwork).resolve_left fun h => hexpected (by
        rwa [Bool.or_eq_true])
      cases hbreaks with
      | listed huntold => exact ⟨rfl, huntold⟩
    · rw [runIn_guarded_of_ok hwork] at houtcome
      cases houtcome
  · rintro ⟨rfl, huntold⟩
    have hlisting := runIn_extractLanguages_of_untold huntold
    rcases hextract : (extractLanguages settings.schemaPath).runIn w₁ with ⟨outcome, w₂⟩
    rw [hextract] at hlisting
    obtain rfl : outcome = .error .wrongType := hlisting
    have hwork : (work host settings .listLanguages).runIn w₁ = (.error .wrongType, w₂) := by
      rw [work, runIn_bind_of_error hextract]
    rw [runIn_guarded_of_error hwork]
    rfl

end ThemeLocales.Command
