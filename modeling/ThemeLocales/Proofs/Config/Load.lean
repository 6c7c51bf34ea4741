import ThemeLocales.Config.Load
import ThemeLocales.Proofs.Failure

/-!
# What loading a configuration can fail with

Loading fails with a file or a value that cannot be read, with an error that its reader makes of the
configuration file, with a type that a word or a shape does not take, and with the exit code of a
configuration of the wrong shape (`failsOnly_load`). A configuration file that is missing, that the
disk refuses, or that the reader calls malformed is no failure.
-/

set_option autoImplicit false

namespace ThemeLocales.Config

open Operation

/-- What a configuration can stop a run with. -/
inductive Obstructs (reader : Yaml.Reader) : Failure → Prop
  | shape : Obstructs reader (.exit 1)
  | unreadable {e : Failure} (h : e.isUnreadable = true) : Obstructs reader e
  | wrongType : Obstructs reader .wrongType
  /-- The reader makes an error of some bytes, and does not call them malformed. -/
  | reader {bytes : ByteArray} {error : Yaml.Error} (h : reader bytes = .error error)
      (hformed : ∀ problem line column, error ≠ .malformed problem line column) :
      Obstructs reader (valueFailure error)

variable {reader : Yaml.Reader}

/-! ## The environment -/

theorem failsUnreadable_define (assignment : EnvFile.Assignment) :
    FailsUnreadable (EnvFile.define assignment) := by
  obtain ⟨word, content⟩ := assignment
  cases content with
  | none => exact .pure ()
  | some text =>
    refine .bind (.environmentValue? word) fun value => ?_
    cases value with
    | some earlier => exact .pure ()
    | none =>
      cases EnvFile.isStorable word text with
      | false => exact .bind (.throw rfl) fun _ => .modify _
      | true => exact .modify _

theorem failsUnreadable_loadEnvironment (path : String) : FailsUnreadable (EnvFile.load path) := by
  refine .bind (.environmentValue? _) fun value => ?_
  split
  · exact .pure ()
  · refine .bind .disk fun d => ?_
    split
    · exact .pure ()
    · refine .bind (failsUnreadable_readText path) fun text => ?_
      refine .bind (.forM (fun line => .notice _) _) fun _ => ?_
      exact .bind (.of_result fun w => ⟨w, w, rfl⟩) fun w => .forM failsUnreadable_define _

/-! ## The journal -/

theorem failsUnreadable_openFile (path : String) : FailsUnreadable (Journal.openFile path) := by
  refine .bind .disk fun d => ?_
  split
  · exact .pure ()
  · exact failsUnreadable_changeDisk _
  · exact .throw rfl

theorem failsUnreadable_start (journal : Journal) : FailsUnreadable (Journal.start journal) := by
  refine .bind (.modify _) fun _ => ?_
  split
  · exact .modify _
  · refine .bind (failsUnreadable_changeDisk _) fun _ => .bind .workingPath fun here => ?_
    exact .bind (failsUnreadable_openFile _) fun _ => .modify _

/-! ## The configuration file -/

theorem failsOnly_parse (reader : Yaml.Reader) (path : String) (bytes : ByteArray) :
    FailsOnly (Obstructs reader) (parse reader path bytes) := by
  unfold parse
  split
  · split
    · exact .bind (.notice _) fun _ => .pure _
    · exact .bind (.notice _) fun _ => .pure _
    · exact .bind (.notice _) fun _ => .pure _
  · exact .bind (.notice _) fun _ => .bind (.notice _) fun _ => .pure _
  · next hformed herror => exact .throw (.reader herror hformed)

theorem failsOnly_readFile (reader : Yaml.Reader) (path : String) :
    FailsOnly (Obstructs reader) (readFile reader path) := by
  refine .bind (.isThere path) fun there => ?_
  cases there with
  | false => exact .bind (.notice _) fun _ => .bind (.notice _) fun _ => .pure _
  | true =>
    refine .bind_run (.attempt _) fun outcome w w' hrun => ?_
    cases outcome with
    | ok bytes => exact failsOnly_parse reader path bytes
    | error e =>
      have hunreadable : e.isUnreadable = true := (failsUnreadable_readBytes path).of_caught hrun
      cases e with
      | disk refusal => exact .bind (.notice _) fun _ => .bind (.notice _) fun _ => .pure _
      | _ => exact .throw (.unreadable hunreadable)

theorem obstructs_says {v : Violation} {e : Failure} (h : v.says = .error e) :
    Obstructs reader e := by
  unfold Violation.says at h
  cases hmessage : v.message with
  | some text =>
    rw [hmessage] at h
    cases h
  | none =>
    rw [hmessage] at h
    cases h
    exact .unreadable rfl

theorem obstructs_discard_says {v : Violation} {e : Failure} (h : discard v.says = .error e) :
    Obstructs reader e := by
  rcases error_of_bind h with hsays | ⟨_, hnone⟩
  · exact obstructs_says hsays
  · cases hnone

theorem obstructs_foremost {a b : Violation} {e : Failure} (h : a.foremost b = .error e) :
    Obstructs reader e := by
  rcases error_of_bind h with hfirst | ⟨_, hrest⟩
  · exact obstructs_discard_says hfirst
  · split_ifs at hrest with hhigher hlower
    · cases hrest
    · cases hrest
    · -- two places on one level are compared, which not all of them can be
      split at hrest
      · cases hrest
      · cases hrest
        exact .wrongType

theorem obstructs_foldlM {violations : List Violation} {v : Violation} {e : Failure}
    (h : violations.foldlM Violation.foremost v = .error e) : Obstructs reader e := by
  induction violations generalizing v with
  | nil => cases h
  | cons next rest ih =>
    rw [List.foldlM_cons] at h
    rcases error_of_bind h with hstep | ⟨best, hrest⟩
    · exact obstructs_foremost hstep
    · exact ih hrest

theorem obstructs_report {violations : List Violation} {e : Failure}
    (h : Violation.report? violations = .error e) : Obstructs reader e := by
  cases violations with
  | nil => cases h
  | cons v rest =>
    rcases error_of_bind h with hfirst | ⟨_, hrest⟩
    · exact obstructs_discard_says hfirst
    · rcases error_of_bind hrest with hfold | ⟨best, hbest⟩
      · exact obstructs_foldlM hfold
      · rcases error_of_bind hbest with hplace | ⟨place, hmessage⟩
        · cases htext : best.told.text? with
          | some text =>
            rw [htext] at hplace
            cases hplace
          | none =>
            rw [htext] at hplace
            cases hplace
            exact .unreadable rfl
        · rcases error_of_bind hmessage with hsays | ⟨_, hnone⟩
          · exact obstructs_says hsays
          · cases hnone

theorem failsOnly_validate (path : String) (config : Yaml.Loaded) :
    FailsOnly (Obstructs reader) (validate path config) := by
  refine .bind (.ofResult fun e he => obstructs_report he) fun report => ?_
  cases report with
  | none => exact .pure ()
  | some pair =>
    refine .bind ((failsUnreadable_start _).mono fun _ => .unreadable) fun _ => ?_
    exact .bind (.logMessage _ _) fun _ => .throw .shape

/-! ## Loading -/

theorem obstructs_reservedWord {word : String} {e : Failure} (h : reservedWord? word = some e) :
    Obstructs reader e := by
  unfold reservedWord? at h
  split at h
  · cases h
    exact .unreadable rfl
  · cases h
    exact .wrongType
  · cases h

theorem obstructs_journalOf {root : String} {config : Yaml.Loaded} {e : Failure}
    (h : journalOf root config = .error e) : Obstructs reader e := by
  unfold journalOf at h
  dsimp only at h
  split at h
  · next hreserved =>
    cases h
    exact obstructs_reservedWord hreserved
  · cases h

/-- Loading fails with what a configuration can stop a run with. -/
theorem failsOnly_load (file root : Option String) (reader : Yaml.Reader) :
    FailsOnly (Obstructs reader) (load file root reader) := by
  have hreadEnvironment : ∀ path : String,
      FailsOnly (Obstructs reader) (EnvFile.load path) := fun path =>
    (failsUnreadable_loadEnvironment path).mono fun _ => .unreadable
  -- What follows is the same with an environment file and without one.
  have hrest : ∀ (root : String) (hasEnvFile : Bool), FailsOnly (Obstructs reader) (do
      let path ← filePath root file
      let config ← readFile reader path
      validate path config
      Journal.start (← ofResult (journalOf root config))
      if hasEnvFile then
        logMessage .info ("Loaded environment variables from: " ++ Path.join root envFileName)
      else
        logMessage .debug ("No .env file found in '" ++ root ++
          "'. Relying on system environment variables if any.")
      let overrides : Overrides :=
        { language := ← environmentValue? languageVariable
          dryRun := ← environmentValue? dryRunVariable }
      return settingsOf root path overrides config) := by
    intro root hasEnvFile
    have hpath : FailsOnly (Obstructs reader) (filePath root file) :=
      .bind (.environmentValue? _) fun _ => .pure _
    refine .bind hpath fun path => .bind (failsOnly_readFile reader path) fun config => ?_
    refine .bind (failsOnly_validate path config) fun _ => ?_
    refine .bind (.ofResult fun e he => obstructs_journalOf he) fun journal => ?_
    refine .bind ((failsUnreadable_start journal).mono fun _ => .unreadable) fun _ => ?_
    have hsettings : FailsOnly (Obstructs reader) (do
        let overrides : Overrides :=
          { language := ← environmentValue? languageVariable
            dryRun := ← environmentValue? dryRunVariable }
        return settingsOf root path overrides config) :=
      .bind (.environmentValue? _) fun _ => .bind (.environmentValue? _) fun _ => .pure _
    cases hasEnvFile with
    | true => exact .bind (.logMessage _ _) fun _ => hsettings
    | false => exact .bind (.logMessage _ _) fun _ => hsettings
  have hroot : FailsOnly (Obstructs reader) (rootPath root) := .bind .workingPath fun _ => .pure _
  refine .bind hroot fun root => .bind (.isThere _) fun hasEnvFile => ?_
  cases hasEnvFile with
  | true => exact .bind (hreadEnvironment _) fun _ => hrest root true
  | false => exact hrest root false

end ThemeLocales.Config
