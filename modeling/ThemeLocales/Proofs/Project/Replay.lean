import ThemeLocales.Proofs.Disk.Shape
import ThemeLocales.Proofs.Project.Run

/-!
# Finding again what an earlier run found

A later world resembles an earlier one when it has the files of some places as they were, when the
same of some paths name something, and when no record is written to those places in either. An
operation replays when what it yields in the earlier world it yields in the later one. So do the
parts of a run that look for languages and for keys, if the places are those that they read:
`Outside`.
-/

set_option autoImplicit false

namespace ThemeLocales

variable {S : List String → Prop} {paths : List String} {d : Disk} {v w : World}

namespace World

/-- A record keeps the shape of the disk. -/
theorem sameShape_logged (w : World) (r : LogRecord) : w.disk.SameShape (w.logged r).disk := by
  rcases logged_disk w r with hdisk | ⟨path, line, -, hdisk⟩
  · rw [hdisk]
    exact .refl w.disk
  · rw [hdisk]
    exact Disk.sameShape_appendLine w.disk path line

/-- Before a record, the disk had what it keeps. -/
theorem logged_keeps (h : w.Apart S) (r : LogRecord) : (w.logged r).disk.Keeps S w.disk := by
  rcases logged_disk w r with hdisk | ⟨path, line, hfile, hdisk⟩
  · rw [hdisk]
    exact .refl S w.disk
  · rw [hdisk]
    refine (Disk.appendLine_keeps w.disk path line).mono fun place hplace heq => ?_
    exact h path hfile (heq ▸ hplace)

/-- A later world has some places as an earlier one has them, and so does the earlier one have them
as they were at the start. The same of some paths name something in both. -/
structure Resembles (d : Disk) (S : List String → Prop) (paths : List String) (v w : World) :
    Prop where
  start : d.Keeps S v.disk
  disk : v.disk.Keeps S w.disk
  before : v.Apart S
  after : w.Apart S
  there : ∀ path ∈ paths, w.disk.isThere path = v.disk.isThere path

theorem Resembles.refl (h : w.Apart S) : Resembles w.disk S paths w w :=
  ⟨.refl S w.disk, .refl S w.disk, h, h, fun _ _ => rfl⟩

theorem Resembles.logged_left (h : Resembles d S paths v w) (r : LogRecord) :
    Resembles d S paths (v.logged r) w where
  start := h.start.trans (keeps_logged h.before r).disk
  disk := (logged_keeps h.before r).trans h.disk
  before := (keeps_logged h.before r).apart h.before
  after := h.after
  there path hpath := (h.there path hpath).trans ((sameShape_logged v r).isThere path).symm

theorem Resembles.logged_right (h : Resembles d S paths v w) (r : LogRecord) :
    Resembles d S paths v (w.logged r) where
  start := h.start
  disk := h.disk.trans (keeps_logged h.after r).disk
  before := h.before
  after := (keeps_logged h.after r).apart h.after
  there path hpath := ((sameShape_logged w r).isThere path).trans (h.there path hpath)

end World

namespace Operation

variable {α β : Type} {R : World → World → Prop} {op : Operation α}

/-- What the operation yields in a world it yields in every related one, and what it leaves is
related again. -/
def Replays (R : World → World → Prop) (op : Operation α) : Prop :=
  ∀ v w a v₁, R v w → op.runIn v = (.ok a, v₁) → ∃ w₁, op.runIn w = (.ok a, w₁) ∧ R v₁ w₁

theorem Replays.pure (a : α) : Replays R (Pure.pure a) := by
  intro v w b v₁ hR h
  cases h
  exact ⟨w, rfl, hR⟩

theorem Replays.throw (e : Failure) : Replays R (MonadExcept.throw e : Operation α) := by
  intro v w a v₁ _ h
  cases h

/-- What is known of a result may be used in what follows. -/
theorem Replays.bind_of {P : α → Prop} {f : α → Operation β} (hop : Replays R op)
    (hP : ∀ v w a v₁, R v w → op.runIn v = (.ok a, v₁) → P a) (hf : ∀ a, P a → Replays R (f a)) :
    Replays R (op >>= f) := by
  intro v w b v₂ hR h
  obtain ⟨a, v₁, hv, hfv⟩ := runIn_bind_eq_ok.1 h
  obtain ⟨w₁, hw, hR₁⟩ := hop v w a v₁ hR hv
  obtain ⟨w₂, hfw, hR₂⟩ := hf a (hP v w a v₁ hR hv) v₁ w₁ b v₂ hR₁ hfv
  exact ⟨w₂, runIn_bind_eq_ok.2 ⟨a, w₁, hw, hfw⟩, hR₂⟩

theorem Replays.bind {f : α → Operation β} (hop : Replays R op) (hf : ∀ a, Replays R (f a)) :
    Replays R (op >>= f) :=
  hop.bind_of (P := fun _ => True) (fun _ _ _ _ _ _ => trivial) fun a _ => hf a

theorem Replays.ofResult (r : Except Failure α) : Replays R (ofResult r) := by
  cases r with
  | ok a => exact .pure a
  | error e => exact .throw e

theorem runIn_ofView_eq_ok {view : Disk → Except Disk.Refusal α} {a : α} {v₁ : World} :
    (do ofDisk (view (← disk)) : Operation α).runIn v = (.ok a, v₁) ↔
      view v.disk = .ok a ∧ v₁ = v := by
  change (ofDisk (view v.disk)).runIn v = _ ↔ _
  cases view v.disk with
  | ok b =>
    constructor
    · intro h
      cases h
      exact ⟨rfl, rfl⟩
    · rintro ⟨h, rfl⟩
      cases h
      rfl
  | error e =>
    constructor
    · intro h
      cases h
    · rintro ⟨h, -⟩
      cases h

/-- A view of the disk that is the same in related worlds, where it succeeds. -/
theorem Replays.ofView (view : Disk → Except Disk.Refusal α)
    (h : ∀ v w a, R v w → view v.disk = .ok a → view w.disk = .ok a) :
    Replays R (do ofDisk (view (← disk))) := by
  intro v w a v₁ hR hv
  obtain ⟨hok, rfl⟩ := runIn_ofView_eq_ok.1 hv
  exact ⟨w, runIn_ofView_eq_ok.2 ⟨h v₁ w a hR hok, rfl⟩, hR⟩

theorem Replays.foldlM {f : β → α → Operation β} {xs : List α} {b : β}
    (h : ∀ x ∈ xs, ∀ b, Replays R (f b x)) : Replays R (xs.foldlM f b) := by
  induction xs generalizing b with
  | nil => exact .pure b
  | cons x rest ih =>
    rw [List.foldlM_cons]
    exact (h x List.mem_cons_self b).bind fun _ => ih fun y hy => h y (List.mem_cons_of_mem _ hy)

theorem Replays.logMessage (level : Level) (message : String) :
    Replays (World.Resembles d S paths) (logMessage level message) := by
  intro v w a v₁ hR h
  cases h
  exact ⟨w.logged ⟨level, message⟩, rfl, (hR.logged_left _).logged_right _⟩

theorem Replays.logTimes (level : Level) (message : String) (n : Nat) :
    Replays (World.Resembles d S paths) (logTimes level message n) := by
  induction n with
  | zero => exact .pure ()
  | succ n ih => exact (Replays.logMessage level message).bind fun _ => ih

theorem Replays.isThere {path : String} (hpath : path ∈ paths) :
    Replays (World.Resembles d S paths) (isThere path) := by
  intro v w a v₁ hR h
  cases h
  exact ⟨w, congrArg (fun there => (Except.ok there, w)) (hR.there path hpath), hR⟩

end Operation

namespace Project

open Operation

/-- The places that a run looks at beside its locale files: the one of the settings schema, those
below the source directories, and those that the paths of the listed sources name. -/
inductive Outside (settings : Settings) (d : Disk) : List String → Prop
  | schema : Outside settings d (d.placeOf settings.schemaPath)
  | below {directory : String} (names : List String) : directory ∈ settings.sourcePaths →
      Outside settings d (d.placeOf directory ++ names)
  | file {directory : String} {names : List String} : directory ∈ settings.sourcePaths →
      names ∈ d.filesBelow (d.placeOf directory) →
      Outside settings d (d.placeOf (Path.join directory (Path.joinNames names)))

theorem replays_readPoints {path : String} {R : World → World → Prop}
    (hread : Replays R (readBytes path)) : Replays R (readPoints path) := by
  have htext : Replays R (readText path) := by
    refine hread.bind fun bytes => ?_
    split
    · exact .pure _
    · exact .throw _
  refine htext.bind fun text => ?_
  split
  · exact .pure _
  · exact .throw _

/-! ## Languages -/

section Languages

variable {R : World → World → Prop} {settings : Settings}

/-- A schema that is there, is read and is reported alike declares the same languages. -/
theorem replays_extractLanguages {path : String} (hthere : Replays R (isThere path))
    (hread : Replays R (readBytes path))
    (hlog : ∀ level message, Replays R (logMessage level message)) :
    Replays R (extractLanguages path) := by
  refine hthere.bind fun there => ?_
  cases there with
  | false => exact (hlog _ _).bind fun _ => .pure _
  | true =>
    refine (replays_readPoints hread).bind fun schema => ?_
    refine (Replays.ofResult _).bind fun languages => ?_
    cases languages with
    | nil => exact (hlog _ _).bind fun _ => .pure _
    | cons language rest => exact (hlog _ _).bind fun _ => .pure _

/-- The schema is only asked where no targets are configured. -/
theorem replays_allLanguages (h : settings.targetLanguages.isEmpty = true →
    Replays R (extractLanguages settings.schemaPath)) : Replays R (allLanguages settings) := by
  unfold allLanguages
  by_cases hempty : settings.targetLanguages.isEmpty = true
  · simp only [hempty, if_true]
    exact (h hempty).bind fun _ => .pure _
  · simp only [hempty]
    exact .pure _

theorem replays_mainLanguage (h : Replays R (allLanguages settings)) :
    Replays R (mainLanguage settings) := by
  rcases mainLanguage_cases settings with ⟨language, hdefault, hne⟩ | hfirst
  · rw [mainLanguage_of_default hdefault hne]
    exact .pure _
  · rw [hfirst]
    exact h.bind fun _ => .pure _

end Languages

/-! ## Sources -/

variable {settings : Settings}

theorem sourceFiles_eq (directory : String) (extensions : List String) :
    sourceFiles directory extensions = (do ofDisk ((← disk).walk directory)) >>=
      fun files => pure (files.filter fun path => Path.extension path ∈ extensions) := by
  rw [bind_assoc]
  rfl

end Project

end ThemeLocales
