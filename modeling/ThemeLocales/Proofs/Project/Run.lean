import ThemeLocales.Project.Translation
import ThemeLocales.Proofs.Document.Fill
import ThemeLocales.Proofs.Project.Frame

/-!
# The parts of a run

What a run does to locale files, part by part: an extraction finds its languages and its keys and
then updates all languages, a translation finds its languages and then walks the files of each kind.
Each rule asks what holds around the one write of its part.
-/

set_option autoImplicit false

namespace ThemeLocales.Project

open Operation World

variable {S : List String → Prop} {I J E Q : World → Prop}

/-- The languages and the main language that a run finds when it starts in a world. An extraction
asks for all languages first, a translation for the main one. -/
def Finds (settings : Settings) (w : World) (languages : List String) (main : Option String) :
    Prop :=
  (∃ w₁ w₂, (allLanguages settings).runIn w = (.ok languages, w₁) ∧
    (mainLanguage settings).runIn w₁ = (.ok main, w₂)) ∨
  ∃ w₁ w₂, (mainLanguage settings).runIn w = (.ok main, w₁) ∧
    (allLanguages settings).runIn w₁ = (.ok languages, w₂)

/-- Records lead from one world to another. -/
def LogsTo (w v : World) : Prop :=
  ∃ records : List LogRecord, v = records.foldl World.logged w

theorem LogsTo.refl (w : World) : LogsTo w w :=
  ⟨[], rfl⟩

theorem logStable_logsTo (w : World) : LogStable (LogsTo w) := by
  rintro _ r ⟨records, rfl⟩
  exact ⟨records ++ [r], by rw [List.foldl_append]; rfl⟩

/-- What no record touches holds in every world that records lead to. -/
theorem LogStable.logsTo (h : LogStable I) {w v : World} (hw : I w) (hv : LogsTo w v) : I v := by
  obtain ⟨records, rfl⟩ := hv
  induction records generalizing w with
  | nil => exact hw
  | cons r rest ih => exact ih (h w r hw)

/-- The keys that an extraction collects when it starts in a world. -/
def Collects (settings : Settings) (w : World) (keys : Collected) : Prop :=
  ∃ v v', LogsTo w v ∧ (collectKeys settings.sourcePaths sourceExtensions).runIn v = (.ok keys, v')

/-- The part of an extraction that updates the files of all languages. -/
def updateAll (settings : Settings) (cleanUnused : Bool) (languages : List String)
    (main : String) (normal schema : Extracted) : Operation (List String) := do
  if !settings.dryRun then makeDirectories settings.localesPath
  let (mainNormal, normalPaths) ← updateMain settings cleanUnused main normal
  let (mainSchema, schemaPaths) ← updateMain settings cleanUnused main schema
  let others ← (languages.filter (· ≠ main)).mapM
    (updateLanguage settings cleanUnused normal schema mainNormal mainSchema)
  logMessage .info
    ((if cleanUnused then "Cleaned unused keys and extracted" else "Extracted") ++
      " translation keys into '" ++ settings.localesPath ++ "'.")
  return normalPaths ++ schemaPaths ++ others.flatten

/-- An extraction finds languages and keys and then updates all files. -/
theorem meets_extractKeys (h : LogStable I) {settings : Settings} {clean : Option Bool}
    {w₀ : World} (hw₀ : I w₀) (hE : ∀ w, I w → E w)
    (hrest : ∀ languages main keys, Finds settings w₀ languages (some main) →
      Collects settings w₀ keys → keys.Sound →
      Meets I (updateAll settings (clean.getD settings.cleanUnused) languages main
        ⟨.normal, Document.expand keys.normal⟩ ⟨.schema, Document.expand keys.schema⟩)
        (fun _ => Q) E) :
    Meets (· = w₀) (extractKeys settings clean) (fun _ => Q) E := by
  -- up to the update of the files, all worlds are those that records lead to
  have hlog : LogStable fun w => I w ∧ LogsTo w₀ w :=
    fun w r hw => ⟨h w r hw.1, logStable_logsTo w₀ w r hw.2⟩
  have hstart : ∀ w, w = w₀ → I w ∧ LogsTo w₀ w := by
    rintro w rfl
    exact ⟨hw₀, .refl w⟩
  have hE' : ∀ w, I w ∧ LogsTo w₀ w → E w := fun w hw => hE w hw.1
  refine .bind (((maintains_allLanguages hlog settings).mono hstart (fun _ _ hw => hw) hE').from)
    fun languages => ?_
  refine .bind (((maintains_mainLanguage hlog settings).mono (fun _ hw => hw.1) (fun _ _ hw => hw)
    hE').from) fun main => ?_
  have hfinds : ∀ w, ((I w ∧ LogsTo w₀ w) ∧ ∃ w₁, ((I w₁ ∧ LogsTo w₀ w₁) ∧ ∃ w₂, w₂ = w₀ ∧
      (allLanguages settings).runIn w₂ = (.ok languages, w₁)) ∧
      (mainLanguage settings).runIn w₁ = (.ok main, w)) →
      Finds settings w₀ languages main ∧ I w ∧ LogsTo w₀ w := by
    rintro w ⟨hw, w₁, ⟨-, w₂, rfl, hlanguages⟩, hmain⟩
    exact ⟨Or.inl ⟨w₁, w, hlanguages, hmain⟩, hw⟩
  refine Meets.mono (Ends.of_and fun hfound => ?_) hfinds (fun _ _ hw => hw) fun _ hw => hw
  cases main with
  | none => exact .bind (Q := fun _ _ => False) (.throw _ hE') fun _ => ⟨fun _ h => h.elim⟩
  | some main =>
    refine .bind (Q := fun m w => m = main ∧ I w ∧ LogsTo w₀ w) (.pure main fun w hw => ⟨rfl, hw⟩)
      fun m => ?_
    refine Ends.of_and fun hm => ?_
    subst hm
    refine .bind ((meets_collectKeys hlog _ _).mono (fun _ hw => hw) (fun _ _ hw => hw) hE').from
      fun keys => ?_
    have hcollects : ∀ w, ((keys.Sound ∧ I w ∧ LogsTo w₀ w) ∧ ∃ w₁, (I w₁ ∧ LogsTo w₀ w₁) ∧
        (collectKeys settings.sourcePaths sourceExtensions).runIn w₁ = (.ok keys, w)) →
        (Collects settings w₀ keys ∧ keys.Sound) ∧ I w := by
      rintro w ⟨⟨hkeys, hw, -⟩, w₁, hw₁, hrun⟩
      exact ⟨⟨⟨w₁, w, hw₁.2, hrun⟩, hkeys⟩, hw⟩
    refine Meets.mono (Ends.of_and fun hkeys => ?_) hcollects (fun _ _ hw => hw) fun _ hw => hw
    refine .bind (ends_requireStrings (Q := fun _ => I) (fun _ _ hw => hw) fun _ => hE) fun _ => ?_
    refine .bind (h.logMessage .info _) fun _ => ?_
    exact hrest languages m keys hfound hkeys.1 hkeys.2

/-- A locale file is saved by one write, or not at all in a dry run. -/
theorem meets_saveLocale (h : Framed S I) (hJ : LogStable J) {dryRun : Bool} {path : String}
    {doc : Document} (hdry : dryRun = true → ∀ w, I w → J w)
    (hwrite : dryRun = false → ∀ w d, I w →
      w.disk.write path (localeText doc).toUTF8 = .ok d → J { w with disk := d })
    (hE : ∀ w, I w → E w) : Meets I (saveLocale dryRun path doc) (fun _ => J) E := by
  have hlog := logStable_of_framed h
  cases dryRun with
  | true =>
    refine .bind (hlog.logMessage .info _) fun _ => ?_
    exact .pure _ fun w hw => hdry rfl w hw
  | false =>
    have hwritten : Meets I (writeLocale path doc) (fun _ => J) E :=
      meets_writeLocale (fun w d hw _ hd => framed_makeDirectories h hw hd)
        (fun w d hw hd => hwrite rfl w d hw hd) fun w hw => Or.inl (hE w hw)
    refine .bind hwritten fun _ => .bind (hJ.logMessage .info _) fun _ => ?_
    exact .pure _ fun _ hw => hw

/-- The rule for one document of the main language: it is read, reconciled, and written unless the
run is dry. -/
theorem meets_updateMain {R J : Document → World → Prop} {settings : Settings} {clean : Bool}
    {main : String} {e : Extracted}
    (hread : ∀ w, I w → R (w.disk.localeDocument (localePath settings.localesPath main e.kind)) w)
    (hR : ∀ origin, Framed S (R origin)) (hJ : ∀ doc, LogStable (J doc))
    (hdry : settings.dryRun = true → ∀ origin w, R origin w →
      J (reconcileMain origin e.document clean) w)
    (hwrite : settings.dryRun = false → ∀ origin w d, R origin w →
      w.disk.write (localePath settings.localesPath main e.kind)
        (localeText (reconcileMain origin e.document clean)).toUTF8 = .ok d →
      J (reconcileMain origin e.document clean) { w with disk := d })
    (hE : ∀ origin w, R origin w → E w) :
    Meets I (updateMain settings clean main e) (fun r => J r.1) E := by
  refine .bind (ends_readLocale hread (fun origin => logStable_of_framed (hR origin))
    fun w hw _ => hE _ w (hread w hw)) fun origin => ?_
  refine .bind (meets_saveLocale (hR origin) (hJ (reconcileMain origin e.document clean))
    (fun h => hdry h origin) (fun h w d => hwrite h origin w d) (hE origin)) fun paths => ?_
  exact .pure _ fun _ hw => hw

/-- The rule for one document of another language. -/
theorem meets_updateTarget {R : Document → World → Prop} {settings : Settings} {clean : Bool}
    {language : String} {e : Extracted} {mainDocument : Document}
    (hread : ∀ w, I w →
      R (w.disk.localeDocument (localePath settings.localesPath language e.kind)) w)
    (hR : ∀ origin, Framed S (R origin)) (hJ : LogStable J)
    (hdry : settings.dryRun = true → ∀ origin w, R origin w → J w)
    (hwrite : settings.dryRun = false → ∀ origin w d, R origin w →
      w.disk.write (localePath settings.localesPath language e.kind)
        (localeText (reconcileTarget origin mainDocument e.document clean)).toUTF8 = .ok d →
      J { w with disk := d })
    (hE : ∀ origin w, R origin w → E w) :
    Meets I (updateTarget settings clean language e mainDocument) (fun _ => J) E := by
  refine .bind (ends_readLocale hread (fun origin => logStable_of_framed (hR origin))
    fun w hw _ => hE _ w (hread w hw)) fun origin => ?_
  exact meets_saveLocale (hR origin) hJ (fun h => hdry h origin)
    (fun h w d => hwrite h origin w d) (hE origin)

/-- Updating a document of the main language maintains what does not look at its file. -/
theorem maintains_updateMain (h : Framed S I) {settings : Settings} {clean : Bool} {main : String}
    {e : Extracted} (hpath : settings.dryRun = false → ∀ w, I w →
      ¬ S (w.disk.placeOf (localePath settings.localesPath main e.kind))) :
    Maintains I (updateMain settings clean main e) := by
  refine .bind (maintains_readLocale (logStable_of_framed h) _) fun origin => ?_
  refine .bind (maintains_saveLocale h _ hpath) fun paths => ?_
  exact .pure _ fun _ hw => hw

/-- Updating a document of another language maintains what does not look at its file. -/
theorem maintains_updateTarget (h : Framed S I) {settings : Settings} {clean : Bool}
    {language : String} {e : Extracted} {mainDocument : Document}
    (hpath : settings.dryRun = false → ∀ w, I w →
      ¬ S (w.disk.placeOf (localePath settings.localesPath language e.kind))) :
    Maintains I (updateTarget settings clean language e mainDocument) :=
  .bind (maintains_readLocale (logStable_of_framed h) _) fun _ => maintains_saveLocale h _ hpath

theorem maintains_updateLanguage {settings : Settings} {clean : Bool} {language : String}
    {normal schema : Extracted} {mainNormal mainSchema : Document}
    (hnormal : Maintains I (updateTarget settings clean language normal mainNormal))
    (hschema : Maintains I (updateTarget settings clean language schema mainSchema)) :
    Maintains I (updateLanguage settings clean normal schema mainNormal mainSchema language) :=
  .bind hnormal fun _ => .bind hschema fun _ => .pure _ fun _ hw => hw

/-- The rule for the update of all files: the locales directory comes first, then the two documents
of the main language, and then all other languages. -/
theorem meets_updateAll {settings : Settings} {clean : Bool} {languages : List String}
    {main : String} {normal schema : Extracted} {F : Document → World → Prop}
    {G H : Document → Document → World → Prop} (hdry : settings.dryRun = true → ∀ w, I w → J w)
    (hdirectory : settings.dryRun = false →
      Meets I (makeDirectories settings.localesPath) (fun _ => J) E)
    (hnormal : Meets J (updateMain settings clean main normal) (fun r => F r.1) E)
    (hschema : ∀ first, Meets (F first) (updateMain settings clean main schema)
      (fun r => G first r.1) E)
    (hothers : ∀ first second, Meets (G first second) ((languages.filter (· ≠ main)).mapM
      (updateLanguage settings clean normal schema first second)) (fun _ => H first second) E)
    (hlog : ∀ first second, LogStable (H first second)) :
    Meets I (updateAll settings clean languages main normal schema)
      (fun _ w => ∃ first second, H first second w) E := by
  -- a dry run leaves out the directory, and from there on both runs are the same
  have hfiles : Meets J (do
      let (mainNormal, normalPaths) ← updateMain settings clean main normal
      let (mainSchema, schemaPaths) ← updateMain settings clean main schema
      let others ← (languages.filter (· ≠ main)).mapM
        (updateLanguage settings clean normal schema mainNormal mainSchema)
      logMessage .info
        ((if clean then "Cleaned unused keys and extracted" else "Extracted") ++
          " translation keys into '" ++ settings.localesPath ++ "'.")
      return normalPaths ++ schemaPaths ++ others.flatten)
      (fun _ w => ∃ first second, H first second w) E := by
    refine .bind hnormal fun ⟨first, _⟩ => .bind (hschema first) fun ⟨second, _⟩ => ?_
    refine .bind (hothers first second) fun _ => ?_
    refine .bind ((hlog first second).logMessage .info _) fun _ => ?_
    exact .pure _ fun w hw => ⟨first, second, hw⟩
  unfold updateAll
  cases hrun : settings.dryRun with
  | true => exact hfiles.mono (hdry hrun) (fun _ _ hw => hw) fun _ hw => hw
  | false => exact .bind (hdirectory hrun) fun _ => hfiles

/-- The same, when every other language maintains what holds after the main language. -/
theorem meets_updateAll_of_maintains (h : Framed S I) {settings : Settings} {clean : Bool}
    {languages : List String} {main : String} {normal schema : Extracted}
    {F : Document → World → Prop} {G : Document → Document → World → Prop}
    (hnormal : Meets I (updateMain settings clean main normal) (fun r => F r.1) E)
    (hschema : ∀ first, Meets (F first) (updateMain settings clean main schema)
      (fun r => G first r.1) E)
    (hothers : ∀ first second, ∀ language ∈ languages, language ≠ main →
      Maintains (G first second)
        (updateLanguage settings clean normal schema first second language))
    (hlog : ∀ first second, LogStable (G first second)) (hI : ∀ w, I w → E w)
    (hE : ∀ first second w, G first second w → E w) :
    Meets I (updateAll settings clean languages main normal schema)
      (fun _ w => ∃ first second, G first second w) E := by
  refine meets_updateAll (fun _ _ hw => hw) (fun _ => ?_) hnormal hschema
    (fun first second => ?_) hlog
  · exact (maintains_makeDirectories h _).mono (fun _ hw => hw) (fun _ _ hw => hw) hI
  · refine Meets.mono (Maintains.mapM fun language hlanguage => ?_) (fun _ hw => hw)
      (fun _ _ hw => hw) (hE first second)
    obtain ⟨hmem, hne⟩ := List.mem_filter.1 hlanguage
    exact hothers first second language hmem (by simpa using hne)

/-- A dry extraction maintains what does not look at the log. -/
theorem maintains_updateAll_of_dryRun (h : Framed S I) {settings : Settings}
    (hdry : settings.dryRun = true) {clean : Bool} {languages : List String} {main : String}
    {normal schema : Extracted} :
    Maintains I (updateAll settings clean languages main normal schema) := by
  have hnever : settings.dryRun = false → ∀ {p : Prop}, p := fun hwet => by simp [hdry] at hwet
  refine (meets_updateAll_of_maintains h (F := fun _ => I) (G := fun _ _ => I)
    (maintains_updateMain h fun hwet => hnever hwet)
    (fun _ => maintains_updateMain h fun hwet => hnever hwet)
    (fun _ _ language _ _ => maintains_updateLanguage
      (maintains_updateTarget h fun hwet => hnever hwet)
      (maintains_updateTarget h fun hwet => hnever hwet))
    (fun _ _ => logStable_of_framed h) (fun _ hw => hw) fun _ _ _ hw => hw).mono
    (fun _ hw => hw) ?_ fun _ hw => hw
  rintro _ w ⟨-, -, hw⟩
  exact hw

/-! ## Translation -/

section Fill

variable {A : World → String → Document → Prop} {translate : String → Operation Document}

/-- Filling from the document maintains whatever looks only at the kept places, and what is known of
each answer is known of the whole result. -/
def FillsFrom (S : List String → Prop) (I E : World → Prop) (A : World → String → Document → Prop)
    (translate : String → Operation Document) (source : Document) : Prop :=
  ∀ J, Framed S J → (∀ w, J w → I w) → ∀ target,
    Meets J (Document.fill translate source target)
      (fun r w => J w ∧ Document.Filled (A w) source target r) E

theorem fillsFrom_scalar
    (htranslate : ∀ J, Framed S J → (∀ w, J w → I w) → ∀ s,
      Meets J (translate s) (fun a w => J w ∧ A w s a) E)
    {d : Document} (hd : d.kind = .scalar) : FillsFrom S I E A translate d := by
  intro J hJ hJI target
  cases d with
  | string s =>
    rw [Document.fill]
    split
    · next ht => exact .pure _ fun w hw => ⟨hw, .kept ht⟩
    · next ht =>
      have ht : target.isTranslated = false := by simpa using ht
      split
      · next hs => exact .pure _ fun w hw => ⟨hw, hs ▸ .empty ht⟩
      · next hs =>
        refine (htranslate J hJ hJI s).mono (fun _ hw => hw) ?_ fun _ hw => hw
        exact fun a w hw => ⟨hw.1, .answered ht hs hw.2⟩
  | list => simp [Document.kind] at hd
  | map => simp [Document.kind] at hd
  | _ => exact .pure _ fun w hw => ⟨hw, .other rfl fun s h => by cases h⟩

/-- What is known of the answers stays known of a filled document while the places are kept. -/
theorem framed_filled (hA : ∀ w w' s a, w.Keeps S w' → A w s a → A w' s a) (hJ : Framed S J)
    (d t r : Document) : Framed S fun w => J w ∧ Document.Filled (A w) d t r :=
  hJ.and fun w w' hk => Document.Filled.mono fun s a => hA w w' s a hk

theorem meets_fillItems (hA : ∀ w w' s a, w.Keeps S w' → A w s a → A w' s a) {ds : List Document}
    (h : ∀ d ∈ ds, FillsFrom S I E A translate d) (hJ : Framed S J) (hJI : ∀ w, J w → I w)
    (ts : List Document) :
    Meets J (Document.fillItems translate ds ts)
      (fun rs w => J w ∧ Document.FilledItems (A w) ds ts rs) E := by
  induction ds generalizing J ts with
  | nil => exact .pure _ fun w hw => ⟨hw, .nil⟩
  | cons d ds ih =>
    obtain ⟨hd, hds⟩ := List.forall_mem_cons.1 h
    refine .bind (hd J hJ hJI (Document.orNull ts.head?)) fun r => ?_
    -- the rest has to keep what is known of the first item
    refine .bind (ih hds (framed_filled hA hJ d _ r) (fun w hw => hJI w hw.1) ts.tail) fun rs => ?_
    exact .pure _ fun w hw => ⟨hw.1.1, .cons hw.1.2 hw.2⟩

theorem meets_fillEntries (hA : ∀ w w' s a, w.Keeps S w' → A w s a → A w' s a)
    {es : List (String × Document)} (h : ∀ e ∈ es, FillsFrom S I E A translate e.2)
    (hJ : Framed S J) (hJI : ∀ w, J w → I w) (ts : List (String × Document)) :
    Meets J (Document.fillEntries translate es ts)
      (fun rs w => J w ∧ Document.FilledEntries (A w) es ts rs) E := by
  induction es generalizing J with
  | nil => exact .pure _ fun w hw => ⟨hw, .nil⟩
  | cons e es ih =>
    obtain ⟨key, d⟩ := e
    obtain ⟨hd, hes⟩ := List.forall_mem_cons.1 h
    refine .bind (hd J hJ hJI (Document.orNull (Assoc.get? key ts))) fun r => ?_
    refine .bind (ih hes (framed_filled hA hJ d _ r) fun w hw => hJI w hw.1) fun rs => ?_
    exact .pure _ fun w hw => ⟨hw.1.1, .cons hw.1.2 hw.2⟩

/-- The rule for a fill: what is known of each answer when it is given, and stays known while the
places are kept, is known of the whole result. -/
theorem meets_fill (hA : ∀ w w' s a, w.Keeps S w' → A w s a → A w' s a)
    (htranslate : ∀ J, Framed S J → (∀ w, J w → I w) → ∀ s,
      Meets J (translate s) (fun a w => J w ∧ A w s a) E)
    (source : Document) : FillsFrom S I E A translate source := by
  induction source using Document.structuralRec with
  | scalar d hd => exact fillsFrom_scalar htranslate hd
  | list ds ih =>
    intro J hJ hJI target
    refine .bind (meets_fillItems hA ih hJ hJI target.items) fun rs => ?_
    exact .pure _ fun w hw => ⟨hw.1, .list hw.2⟩
  | map es ih =>
    intro J hJ hJI target
    refine .bind (meets_fillEntries hA ih hJ hJI target.entries) fun rs => ?_
    exact .pure _ fun w hw => ⟨hw.1, .map hw.2⟩

end Fill

/-- A provider may give the document as an answer. -/
def Answers (adapter : Provider.Adapter) (a : Document) : Prop :=
  ∃ text source target languages w result w',
    (adapter.translate text source target languages).runIn w = (.ok result, w') ∧
      result.translatedText = a

/-- A provider that leaves some places and the record of answers alone, whatever it does, and
answers with what a file can hold. -/
structure Considerate (S : List String → Prop) (adapter : Provider.Adapter) : Prop where
  keeps : ∀ text source target languages (w : World), w.Apart S →
    w.Keeps S ((adapter.translate text source target languages).runIn w).2
  answers : ∀ text source target languages (w : World),
    ((adapter.translate text source target languages).runIn w).2.answers = w.answers
  storable : ∀ a, Answers adapter a → a.Storable

/-- A provider gave a document as the translation of a text, after so many answers. -/
def Given (adapter : Provider.Adapter) (count : ℕ) (language : String) (w : World) (text : String)
    (a : Document) : Prop :=
  Answers adapter a ∧ ⟨language, text, a⟩ ∈ w.answers.drop count

theorem mem_drop_mono {α : Type} {xs ys : List α} (h : xs <+: ys) {x : α} {n : ℕ}
    (hx : x ∈ xs.drop n) : x ∈ ys.drop n := by
  obtain ⟨zs, rfl⟩ := h
  rw [List.drop_append]
  exact List.mem_append_left _ hx

theorem Given.keeps {adapter : Provider.Adapter} {count : ℕ} {language : String} {w w' : World}
    {text : String} {a : Document} (h : Given adapter count language w text a)
    (hk : w.Keeps S w') : Given adapter count language w' text a :=
  ⟨h.1, mem_drop_mono hk.answers h.2⟩

/-- A provider that answers every text. -/
def Unfailing (adapter : Provider.Adapter) : Prop :=
  ∀ text source target languages w, ∃ result w',
    (adapter.translate text source target languages).runIn w = (.ok result, w')

/-- A considerate provider is asked, and its answer goes on record. -/
theorem meets_translateText (h : Framed S I) {adapter : Provider.Adapter}
    (hadapter : Considerate S adapter) {count : ℕ} (hcount : ∀ w, I w → count ≤ w.answers.length)
    (hE : ∀ w, I w → E w ∨ Unfailing adapter) (settings : Settings) (main language text : String) :
    Meets I (translateText adapter settings main language text)
      (fun a w => I w ∧ Given adapter count language w text a) E := by
  have hask : Meets I (adapter.translate text main language settings.languageMap)
      (fun result w => Answers adapter result.translatedText ∧ I w) E := by
    refine ⟨fun w hw => ?_⟩
    have hkept := h.keeps w _ hw
      (hadapter.keeps text main language settings.languageMap w (h.apart w hw))
    split
    · next result w' hrun =>
      rw [hrun] at hkept
      exact ⟨⟨_, _, _, _, _, _, _, hrun, rfl⟩, hkept⟩
    · next hrun =>
      rw [hrun] at hkept
      -- a failure is admitted, or there is none because every text is answered
      rcases hE _ hkept with h | h
      · exact h
      · obtain ⟨result, w', hanswered⟩ := h text main language settings.languageMap w
        rw [hanswered] at hrun
        cases hrun
  refine .bind hask fun result => .of_and fun hanswers => ?_
  refine .bind (Q := fun _ w => I w ∧ Given adapter count language w text result.translatedText)
    (.modify fun w hw => ?_) fun _ => .pure _ fun _ hw => hw
  refine ⟨h.keeps w _ hw ⟨.refl S w.disk, rfl, List.prefix_append _ _⟩, hanswers, ?_⟩
  -- the answer comes behind those that were counted
  rw [List.drop_append_of_le_length (hcount w hw)]
  exact List.mem_append_right _ (List.mem_singleton.2 rfl)

/-- The document of a file is filled with the answers of a considerate provider. -/
theorem meets_translateDocument (h : Framed S I) {adapter : Provider.Adapter}
    (hadapter : Considerate S adapter) {count : ℕ} (hcount : ∀ w, I w → count ≤ w.answers.length)
    (hE : ∀ w, I w → E w ∨ Unfailing adapter) (settings : Settings) (main language : String)
    (source target : Document) (fileName : String) :
    Meets I (translateDocument adapter settings main language source target fileName)
      (fun result w => I w ∧
        Document.Filled (Given adapter count language w) source target result) E := by
  refine .bind ((logStable_of_framed h).logMessage .info _) fun _ => ?_
  refine .bind (Q := fun _ => I) (.modify fun w hw => ?_) fun _ => ?_
  · exact h.keeps w _ hw ⟨.refl S w.disk, rfl, List.prefix_rfl⟩
  · refine meets_fill (fun w w' s a hk h => h.keeps hk) ?_ source _ h (fun _ hw => hw) target
    exact fun J hJ hJI s => meets_translateText hJ hadapter (fun w hw => hcount w (hJI w hw))
      (fun w hw => hE w (hJI w hw)) settings main language s

/-- The rule for one file of a target language: it is read, filled, and written unless the run is
dry. This does not fail if the provider does not and there is a file to be read. -/
theorem meets_translateFile {R : Document → World → Prop} {adapter : Provider.Adapter}
    (hadapter : Considerate S adapter) {settings : Settings} {main language : String}
    {kind : LocaleKind} {mainDocument : Document} {count : ℕ}
    (hread : ∀ w, I w → R (w.disk.localeDocument (localePath settings.localesPath language kind)) w)
    (hR : ∀ target, Framed S (R target)) (hJ : LogStable J)
    (hcount : ∀ target w, R target w → count ≤ w.answers.length)
    (hunpaired : ∀ w, I w →
      w.disk.IsUnpaired (localePath settings.localesPath language kind) → E w)
    (hdry : settings.dryRun = true → ∀ target w, R target w → J w)
    (hwrite : settings.dryRun = false → ∀ target result w d, R target w →
      Document.Filled (Given adapter count language w) mainDocument target result →
      w.disk.write (localePath settings.localesPath language kind)
        (localeText result).toUTF8 = .ok d → J { w with disk := d })
    (hE : ∀ target w, R target w → E w ∨ Unfailing adapter ∧ ∃ bytes,
      w.disk.read (localePath settings.localesPath language kind) = .ok bytes) :
    Meets I (translateFile adapter settings main kind mainDocument language) (fun _ => J) E := by
  refine .bind (ends_readLocale hread (fun target => logStable_of_framed (hR target)) hunpaired)
    fun target => ?_
  refine .bind (meets_translateDocument (hR target) hadapter (hcount target)
    (fun w hw => (hE target w hw).imp_right And.left) settings main language mainDocument target _)
    fun result => ?_
  have hfilled := framed_filled (A := Given adapter count language)
    (fun w w' s a hk h => h.keeps hk) (hR target) mainDocument target result
  have hlog := logStable_of_framed hfilled
  -- what is known of the answers is kept while directories are made for the file
  cases hrun : settings.dryRun with
  | true =>
    refine .bind (hlog.logMessage .info _) fun _ => ?_
    exact .pure _ fun w hw => hdry hrun target w hw.1
  | false =>
    have hwritten : Meets (fun w => R target w ∧
        Document.Filled (Given adapter count language w) mainDocument target result)
        (writeLocale (localePath settings.localesPath language kind) result) (fun _ => J) E :=
      meets_writeLocale (fun w d hw _ hd => framed_makeDirectories hfilled hw hd)
        (fun w d hw hd => hwrite hrun target result w d hw.1 hw.2 hd) fun w hw => by
          rcases hE target w hw.1 with hE | ⟨-, bytes, hbytes⟩
          · exact Or.inl hE
          · exact Or.inr (Disk.isWritable_of_read hbytes)
    refine .bind hwritten fun _ => .bind (hJ.logMessage .info _) fun _ => ?_
    exact .pure _ fun _ hw => hw

/-- Translating a file maintains what does not look at it. -/
theorem maintains_translateFile (h : Framed S I) {adapter : Provider.Adapter}
    (hadapter : Considerate S adapter) {settings : Settings} {main language : String}
    {kind : LocaleKind} {mainDocument : Document}
    (hpath : settings.dryRun = false → ∀ w, I w →
      ¬ S (w.disk.placeOf (localePath settings.localesPath language kind))) :
    Maintains I (translateFile adapter settings main kind mainDocument language) := by
  refine meets_translateFile (R := fun _ => I) hadapter (fun _ hw => hw) (fun _ => h)
    (logStable_of_framed h) (fun _ _ _ => Nat.zero_le _) (fun _ hw _ => hw) (fun _ _ _ hw => hw) ?_
    fun _ _ hw => Or.inl hw
  intro hdry target result w d hw _ hwrite
  refine h.disk hw ((Disk.keeps_write hwrite).mono fun place hplace heq => ?_)
  exact hpath hdry w hw (heq ▸ hplace)

/-- The rule for the files of one kind: the document of the main language is read once, if it is
there, and then come all targets. -/
theorem meets_translateKind (hJ : LogStable J) {K : Document → World → Prop}
    {adapter : Provider.Adapter} {settings : Settings} {main : String} {targets : List String}
    {kind : LocaleKind}
    (hnone : ∀ w, I w → w.disk.isThere (localePath settings.localesPath main kind) = false → J w)
    (hunread : ∀ w, I w →
      w.disk.document? (localePath settings.localesPath main kind) = none → E w)
    (hmain : ∀ doc w, I w →
      w.disk.document? (localePath settings.localesPath main kind) = some doc → K doc w)
    (htargets : ∀ doc, Meets (K doc) (targets.mapM (translateFile adapter settings main kind doc))
      (fun _ => J) E) :
    Meets I (translateKind adapter settings main targets kind) (fun _ => J) E := by
  refine .bind (.isThere (R := fun there w => I w ∧
    w.disk.isThere (localePath settings.localesPath main kind) = there) fun w hw => ⟨hw, rfl⟩)
    fun there => ?_
  cases there with
  | false =>
    refine .bind ((hJ.logMessage .info _).mono (fun w hw => hnone w hw.1 hw.2) (fun _ _ hw => hw)
      fun _ _ hw => hw) fun _ => ?_
    exact .pure _ fun _ hw => hw
  | true =>
    refine .bind ((meets_readJson _).mono (fun _ hw => hw.1)
      (fun doc w hw => hmain doc w hw.1 hw.2) fun w hw => hunread w hw.1 hw.2) fun doc => ?_
    exact .bind (htargets doc) fun _ => .pure _ fun _ hw => hw

/-- The same, when every target maintains what holds after the document was read. -/
theorem meets_translateKind_of_maintains (hJ : LogStable J) {K : Document → World → Prop}
    {adapter : Provider.Adapter} {settings : Settings} {main : String} {targets : List String}
    {kind : LocaleKind}
    (hmain : ∀ doc w, I w →
      w.disk.document? (localePath settings.localesPath main kind) = some doc → K doc w)
    (htargets : ∀ doc, ∀ language ∈ targets,
      Maintains (K doc) (translateFile adapter settings main kind doc language))
    (hIJ : ∀ w, I w → J w) (hKJ : ∀ doc w, K doc w → J w) :
    Meets I (translateKind adapter settings main targets kind) (fun _ => J) J :=
  meets_translateKind hJ (fun w hw _ => hIJ w hw) (fun w hw _ => hIJ w hw) hmain fun doc =>
    (Maintains.mapM (htargets doc)).mono (fun _ hw => hw) (fun _ => hKJ doc) (hKJ doc)

/-- Translating the files of one kind maintains what does not look at them. -/
theorem maintains_translateKind (h : Framed S I) {adapter : Provider.Adapter}
    (hadapter : Considerate S adapter) {settings : Settings} {main : String}
    {targets : List String} {kind : LocaleKind}
    (hpath : settings.dryRun = false → ∀ language ∈ targets, ∀ w, I w →
      ¬ S (w.disk.placeOf (localePath settings.localesPath language kind))) :
    Maintains I (translateKind adapter settings main targets kind) :=
  meets_translateKind_of_maintains (K := fun _ => I) (logStable_of_framed h) (fun _ _ hw _ => hw)
    (fun _ language hlanguage => maintains_translateFile h hadapter fun hdry =>
      hpath hdry language hlanguage) (fun _ hw => hw) fun _ _ hw => hw

/-- The part of a translation that works on the files of both kinds. -/
def translateAll (adapter : Provider.Adapter) (settings : Settings) (languages : List String)
    (main : Option String) : Operation (List String) := do
  let written ← LocaleKind.all.mapM (translateKind adapter settings (main.getD "None")
    (languages.filter fun language => some language ≠ main))
  return written.flatten

/-- A translation finds its languages and then works on the files of both kinds. -/
theorem meets_translateLocales (h : LogStable I) {settings : Settings}
    {adapter : Provider.Adapter} {w₀ : World} (hw₀ : I w₀) (hE : ∀ w, I w → E w)
    (hkinds : ∀ languages main, Finds settings w₀ languages main →
      Meets I (LocaleKind.all.mapM (translateKind adapter settings (main.getD "None")
        (languages.filter fun language => some language ≠ main))) (fun _ => Q) E) :
    Meets (· = w₀) (translateLocales settings adapter) (fun _ => Q) E := by
  have hstart : ∀ w, w = w₀ → I w := fun w hw => hw ▸ hw₀
  refine .bind (((maintains_mainLanguage h settings).mono hstart (fun _ _ hw => hw) hE).from)
    fun main => ?_
  refine .bind (((maintains_allLanguages h settings).mono (fun _ hw => hw.1) (fun _ _ hw => hw)
    hE).from) fun languages => ?_
  have hfinds : ∀ w, (I w ∧ ∃ w₁, (I w₁ ∧ ∃ w₂, w₂ = w₀ ∧
      (mainLanguage settings).runIn w₂ = (.ok main, w₁)) ∧
      (allLanguages settings).runIn w₁ = (.ok languages, w)) →
      Finds settings w₀ languages main ∧ I w := by
    rintro w ⟨hw, w₁, ⟨-, w₂, rfl, hmain⟩, hlanguages⟩
    exact ⟨Or.inr ⟨w₁, w, hmain, hlanguages⟩, hw⟩
  refine Meets.mono (Ends.of_and fun hfound => ?_) hfinds (fun _ _ hw => hw) fun _ hw => hw
  exact .bind (hkinds languages main hfound) fun _ => .pure _ fun _ hw => hw

end ThemeLocales.Project
