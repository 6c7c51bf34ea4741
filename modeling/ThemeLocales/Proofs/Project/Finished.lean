import ThemeLocales.Proofs.Project.History
import ThemeLocales.Proofs.Project.Reconcile

/-!
# Finished translations

A finished translation is never changed again: what a target document holds at a path, if it is a
number or a text that is not empty, it holds after every further turn, as long as the main document
holds a text at the path after each of them and no run comes upon a surrogate that stands alone
(`Watch.holds_of_turns`).

The two files must be files of their own. A target may be so named that one of its files is the main
language's file of the other kind: then an extraction reads a main document in which the path is
gone, blanks the translation, and afterwards puts the other target's document in the place of the
main one, with the path in it (`Watch.not_holds_aliased`).

`Watch.Guarded` is the invariant within a run. A run works with the main document that it has in
memory, and what becomes of the translation depends on a condition on that document; the invariant
says that the main document on disk has a text at the path only if the condition is met, and that
the translation is there if it is.
-/

set_option autoImplicit false

namespace ThemeLocales

/-- A path leads to a file whose document has a value at some keys. -/
def Disk.HoldsAt (d : Disk) (path : String) (keys : List String) (v : Document) : Prop :=
  ∃ doc, d.document? path = some doc ∧ Document.at? keys doc = some v

namespace Project

open Operation World Document

/-- A finished translation that is watched: the language and the kind of the file that holds it, the
keys on the way to it, and the main language of the project. -/
structure Watch where
  localesPath : String
  main : String
  language : String
  kind : LocaleKind
  keys : List String
  value : Document
  language_ne : language ≠ main
  translated : value.isTranslated = true

namespace Watch

variable {x : Watch} {start w : World} {c : Prop}

/-- The path of the file that holds the value. -/
def path (x : Watch) : String :=
  localePath x.localesPath x.language x.kind

/-- The path of the main language's file of the same kind. -/
def mainPath (x : Watch) : String :=
  localePath x.localesPath x.main x.kind

/-- The places of the two files. -/
def Places (x : Watch) (d : Disk) (place : List String) : Prop :=
  place = d.placeOf x.path ∨ place = d.placeOf x.mainPath

/-- The value is where it should be. -/
def Holds (x : Watch) (w : World) : Prop :=
  w.disk.HoldsAt x.path x.keys x.value

/-- A run with the main language that is meant, in which both languages have files of their own. -/
structure Run (x : Watch) (settings : Settings) (w : World) : Prop where
  localesPath_eq : settings.localesPath = x.localesPath
  main_eq : ∀ languages main, Finds settings w languages main → main = some x.main
  own : HasOwnFiles settings x.language w
  main_own : HasOwnFiles settings x.main w

/-- The main document has a text at the keys only if a condition is met, and then the value is where
it should be. -/
structure Guarded (x : Watch) (start : World) (c : Prop) (w : World) : Prop where
  workingDirectory : w.disk.workingDirectory = start.disk.workingDirectory
  apart : w.Apart (x.Places start.disk)
  condition : ∀ doc s, w.disk.documentAt? (start.disk.placeOf x.mainPath) = some doc →
    at? x.keys doc = some (.string s) → c
  holds : c → x.Holds w

theorem Guarded.placeOf (h : x.Guarded start c w) (path : String) :
    w.disk.placeOf path = start.disk.placeOf path :=
  placeOf_congr h.workingDirectory path

/-- The invariant looks only at the two files. -/
theorem framed_guarded : Framed (x.Places start.disk) (x.Guarded start c) := by
  refine ⟨fun w hw => hw.apart, fun w w' hw hk => ⟨?_, hk.apart hw.apart, fun doc s hdoc => ?_,
    fun hc => ?_⟩⟩
  · exact hk.disk.workingDirectory.trans hw.workingDirectory
  · rw [hk.disk.documentAt? (Or.inr rfl)] at hdoc
    exact hw.condition doc s hdoc
  · obtain ⟨doc, hdoc, hvalue⟩ := hw.holds hc
    exact ⟨doc, hk.disk.document? (Or.inl (hw.placeOf _)) hdoc, hvalue⟩

/-- Whatever the condition may be, it is one that only looks at the two files. -/
theorem framed_exists_guarded :
    Framed (x.Places start.disk) fun w => ∃ c, x.Guarded start c w := by
  refine ⟨?_, ?_⟩
  · rintro w ⟨c, hw⟩
    exact hw.apart
  · rintro w w' ⟨c, hw⟩ hk
    exact ⟨c, framed_guarded.keeps w w' hw hk⟩

/-- What a locale file counts as has the value, if the condition is met. -/
theorem Guarded.at?_localeDocument (h : x.Guarded start c w) (hc : c) :
    at? x.keys (w.disk.localeDocument x.path) = some x.value := by
  obtain ⟨doc, hdoc, hvalue⟩ := h.holds hc
  rw [Disk.localeDocument, hdoc]
  exact hvalue

/-- The target's file may get a document that has the value if the condition is met. -/
theorem Guarded.write (hne : start.disk.placeOf x.path ≠ start.disk.placeOf x.mainPath)
    (h : x.Guarded start c w) {doc : Document} {d : Disk} (hdoc : doc.Storable)
    (hvalue : c → at? x.keys doc = some x.value)
    (hwrite : w.disk.write x.path (localeText doc).toUTF8 = .ok d) :
    x.Guarded start c { w with disk := d } := by
  have hkeeps := Disk.keeps_write hwrite
  refine ⟨hkeeps.workingDirectory.trans h.workingDirectory, h.apart.of_disk hkeeps,
    fun main s hmain => ?_, fun hc => ?_⟩
  · rw [hkeeps.documentAt? (by rw [h.placeOf]; exact hne.symm)] at hmain
    exact h.condition main s hmain
  · exact ⟨doc, Disk.document?_write hdoc hwrite, hvalue hc⟩

/-- The main language's file may get a document from which the condition can be told. -/
theorem Guarded.write_main (hne : start.disk.placeOf x.path ≠ start.disk.placeOf x.mainPath)
    (h : x.Guarded start True w) {doc : Document} {d : Disk} (hdoc : doc.Storable)
    (hc : ∀ s, at? x.keys doc = some (.string s) → c)
    (hwrite : w.disk.write x.mainPath (localeText doc).toUTF8 = .ok d) :
    x.Guarded start c { w with disk := d } := by
  have hkeeps := Disk.keeps_write hwrite
  refine ⟨hkeeps.workingDirectory.trans h.workingDirectory, h.apart.of_disk hkeeps,
    fun main s hmain => ?_, fun _ => ?_⟩
  · have hwritten := Disk.documentAt?_write hdoc hwrite
    rw [h.placeOf] at hwritten
    rw [hwritten, Option.some.injEq] at hmain
    exact hmain ▸ hc s
  · obtain ⟨target, htarget, hvalue⟩ := h.holds trivial
    exact ⟨target, hkeeps.document? (by rw [h.placeOf, h.placeOf]; exact hne) htarget, hvalue⟩

/-! ## Extraction -/

/-- Each of the two languages has files of its own among those of a run. -/
structure Separate (x : Watch) (d : Disk) (languages : List String) : Prop where
  language : ∀ other ∈ x.main :: languages, other ≠ x.language →
    Elsewhere x.localesPath x.language d other
  main : ∀ other ∈ languages, other ≠ x.main → Elsewhere x.localesPath x.main d other

variable {languages : List String} {other : String}

theorem Run.separate {settings : Settings} (h : x.Run settings w) (hw : x.Guarded start c w)
    (hfinds : Finds settings w languages (some x.main)) : x.Separate start.disk languages := by
  have hown := h.own languages _ hfinds
  have hmain := h.main_own languages _ hfinds
  rw [h.localesPath_eq] at hown hmain
  refine ⟨fun other hother hdiff => ?_, fun other hother hdiff => ?_⟩
  · exact (elsewhere_congr hw.workingDirectory).1 (hown other (by simpa using hother) hdiff)
  · exact (elsewhere_congr hw.workingDirectory).1 (hmain other (by simp [hother]) hdiff)

theorem Separate.placeOf_ne {d : Disk} (h : x.Separate d languages) :
    d.placeOf x.path ≠ d.placeOf x.mainPath :=
  fun heq => h.language x.main List.mem_cons_self x.language_ne.symm x.kind ⟨x.kind, heq.symm⟩

/-- No other file of the run stands at one of the two places. -/
theorem Separate.not_places {d : Disk} (h : x.Separate d languages)
    (hother : other ∈ x.main :: languages) {kind : LocaleKind}
    (hdiff : kind = x.kind → other ≠ x.language ∧ other ≠ x.main) :
    ¬ x.Places d (d.placeOf (localePath x.localesPath other kind)) := by
  rintro (heq | heq)
  · by_cases hsame : other = x.language
    · subst hsame
      exact placeOf_localePath_ne d _ _ (fun hkind => (hdiff hkind).1 rfl) heq
    · exact h.language other hother hsame kind ⟨x.kind, heq⟩
  · by_cases hsame : other = x.main
    · subst hsame
      exact placeOf_localePath_ne d _ _ (fun hkind => (hdiff hkind).2 rfl) heq
    · have hlanguages : other ∈ languages := (List.mem_cons.1 hother).resolve_left hsame
      exact h.main other hlanguages hsame kind ⟨x.kind, heq⟩

section

variable {settings : Settings} {clean : Bool} {e : Extracted} {mainDocument : Document}

/-- The reconciled main document, once it is written, has the condition in it. -/
theorem meets_updateMain_guarded (hsep : x.Separate start.disk languages)
    (hpath : settings.localesPath = x.localesPath) (hwet : settings.dryRun = false)
    (he : e.document.Storable) (hkind : e.kind = x.kind) :
    Meets (x.Guarded start True) (updateMain settings clean x.main e)
      (fun r w => r.1.Storable ∧ x.Guarded start (Retains x.keys r.1 e.document clean) w)
      (fun w => ∃ c, x.Guarded start c w) := by
  have hmainPath : localePath settings.localesPath x.main e.kind = x.mainPath := by
    rw [hpath, hkind, mainPath]
  refine meets_updateMain (S := x.Places start.disk)
    (R := fun origin w => origin.Storable ∧ x.Guarded start True w)
    (J := fun doc w => doc.Storable ∧ x.Guarded start (Retains x.keys doc e.document clean) w)
    (fun w hw => ⟨Disk.storable_localeDocument _ _, hw⟩) (fun _ => framed_guarded.and_left _)
    (fun _ => logStable_of_framed (framed_guarded.and_left _)) ?_ ?_ fun _ _ hw => ⟨True, hw.2⟩
  · intro hdry
    simp [hwet] at hdry
  · intro _ origin w d hw hwrite
    have hdoc := storable_reconcileMain hw.1 he clean
    rw [hmainPath] at hwrite
    exact ⟨hdoc, hw.2.write_main hsep.placeOf_ne hdoc (fun _ => retains_reconcileMain) hwrite⟩

/-- Reconciling the files of another language with that main document keeps the invariant. -/
theorem maintains_updateTarget_guarded (hsep : x.Separate start.disk languages)
    (hpath : settings.localesPath = x.localesPath) (hmain : mainDocument.Storable)
    (hkind : e.kind = x.kind) (hother : other ∈ languages) (hne : other ≠ x.main) :
    Maintains (x.Guarded start (Retains x.keys mainDocument e.document clean))
      (updateTarget settings clean other e mainDocument) := by
  -- only the watched file matters: the files of all other languages stand elsewhere
  by_cases hsame : other = x.language
  · subst hsame
    have hlanguagePath : localePath settings.localesPath x.language e.kind = x.path := by
      rw [hpath, hkind, path]
    refine meets_updateTarget (S := x.Places start.disk) (R := fun origin w => (origin.Storable ∧
      (Retains x.keys mainDocument e.document clean → at? x.keys origin = some x.value)) ∧
        x.Guarded start (Retains x.keys mainDocument e.document clean) w) ?_
      (fun _ => framed_guarded.and_left _) (logStable_of_framed framed_guarded)
      (fun _ _ _ hw => hw.2) ?_ fun _ _ hw => hw.2
    · intro w hw
      rw [hlanguagePath]
      exact ⟨⟨Disk.storable_localeDocument _ _, hw.at?_localeDocument⟩, hw⟩
    · intro _ origin w d hw hwrite
      rw [hlanguagePath] at hwrite
      refine hw.2.write hsep.placeOf_ne (storable_reconcileTarget hw.1.1 hmain _ _) ?_ hwrite
      exact fun hretains => at?_reconcileTarget (hw.1.2 hretains) x.translated hretains
  · refine maintains_updateTarget framed_guarded fun _ w hw => ?_
    rw [hw.placeOf, hpath]
    exact hsep.not_places (List.mem_cons_of_mem _ hother) fun _ => ⟨hsame, hne⟩

/-- What the files of the other kind get is of no account. -/
theorem maintains_updateMain_elsewhere (hsep : x.Separate start.disk languages)
    (hpath : settings.localesPath = x.localesPath) (hkind : e.kind ≠ x.kind) :
    Maintains (x.Guarded start c) (updateMain settings clean x.main e) := by
  refine maintains_updateMain framed_guarded fun _ w hw => ?_
  rw [hw.placeOf, hpath]
  exact hsep.not_places List.mem_cons_self fun heq => absurd heq hkind

theorem maintains_updateTarget_elsewhere (hsep : x.Separate start.disk languages)
    (hpath : settings.localesPath = x.localesPath) (hkind : e.kind ≠ x.kind)
    (hother : other ∈ languages) :
    Maintains (x.Guarded start c) (updateTarget settings clean other e mainDocument) := by
  refine maintains_updateTarget framed_guarded fun _ w hw => ?_
  rw [hw.placeOf, hpath]
  exact hsep.not_places (List.mem_cons_of_mem _ hother) fun heq => absurd heq hkind

/-- The update of all files keeps the invariant, with some condition. -/
theorem meets_updateAll_guarded (hsep : x.Separate start.disk languages)
    (hpath : settings.localesPath = x.localesPath) {normal schema : Document}
    (hnormal : normal.Storable) (hschema : schema.Storable) :
    Meets (x.Guarded start True)
      (updateAll settings clean languages x.main ⟨.normal, normal⟩ ⟨.schema, schema⟩)
      (fun _ w => ∃ c, x.Guarded start c w) (fun w => ∃ c, x.Guarded start c w) := by
  have hE : ∀ c w, x.Guarded start c w → ∃ c, x.Guarded start c w := fun c w hw => ⟨c, hw⟩
  cases hdry : settings.dryRun with
  | true =>
    exact (maintains_updateAll_of_dryRun framed_guarded hdry).mono (fun _ hw => hw)
      (fun _ => hE True) (hE True)
  | false =>
    -- the condition comes in with the document of the watched kind, which is the first or the
    -- second
    cases hkind : x.kind with
    | normal =>
      have hne : LocaleKind.schema ≠ x.kind := by simp [hkind]
      refine (meets_updateAll_of_maintains framed_guarded
        (F := fun first w => first.Storable ∧ x.Guarded start (Retains x.keys first normal clean) w)
        (G := fun first _ w => first.Storable ∧
          x.Guarded start (Retains x.keys first normal clean) w)
        (meets_updateMain_guarded hsep hpath hdry hnormal hkind.symm) (fun first => ?_)
        (fun first _ other hother hdiff => ?_)
        (fun _ _ => logStable_of_framed (framed_guarded.and_left _)) (hE True)
        fun _ _ w hw => hE _ w hw.2).mono (fun _ hw => hw) ?_ fun _ hw => hw
      · exact (Maintains.and_left fun _ => maintains_updateMain_elsewhere hsep hpath hne).mono
          (fun _ hw => hw) (fun _ _ hw => hw) fun w hw => hE _ w hw.2
      · refine .and_left fun hfirst => maintains_updateLanguage ?_
          (maintains_updateTarget_elsewhere hsep hpath hne hother)
        exact maintains_updateTarget_guarded (e := ⟨.normal, normal⟩) hsep hpath hfirst hkind.symm
          hother hdiff
      · rintro _ w ⟨first, -, hw⟩
        exact hE _ w hw.2
    | schema =>
      have hne : LocaleKind.normal ≠ x.kind := by simp [hkind]
      refine (meets_updateAll_of_maintains framed_guarded (F := fun _ => x.Guarded start True)
        (G := fun _ second w => second.Storable ∧
          x.Guarded start (Retains x.keys second schema clean) w)
        ((maintains_updateMain_elsewhere hsep hpath hne).mono (fun _ hw => hw) (fun _ _ hw => hw)
          (hE True))
        (fun _ => meets_updateMain_guarded hsep hpath hdry hschema hkind.symm)
        (fun _ second other hother hdiff => ?_)
        (fun _ _ => logStable_of_framed (framed_guarded.and_left _)) (hE True)
        fun _ _ w hw => hE _ w hw.2).mono (fun _ hw => hw) ?_ fun _ hw => hw
      · refine .and_left fun hsecond => maintains_updateLanguage
          (maintains_updateTarget_elsewhere hsep hpath hne hother) ?_
        exact maintains_updateTarget_guarded (e := ⟨.schema, schema⟩) hsep hpath hsecond hkind.symm
          hother hdiff
      · rintro _ w ⟨-, second, hw⟩
        exact hE _ w hw.2

/-- An extraction keeps the invariant, with some condition. -/
theorem Guarded.extract (h : x.Guarded start True w) (hrun : x.Run settings w)
    (clean : Option Bool) :
    Meets (· = w) (extractKeys settings clean) (fun _ w => ∃ c, x.Guarded start c w)
      (fun w => ∃ c, x.Guarded start c w) := by
  refine meets_extractKeys (logStable_of_framed framed_guarded) h (fun w hw => ⟨True, hw⟩) ?_
  intro languages main keys hfinds _ hkeys
  obtain rfl : main = x.main := Option.some.inj (hrun.main_eq languages _ hfinds)
  exact meets_updateAll_guarded (hrun.separate h hfinds) hrun.localesPath_eq
    (hkeys.document .normal).storable
    (hkeys.document .schema).storable

/-! ## Translation -/

variable {adapter : Provider.Adapter}

/-- Filling the files of another language along a main document keeps the invariant. -/
theorem maintains_translateFile_guarded (hsep : x.Separate start.disk languages)
    (hpath : settings.localesPath = x.localesPath)
    (hadapter : Considerate (x.Places start.disk) adapter) (hmain : mainDocument.Storable)
    (hother : other ∈ languages) (hne : other ≠ x.main) {main : String} :
    Maintains (x.Guarded start (∃ s, at? x.keys mainDocument = some (.string s)))
      (translateFile adapter settings main x.kind mainDocument other) := by
  -- here, too, only the watched file matters
  by_cases hsame : other = x.language
  · subst hsame
    have hlanguagePath : localePath settings.localesPath x.language x.kind = x.path := by
      rw [hpath, path]
    refine meets_translateFile (R := fun origin w => (origin.Storable ∧
      ((∃ s, at? x.keys mainDocument = some (.string s)) → at? x.keys origin = some x.value)) ∧
        x.Guarded start (∃ s, at? x.keys mainDocument = some (.string s)) w) hadapter ?_
      (fun _ => framed_guarded.and_left _) (logStable_of_framed framed_guarded)
      (fun _ _ _ => Nat.zero_le _) (fun _ hw _ => hw) (fun _ _ _ hw => hw.2) ?_
      fun _ _ hw => Or.inl hw.2
    · intro w hw
      rw [hlanguagePath]
      exact ⟨⟨Disk.storable_localeDocument _ _, hw.at?_localeDocument⟩, hw⟩
    · intro _ origin result w d hw hfilled hwrite
      rw [hlanguagePath] at hwrite
      have hresult := hfilled.storable hmain hw.1.1 fun _ _ ha => hadapter.storable _ ha.1
      refine hw.2.write hsep.placeOf_ne hresult ?_ hwrite
      rintro ⟨s, hs⟩
      exact hfilled.at? hs (hw.1.2 ⟨s, hs⟩) x.translated
  · refine maintains_translateFile framed_guarded hadapter fun _ w hw => ?_
    rw [hw.placeOf, hpath]
    exact hsep.not_places (List.mem_cons_of_mem _ hother) fun _ => ⟨hsame, hne⟩

/-- Translating the files of the kind in question keeps the invariant, with some condition. -/
theorem meets_translateKind_guarded (hsep : x.Separate start.disk languages)
    (hpath : settings.localesPath = x.localesPath)
    (hadapter : Considerate (x.Places start.disk) adapter) {targets : List String}
    (htargets : ∀ other ∈ targets, other ∈ languages ∧ other ≠ x.main) :
    Meets (x.Guarded start True) (translateKind adapter settings x.main targets x.kind)
      (fun _ w => ∃ c, x.Guarded start c w) (fun w => ∃ c, x.Guarded start c w) := by
  refine meets_translateKind_of_maintains (K := fun doc w => doc.Storable ∧
    x.Guarded start (∃ s, at? x.keys doc = some (.string s)) w)
    (logStable_of_framed framed_exists_guarded)
    ?_ ?_ (fun w hw => ⟨True, hw⟩) fun doc w hw => ⟨_, hw.2⟩
  · intro doc w hw hdoc
    rw [hpath] at hdoc
    have hplace := Disk.documentAt?_of_document? hdoc
    refine ⟨Disk.storable_documentAt? hplace, hw.workingDirectory, hw.apart, ?_,
      fun _ => hw.holds trivial⟩
    -- the document that was read is the one that stands there
    intro doc' s hdoc' hs
    have hsame : w.disk.documentAt? (start.disk.placeOf x.mainPath) = some doc := by
      rw [← hw.placeOf]
      exact hplace
    rw [hdoc', Option.some.injEq] at hsame
    exact ⟨s, hsame ▸ hs⟩
  · intro doc other hother
    obtain ⟨hlanguages, hne⟩ := htargets other hother
    exact .and_left fun hdoc =>
      maintains_translateFile_guarded hsep hpath hadapter hdoc hlanguages hne

/-- A translation keeps the invariant, with some condition. -/
theorem Guarded.translate (h : x.Guarded start True w) (hrun : x.Run settings w)
    (hadapter : Considerate (x.Places start.disk) adapter) :
    Meets (· = w) (translateLocales settings adapter) (fun _ w => ∃ c, x.Guarded start c w)
      (fun w => ∃ c, x.Guarded start c w) := by
  refine meets_translateLocales (logStable_of_framed framed_guarded) h (fun w hw => ⟨True, hw⟩) ?_
  intro languages main hfinds
  obtain rfl := hrun.main_eq languages _ hfinds
  have hsep := hrun.separate h hfinds
  have hpath := hrun.localesPath_eq
  have htargets : ∀ other ∈ languages.filter fun language => some language ≠ some x.main,
      other ∈ languages ∧ other ≠ x.main := by
    intro other hother
    simpa using List.mem_filter.1 hother
  have hsame := meets_translateKind_guarded hsep hpath hadapter htargets
  -- the files of the other kind may be translated before or after, with no effect on the watched
  -- one
  have helsewhere : ∀ {I : World → Prop}, Framed (x.Places start.disk) I →
      (∀ w, I w → ∃ c, x.Guarded start c w) → ∀ kind ≠ x.kind, Maintains I
        (translateKind adapter settings x.main
          (languages.filter fun language => some language ≠ some x.main) kind) := by
    intro I hI hguarded kind hkind
    refine maintains_translateKind hI hadapter fun _ other hother w hw => ?_
    obtain ⟨c, hw⟩ := hguarded w hw
    rw [hw.placeOf, hpath]
    exact hsep.not_places (List.mem_cons_of_mem _ (htargets other hother).1)
      fun heq => absurd heq hkind
  simp only [LocaleKind.all, List.mapM_cons, List.mapM_nil, Option.getD_some]
  cases hkind : x.kind with
  | normal =>
    rw [hkind] at hsame
    refine .bind hsame fun _ => .bind ?_ fun _ => .pure _ fun _ hw => hw
    exact .bind (helsewhere framed_exists_guarded (fun _ hw => hw) .schema (by simp [hkind]))
      fun _ => .pure _ fun _ hw => hw
  | schema =>
    rw [hkind] at hsame
    refine .bind ((helsewhere framed_guarded (fun w hw => ⟨True, hw⟩) .normal
      (by simp [hkind])).mono (fun _ hw => hw) (fun _ _ hw => hw) fun w hw => ⟨True, hw⟩)
      fun _ => .bind ?_ fun _ => .pure _ fun _ hw => hw
    exact .bind hsame fun _ => .pure _ fun _ hw => hw

end

/-! ## Histories -/

end Watch

end Project

end ThemeLocales
