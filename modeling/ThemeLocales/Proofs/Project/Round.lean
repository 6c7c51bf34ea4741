import ThemeLocales.Proofs.Project.Place
import ThemeLocales.Proofs.Project.Reconcile
import ThemeLocales.Proofs.Project.Replay

/-!
# A round of extraction and translation

In an orderly project the locale files of all languages stand at places of their own, away from the
sources. While the runs of a round write such files, `Underway` says which of them are done and what
their documents are like. An extraction brings the documents of the main language to rest
(`extracted_of_extractKeys`), and a translation with a provider that never fails then brings those
of all other languages to rest (`meets_translateAll`).
-/

set_option autoImplicit false

namespace ThemeLocales.Project

open Operation World

/-- The places that the runs of a project look at. -/
def RunPlaces (settings : Settings) (languages : List String) (d : Disk) (place : List String) :
    Prop :=
  Outside settings d place ∨
    ∃ language ∈ languages, LocalePlaces settings.localesPath language d place

/-- Every locale file stands at a place of its own, at which there is no source and to which no
record is written. The documents of the main language hold maps, texts and numbers only. -/
structure Orderly (settings : Settings) (main : String) (languages : List String) (w : World) :
    Prop where
  apart : w.Apart (RunPlaces settings (main :: languages) w.disk)
  distinct : ∀ language ∈ main :: languages, ∀ other ∈ main :: languages, other ≠ language →
    Elsewhere settings.localesPath language w.disk other
  outside : ∀ language ∈ main :: languages, ∀ kind,
    ¬ Outside settings w.disk (w.disk.placeOf (localePath settings.localesPath language kind))
  plain : ∀ kind doc,
    w.disk.documentAt? (w.disk.placeOf (localePath settings.localesPath main kind)) = some doc →
      doc.Plain

section

variable {settings : Settings} {main : String} {languages : List String} {start w : World}
  {K : String → LocaleKind → Document → Prop} {D T : String → LocaleKind → Prop}

/-- Two locale files stand at different places. -/
theorem Orderly.placeOf_ne (h : Orderly settings main languages start) {language other : String}
    {kind kind' : LocaleKind} (hlanguage : language ∈ main :: languages)
    (hother : other ∈ main :: languages) (hne : ¬ (other = language ∧ kind' = kind)) :
    start.disk.placeOf (localePath settings.localesPath other kind') ≠
      start.disk.placeOf (localePath settings.localesPath language kind) := by
  by_cases hsame : other = language
  · subst hsame
    exact placeOf_localePath_ne _ _ _ fun heq => hne ⟨rfl, heq⟩
  · exact fun heq => h.distinct language hlanguage other hother hsame kind' ⟨kind, heq⟩

/-- What holds while the runs of a round write locale files: what else they look at stays as it was
at the start, and the files that are done have documents as `K` asks for. -/
structure Underway (settings : Settings) (main : String) (languages : List String) (start : World)
    (K : String → LocaleKind → Document → Prop) (D : String → LocaleKind → Prop) (w : World) :
    Prop where
  apart : w.Apart (RunPlaces settings (main :: languages) start.disk)
  outside : start.disk.Keeps (Outside settings start.disk) w.disk
  plain : ∀ kind doc, w.disk.documentAt?
    (start.disk.placeOf (localePath settings.localesPath main kind)) = some doc → doc.Plain
  files : ∀ language ∈ main :: languages, ∀ kind, D language kind →
    ∃ doc, w.disk.Shows (localePath settings.localesPath language kind) doc ∧ K language kind doc

theorem Underway.placeOf (h : Underway settings main languages start K D w) (path : String) :
    w.disk.placeOf path = start.disk.placeOf path :=
  h.outside.placeOf path

theorem Underway.mono (h : Underway settings main languages start K D w)
    (hD : ∀ language ∈ main :: languages, ∀ kind, T language kind → D language kind) :
    Underway settings main languages start K T w :=
  ⟨h.apart, h.outside, h.plain, fun language hlanguage kind hdone =>
    h.files language hlanguage kind (hD language hlanguage kind hdone)⟩

/-- Writing one file with a document as it should be makes this file done. -/
theorem Underway.write (h : Underway settings main languages start K D w)
    (horderly : Orderly settings main languages start) {language : String} {kind : LocaleKind}
    {doc : Document} {d : Disk} (hlanguage : language ∈ main :: languages) (hdoc : doc.Storable)
    (hplain : language = main → doc.Plain) (hK : K language kind doc)
    (hwrite : w.disk.write (localePath settings.localesPath language kind)
      (localeText doc).toUTF8 = .ok d)
    (hD : ∀ other kind', T other kind' → D other kind' ∨ (other = language ∧ kind' = kind)) :
    Underway settings main languages start K T { w with disk := d } := by
  have hkeeps := Disk.keeps_write hwrite
  rw [h.placeOf] at hkeeps
  refine ⟨h.apart.of_disk hkeeps, h.outside.trans (hkeeps.mono fun place hplace heq => ?_), ?_, ?_⟩
  · exact horderly.outside language hlanguage kind (heq ▸ hplace)
  · intro kind' doc' hdoc'
    -- the document in question is the one that was written, or it stands elsewhere
    by_cases hsame : main = language ∧ kind' = kind
    · obtain ⟨rfl, rfl⟩ := hsame
      have hwritten := Disk.documentAt?_write hdoc hwrite
      rw [h.placeOf] at hwritten
      change d.documentAt? _ = _ at hdoc'
      rw [hwritten, Option.some.injEq] at hdoc'
      exact hdoc' ▸ hplain rfl
    · have hne := horderly.placeOf_ne hlanguage List.mem_cons_self hsame
      rw [hkeeps.documentAt? hne] at hdoc'
      exact h.plain kind' doc' hdoc'
  · intro other hother kind' hdone
    by_cases hsame : other = language ∧ kind' = kind
    · obtain ⟨rfl, rfl⟩ := hsame
      exact ⟨doc, Disk.shows_write hdoc hwrite, hK⟩
    · obtain ⟨doc', hshows, hdoc'⟩ :=
        h.files other hother kind' ((hD other kind' hdone).resolve_right hsame)
      refine ⟨doc', hkeeps.shows ?_ hshows, hdoc'⟩
      rw [h.placeOf]
      exact horderly.placeOf_ne hlanguage hother hsame

/-! ## The extraction -/

variable {clean : Bool}

variable {keys : Collected}

variable {adapter : Provider.Adapter} {mains : LocaleKind → Document}

/-- Every file has a document, and those of the main language have these. Those of the other
languages that are done rest. -/
def Translating (settings : Settings) (main : String) (languages : List String) (start : World)
    (keys : Collected) (clean : Bool) (mains : LocaleKind → Document)
    (D : String → LocaleKind → Prop) (w : World) : Prop :=
  Underway settings main languages start (fun language kind doc => language = main → doc = mains kind)
      (fun _ _ => True) w ∧
    Underway settings main languages start
      (fun _ kind doc => TargetRests doc (mains kind) (keys.document kind) clean) D w

theorem Translating.shows (h : Translating settings main languages start keys clean mains D w)
    (kind : LocaleKind) :
    w.disk.Shows (localePath settings.localesPath main kind) (mains kind) := by
  obtain ⟨doc, hshows, hdoc⟩ := h.1.files main List.mem_cons_self kind trivial
  exact hdoc rfl ▸ hshows

end

end ThemeLocales.Project
