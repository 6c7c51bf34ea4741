import ThemeLocales.Proofs.Document.Path
import ThemeLocales.Proofs.Provider.LiveCache

/-!
# Lookups in a damaged cache file

A lookup reads the file of a cache, whatever its bytes are. A file that is no UTF-8, no JSON or no
cache counts as an empty cache and is never in the way. The entry that a cache has for a request is
taken as it stands, so the answer depends on its shape alone (`answers_entryTranslation`): there is
nothing, or a translation with a text, just when the entry is readable, and the lookup fails on an
entry that is present and no map (`isSound_get_iff`).
-/

set_option autoImplicit false

namespace ThemeLocales.Provider.Cache

open Operation Project

/-! ## Entries -/

/-- What the cache file at a path has under a key, with U+FFFD for a surrogate that stands alone. -/
def entryAt (d : Disk) (path name : String) : Option Document :=
  (d.points? path).bind fun doc => Document.at? ["cache", name] doc.legible

theorem entryAt_of_document? {d : Disk} {path : String} {doc : Document}
    (h : d.document? path = some doc) (name : String) :
    entryAt d path name = Document.at? ["cache", name] doc := by
  obtain ⟨wide, hwide, -, rfl⟩ := Disk.document?_eq_some_iff.1 h
  rw [entryAt, hwide, Option.bind_some]

/-- The members that are read from a cache file have the entries of the file. -/
theorem get?_entries_membersAt (d : Disk) (path name : String) :
    Assoc.get? name (entries (membersAt d path)) = entryAt d path name := by
  have hentry : ∀ doc : Document, Document.at? ["cache", name] doc =
      (doc.get? "cache").bind (Document.get? name) := by
    intro doc
    simp [Document.at?]
  rw [membersAt, imageAt, entryAt]
  cases d.points? path with
  | none => rfl
  | some wide =>
    rw [Option.bind_some, Option.bind_some, hentry, image?]
    generalize wide.legible = doc
    -- a file that holds no map has no entries, and neither has one whose cache is none
    cases doc with
    | map es =>
      rw [Document.get?_map]
      cases hcache : Assoc.get? "cache" es with
      | none => simp [members?, hcache, entries, empty, Assoc.get?, Document.orNull,
          Document.entries]
      | some held =>
        cases held with
        | map held => simp [members?, hcache, entries, Document.orNull, Document.get?]
        | _ => simp [members?, hcache, entries, empty, Assoc.get?, Document.orNull,
            Document.entries, Document.get?]
    | _ => rfl

/-- An entry that can be read: nothing, or a map whose translation, if it has one, is a text. -/
inductive ReadableEntry : Document → Prop
  | absent {entry : Document} (h : entry.isPresent = false) : ReadableEntry entry
  | record {es : List (String × Document)}
      (h : ∀ d, Assoc.get? "translated_text" es = some d → d.isPresent = true →
        ∃ s, d = .string s) :
      ReadableEntry (.map es)

/-! ## Answers -/

/-- What a lookup may answer: nothing, or a translation whose text is not empty. -/
def IsSound (answer : Except Failure (Option Translation)) : Prop :=
  ∃ found : Option Translation, answer = .ok found ∧
    ∀ t, found = some t → ∃ s, s ≠ "" ∧ t.translatedText = .string s

theorem not_isSound_error (e : Failure) : ¬ IsSound (.error e) := by
  rintro ⟨found, hfound, -⟩
  cases hfound

theorem isSound_none : IsSound (.ok none) :=
  ⟨none, rfl, fun _ ht => absurd ht (by simp)⟩

theorem isSound_some_iff {t : Translation} :
    IsSound (.ok (some t)) ↔ ∃ s, s ≠ "" ∧ t.translatedText = .string s := by
  constructor
  · rintro ⟨found, hfound, htext⟩
    cases hfound
    exact htext t rfl
  · intro h
    refine ⟨some t, rfl, fun t' ht => ?_⟩
    cases ht
    exact h

/-- The answers to the shapes that an entry may have. -/
inductive Answers : Document → Except Failure (Option Translation) → Prop
  | absent {entry : Document} (h : entry.isPresent = false) : Answers entry (.ok none)
  | untranslated {es : List (String × Document)}
      (h : ∀ d, Assoc.get? "translated_text" es = some d → d.isPresent = false) :
      Answers (.map es) (.ok none)
  | translated {es : List (String × Document)} {d : Document}
      (htext : Assoc.get? "translated_text" es = some d) (h : d.isPresent = true) :
      Answers (.map es) (.ok (some (.ofEntry (.map es))))
  | misshapen {entry : Document} (h : entry.isPresent = true) (hmap : ∀ es, entry ≠ .map es) :
      Answers entry (.error .noMember)

/-- Every entry has its answer. -/
theorem answers_entryTranslation (entry : Document) : Answers entry (entryTranslation entry) := by
  cases hpresent : entry.isPresent with
  | false =>
    simp only [entryTranslation, hpresent, Bool.not_false, if_true]
    exact .absent hpresent
  | true =>
    -- of the values that count as present, only a map can be read as an entry
    cases entry with
    | map es =>
      have hmap : entryTranslation (.map es) =
          if (Document.orNull (Assoc.get? "translated_text" es)).isPresent then
            .ok (some (.ofEntry (.map es))) else .ok none := by
        rw [entryTranslation, hpresent]
        rfl
      rw [hmap]
      split
      · next htranslated =>
        cases htext : Assoc.get? "translated_text" es with
        | none => simp [htext, Document.orNull, Document.isPresent] at htranslated
        | some d => exact .translated htext (by simpa [htext, Document.orNull] using htranslated)
      · next huntranslated =>
        exact .untranslated fun d hd => by simpa [hd, Document.orNull] using huntranslated
    | _ =>
      simp only [entryTranslation, hpresent, Bool.not_true, Bool.false_eq_true, if_false]
      exact .misshapen hpresent (by simp)

variable {entry : Document} {answer : Except Failure (Option Translation)}

/-- The translation of an entry that has one. -/
theorem translatedText_ofEntry {es : List (String × Document)} {d : Document}
    (h : Assoc.get? "translated_text" es = some d) :
    (Translation.ofEntry (.map es)).translatedText = d := by
  simp [Translation.ofEntry, Translation.field, h]

/-- The answer is sound just when the entry can be read. -/
theorem Answers.isSound_iff (h : Answers entry answer) : IsSound answer ↔ ReadableEntry entry := by
  cases h with
  | absent h => exact ⟨fun _ => .absent h, fun _ => isSound_none⟩
  | untranslated h =>
    refine ⟨fun _ => .record fun d hd hpresent => ?_, fun _ => isSound_none⟩
    rw [h d hd] at hpresent
    cases hpresent
  | @translated es d htext hd =>
    rw [isSound_some_iff, translatedText_ofEntry htext]
    constructor
    · rintro ⟨s, -, rfl⟩
      refine .record fun d' hd' _ => ⟨s, ?_⟩
      rw [htext] at hd'
      exact (Option.some.inj hd').symm
    · intro hreadable
      obtain ⟨s, rfl⟩ : ∃ s, d = .string s := by
        cases hreadable with
        | absent habsent =>
          -- a map with an entry is present
          cases es with
          | nil => cases htext
          | cons e rest => simp [Document.isPresent] at habsent
        | record hrecord => exact hrecord d htext hd
      exact ⟨s, by simpa [Document.isPresent] using hd, rfl⟩
  | misshapen hpresent hmap =>
    refine iff_of_false (not_isSound_error _) fun hreadable => ?_
    cases hreadable with
    | absent habsent =>
      rw [hpresent] at habsent
      cases habsent
    | record => exact hmap _ rfl

/-- An answer is a failure just when the entry is present and no map. -/
theorem Answers.eq_error_iff (h : Answers entry answer) (e : Failure) :
    answer = .error e ↔ e = .noMember ∧ entry.isPresent = true ∧ ∀ es, entry ≠ .map es := by
  cases h with
  | absent h => simp [h]
  | untranslated h => simp
  | translated htext h => simp
  | misshapen hpresent hmap => simp [hpresent, hmap, eq_comm]

/-! ## Lookups -/

variable {path : String} {w : World}

/-- A lookup gets the answer to the entry that the file has for the request. -/
theorem answers_get (h : InStep path w) (text source target : String) :
    Answers (Document.orNull (entryAt w.disk path (key text source target)))
      ((get path text source target).runIn w).1 := by
  rw [runIn_get_of_inStep h, lookup, get?_entries_membersAt]
  exact answers_entryTranslation _

/-- Whatever bytes the file of a cache has, a lookup yields nothing, or a translation with a text
that is not empty, just when the entry that the file has for the request, if there is one, is
readable. The only failure is that of an entry that is present and no map, a translation is that of
a map, and a file without an entry for the request, such as one that is no cache at all, yields
nothing. -/
theorem isSound_get_iff (h : InStep path w) (text source target : String) :
    let found := entryAt w.disk path (key text source target)
    let answer := ((get path text source target).runIn w).1
    (IsSound answer ↔ ∀ entry, found = some entry → ReadableEntry entry) ∧
    (∀ e, answer = .error e ↔ e = .noMember ∧
      ∃ entry, found = some entry ∧ entry.isPresent = true ∧ ∀ es, entry ≠ .map es) ∧
    (∀ t, answer = .ok (some t) → ∃ es, found = some (.map es) ∧ t = .ofEntry (.map es)) ∧
    (found = none → answer = .ok none) := by
  intro found answer
  have hanswers : Answers (Document.orNull found) answer := answers_get h text source target
  have hnull : (Document.orNull none).isPresent = false := rfl
  -- only the relation between the entry and the answer is needed
  clear_value found answer
  cases hfound : found with
  | none =>
    rw [hfound] at hanswers
    refine ⟨hanswers.isSound_iff.trans ?_, fun e => (hanswers.eq_error_iff e).trans ?_, ?_, ?_⟩
    · simp [ReadableEntry.absent hnull]
    · simp [hnull]
    · intro t ht
      rw [ht] at hanswers
      cases hanswers
    · intro _
      cases hanswers with
      | absent => rfl
      | misshapen hpresent =>
        rw [hnull] at hpresent
        cases hpresent
  | some entry =>
    rw [hfound] at hanswers
    refine ⟨hanswers.isSound_iff.trans ?_, fun e => (hanswers.eq_error_iff e).trans ?_, ?_, ?_⟩
    · simp [Document.orNull]
    · simp [Document.orNull]
    · intro t ht
      rw [ht] at hanswers
      cases hanswers with
      | translated => exact ⟨_, rfl, rfl⟩
    · simp

/-! ## A cache file with one entry -/

/-- A world whose cache file has one entry, for the French translation of one text. -/
def heldWorld (entry : Document) : World :=
  { disk :=
    { entries := [(["c.json"],
        .file (Json.indented (.map [("cache", .map [("en_fr_Hello", entry)])])).toUTF8)]
      workingDirectory := [] } }

theorem entryAt_heldWorld (h : entry.Storable) :
    entryAt (heldWorld entry).disk "c.json" (key "Hello" "en" "fr") = some entry := by
  have hstorable : (Document.map [("cache", .map [("en_fr_Hello", entry)])]).Storable := by
    simp [Document.storable_map_iff, h]
  have hread : (heldWorld entry).disk.read "c.json" =
      .ok (Json.indented (.map [("cache", .map [("en_fr_Hello", entry)])])).toUTF8 := rfl
  have hdocument : (heldWorld entry).disk.document? "c.json" =
      some (.map [("cache", .map [("en_fr_Hello", entry)])]) := by
    rw [Disk.document?_of_read hread]
    exact Disk.ofBytes?_of_parse (Json.readText_toUTF8 (Json.not_mem_indented hstorable))
      (Json.parse_indented_map hstorable)
  rw [entryAt_of_document? hdocument]
  rfl

/-- A record with the translation is found, though nothing else is in it. -/
theorem isSound_get_record :
    let entry : Document := .map [("translated_text", .string "Bonjour")]
    InStep "c.json" (heldWorld entry) ∧
      IsSound ((get "c.json" "Hello" "en" "fr").runIn (heldWorld entry)).1 := by
  intro entry
  have hstep : InStep "c.json" (heldWorld entry) := inStep_of_none rfl
  have hstorable : entry.Storable := by simp [entry, Document.storable_map_iff]
  refine ⟨hstep, (isSound_get_iff hstep "Hello" "en" "fr").1.2 fun found hfound => ?_⟩
  rw [entryAt_heldWorld hstorable] at hfound
  cases hfound
  exact .record fun d hd _ => ⟨"Bonjour", (Option.some.inj hd).symm⟩

/-- A text in the place of a record breaks the lookup, and a number in the place of the translation
is found as it is. -/
theorem not_isSound_get_misshapen :
    ((get "c.json" "Hello" "en" "fr").runIn (heldWorld (.string "Bonjour"))).1 =
      .error .noMember ∧
    ¬ IsSound ((get "c.json" "Hello" "en" "fr").runIn
      (heldWorld (.map [("translated_text", .int 5)]))).1 := by
  constructor
  · have hstep : InStep "c.json" (heldWorld (.string "Bonjour")) := inStep_of_none rfl
    have hanswers := answers_get hstep "Hello" "en" "fr"
    rw [entryAt_heldWorld (by simp)] at hanswers
    exact (hanswers.eq_error_iff _).2 ⟨rfl, rfl, by simp [Document.orNull]⟩
  · have hstep : InStep "c.json" (heldWorld (.map [("translated_text", .int 5)])) :=
      inStep_of_none rfl
    have hanswers := answers_get hstep "Hello" "en" "fr"
    have hfive : (.int 5 : Document).Storable := Document.storable_int_iff.2 (by decide)
    rw [entryAt_heldWorld (by simp [Document.storable_map_iff, hfive])] at hanswers
    rw [hanswers.isSound_iff]
    intro hreadable
    cases hreadable with
    | absent habsent => cases habsent
    | record hrecord =>
      obtain ⟨s, hs⟩ := hrecord (.int 5) rfl rfl
      cases hs

end ThemeLocales.Provider.Cache
