import ThemeLocales.Proofs.Disk.Repeat
import ThemeLocales.Proofs.Disk.Shape
import ThemeLocales.Proofs.Json.RoundTrip
import ThemeLocales.Proofs.Json.Storable
import ThemeLocales.Proofs.Operation

/-!
# What reading and writing locale files do

The document of a place or of a path is what its file holds, if it can be read. Reading a locale
file yields that document, or the empty one, and changes nothing but the log. Writing one makes
directories and then writes the text of the document; what fails before that keeps every file.
-/

set_option autoImplicit false

namespace ThemeLocales

/-- The document of code points that the bytes of a file hold. -/
def Document.pointsOfBytes? (bytes : ByteArray) : Option (Document Text.Points) :=
  match Text.readText bytes with
  | .ok s => (Json.parseChars false s.toList).toOption
  | .error _ => none

/-- The document of strings that the bytes of a file hold. -/
def Document.ofBytes? (bytes : ByteArray) : Option Document :=
  (pointsOfBytes? bytes).bind fun d => (Json.asStrings d).toOption

namespace Disk

/-- The document of code points in the file that a path text leads to. -/
def points? (d : Disk) (path : String) : Option (Document Text.Points) :=
  (d.read path).toOption.bind Document.pointsOfBytes?

/-- The file that a path text leads to holds a document in which a surrogate stands alone. -/
def IsUnpaired (d : Disk) (path : String) : Prop :=
  ∃ doc, d.points? path = some doc ∧ doc.isPaired = false

/-- The file at a place holds a document in which a surrogate stands alone. -/
def IsUnpairedAt (d : Disk) (place : List String) : Prop :=
  ∃ doc, (d.fileAt? place).bind Document.pointsOfBytes? = some doc ∧ doc.isPaired = false

/-- The document in the file at a place. -/
def documentAt? (d : Disk) (place : List String) : Option Document :=
  (d.fileAt? place).bind Document.ofBytes?

/-- The document in the file that a path text leads to. -/
def document? (d : Disk) (path : String) : Option Document :=
  (d.read path).toOption.bind Document.ofBytes?

/-- The document that a locale file counts as: the empty one where it has none. -/
def localeDocument (d : Disk) (path : String) : Document :=
  (d.document? path).getD (.map [])

variable {S : List String → Prop} {d d' : Disk}

/-- What a path leads to stands at the place that the path names. -/
theorem documentAt?_of_document? {path : String} {doc : Document}
    (h : d.document? path = some doc) : d.documentAt? (d.placeOf path) = some doc := by
  unfold document? at h
  obtain ⟨bytes, hbytes, hdoc⟩ := Option.bind_eq_some_iff.1 h
  have hread : d.read path = .ok bytes := by
    cases hr : d.read path with
    | error e => simp [hr, Except.toOption] at hbytes
    | ok b => simpa [hr, Except.toOption] using hbytes
  rw [documentAt?, (read_eq_ok_iff.1 hread).2]
  exact hdoc

theorem document?_of_read {path : String} {bytes : ByteArray} (h : d.read path = .ok bytes) :
    d.document? path = Document.ofBytes? bytes := by
  rw [document?, h]
  rfl

theorem exists_read_of_document? {path : String} {doc : Document}
    (h : d.document? path = some doc) :
    ∃ bytes, d.read path = .ok bytes ∧ Document.ofBytes? bytes = some doc := by
  unfold document? at h
  cases hr : d.read path with
  | error e => simp [hr, Except.toOption] at h
  | ok bytes => exact ⟨bytes, rfl, by simpa [hr, Except.toOption] using h⟩

theorem exists_read_of_points? {path : String} {doc : Document Text.Points}
    (h : d.points? path = some doc) :
    ∃ bytes, d.read path = .ok bytes ∧ Document.pointsOfBytes? bytes = some doc := by
  obtain ⟨bytes, hread, hbytes⟩ := Option.bind_eq_some_iff.1 h
  refine ⟨bytes, ?_, hbytes⟩
  cases hr : d.read path with
  | error e => simp [hr, Except.toOption] at hread
  | ok found => simpa [hr, Except.toOption] using hread

theorem storable_pointsOfBytes? {bytes : ByteArray} {doc : Document Text.Points}
    (h : Document.pointsOfBytes? bytes = some doc) : doc.Storable := by
  unfold Document.pointsOfBytes? at h
  split at h
  · next s _ =>
    cases hparse : Json.parseChars false s.toList with
    | error e => simp [hparse, Except.toOption] at h
    | ok d =>
      obtain rfl : d = doc := by simpa [hparse, Except.toOption] using h
      exact Json.storable_of_parseChars hparse
  · cases h

theorem storable_points? {path : String} {doc : Document Text.Points}
    (h : d.points? path = some doc) : doc.Storable := by
  obtain ⟨bytes, -, hbytes⟩ := exists_read_of_points? h
  exact storable_pointsOfBytes? hbytes

theorem ofBytes?_eq_some_iff {bytes : ByteArray} {doc : Document} :
    Document.ofBytes? bytes = some doc ↔ ∃ wide, Document.pointsOfBytes? bytes = some wide ∧
      wide.isPaired = true ∧ wide.legible = doc := by
  simp only [Document.ofBytes?, Option.bind_eq_some_iff, Json.toOption_asStrings_eq_some_iff]

/-- A file has a document of strings where no surrogate stands alone in it. -/
theorem document?_eq_some_iff {path : String} {doc : Document} :
    d.document? path = some doc ↔ ∃ wide, d.points? path = some wide ∧
      wide.isPaired = true ∧ wide.legible = doc := by
  simp only [document?, points?, Option.bind_eq_some_iff, ofBytes?_eq_some_iff]
  constructor
  · rintro ⟨bytes, hread, wide, hwide, hdoc⟩
    exact ⟨wide, ⟨bytes, hread, hwide⟩, hdoc⟩
  · rintro ⟨wide, ⟨bytes, hread, hwide⟩, hdoc⟩
    exact ⟨bytes, hread, wide, hwide, hdoc⟩

theorem points?_of_read {path : String} {bytes : ByteArray} (h : d.read path = .ok bytes) :
    d.points? path = Document.pointsOfBytes? bytes := by
  rw [points?, h]
  rfl

theorem document?_of_points? {path : String} (h : d.points? path = none) :
    d.document? path = none := by
  refine Option.eq_none_iff_forall_ne_some.2 fun doc hdoc => ?_
  obtain ⟨wide, hwide, -⟩ := document?_eq_some_iff.1 hdoc
  rw [h] at hwide
  cases hwide

/-- What a path leads to stands at the place that the path names. -/
theorem IsUnpaired.isUnpairedAt {path : String} (h : d.IsUnpaired path) :
    d.IsUnpairedAt (d.placeOf path) := by
  obtain ⟨doc, hdoc, hunpaired⟩ := h
  obtain ⟨bytes, hbytes, hpoints⟩ := Option.bind_eq_some_iff.1 hdoc
  have hread : d.read path = .ok bytes := by
    cases hr : d.read path with
    | error e => simp [hr, Except.toOption] at hbytes
    | ok b => simpa [hr, Except.toOption] using hbytes
  exact ⟨doc, by rwa [(read_eq_ok_iff.1 hread).2], hunpaired⟩

theorem document?_of_isUnpaired {path : String} (h : d.IsUnpaired path) :
    d.document? path = none := by
  obtain ⟨wide, hwide, hunpaired⟩ := h
  refine Option.eq_none_iff_forall_ne_some.2 fun doc hdoc => ?_
  obtain ⟨wide', hwide', hpaired, -⟩ := document?_eq_some_iff.1 hdoc
  rw [hwide, Option.some.injEq] at hwide'
  rw [← hwide', hunpaired] at hpaired
  cases hpaired

theorem storable_ofBytes? {bytes : ByteArray} {doc : Document}
    (h : Document.ofBytes? bytes = some doc) : doc.Storable := by
  obtain ⟨wide, hwide, -, rfl⟩ := ofBytes?_eq_some_iff.1 h
  exact (storable_pointsOfBytes? hwide).legible

/-- The bytes of a text that is read as a document hold it. -/
theorem ofBytes?_of_parse {bytes : ByteArray} {s : String} {doc : Document}
    (hread : Text.readText bytes = .ok s) (hparse : Json.parse s = .ok doc) :
    Document.ofBytes? bytes = some doc := by
  rw [Document.ofBytes?, Document.pointsOfBytes?, hread]
  obtain ⟨wide, hwide, hstrings⟩ := Json.parse_eq_ok_iff.1 hparse
  simp [hwide, hstrings, Except.toOption]

/-- The bytes of a written document hold it. -/
theorem ofBytes?_localeText {doc : Document} (h : doc.Storable) :
    Document.ofBytes? (Project.localeText doc).toUTF8 = some doc :=
  ofBytes?_of_parse (Json.readText_localeText h) (Json.parse_localeText h)

theorem storable_documentAt? {place : List String} {doc : Document}
    (h : d.documentAt? place = some doc) : doc.Storable := by
  obtain ⟨bytes, -, hbytes⟩ := Option.bind_eq_some_iff.1 h
  exact storable_ofBytes? hbytes

theorem storable_document? {path : String} {doc : Document} (h : d.document? path = some doc) :
    doc.Storable := by
  obtain ⟨bytes, -, hbytes⟩ := exists_read_of_document? h
  exact storable_ofBytes? hbytes

theorem points?_of_not_isThere {path : String} (h : d.isThere path = false) :
    d.points? path = none := by
  cases hread : d.read path with
  | error e =>
    rw [points?, hread]
    rfl
  | ok bytes =>
    rw [isThere_of_read hread] at h
    cases h

theorem isThere_of_document? {path : String} {doc : Document} (h : d.document? path = some doc) :
    d.isThere path = true := by
  obtain ⟨bytes, hread, -⟩ := exists_read_of_document? h
  exact isThere_of_read hread

theorem storable_localeDocument (d : Disk) (path : String) :
    (d.localeDocument path).Storable := by
  unfold localeDocument
  cases h : d.document? path with
  | none => exact Document.storable_map_iff.2 (by simp)
  | some doc => exact storable_document? h

/-- What was written as a document stands at the place and is read at the path. -/
theorem documentAt?_write {path : String} {doc : Document} (hdoc : doc.Storable)
    (h : d.write path (Project.localeText doc).toUTF8 = .ok d') :
    d'.documentAt? (d.placeOf path) = some doc := by
  rw [documentAt?, fileAt?_write h]
  exact ofBytes?_localeText hdoc

theorem document?_write {path : String} {doc : Document} (hdoc : doc.Storable)
    (h : d.write path (Project.localeText doc).toUTF8 = .ok d') :
    d'.document? path = some doc := by
  rw [document?_of_read (read_write h)]
  exact ofBytes?_localeText hdoc

theorem Keeps.documentAt? (h : d.Keeps S d') {place : List String} (hS : S place) :
    d'.documentAt? place = d.documentAt? place := by
  rw [Disk.documentAt?, Disk.documentAt?, h.file place hS]

theorem Keeps.isUnpairedAt (h : d.Keeps S d') {place : List String} (hS : S place) :
    d'.IsUnpairedAt place ↔ d.IsUnpairedAt place := by
  rw [IsUnpairedAt, IsUnpairedAt, h.file place hS]

/-- A document that could be read and is kept can be read again. -/
theorem Keeps.document? (h : d.Keeps S d') {path : String} {doc : Document}
    (hS : S (d.placeOf path)) (hdoc : d.document? path = some doc) :
    d'.document? path = some doc := by
  obtain ⟨bytes, hread, hbytes⟩ := exists_read_of_document? hdoc
  rw [document?_of_read (h.read hS hread), hbytes]

/-- Where the disk can follow a path, what a locale file counts as is decided by the file at its
place. -/
theorem Keeps.localeDocument (h : d.Keeps S d') {path : String} {place : List String}
    (hS : S (d.placeOf path)) (hlocate : d.locate path = .ok place) :
    d'.localeDocument path = d.localeDocument path := by
  cases hdoc : d.document? path with
  | some doc =>
    rw [Disk.localeDocument, Disk.localeDocument, hdoc, h.document? hS hdoc]
  | none =>
    cases hdoc' : d'.document? path with
    | none => rw [Disk.localeDocument, Disk.localeDocument, hdoc, hdoc']
    | some doc =>
      -- The file was there before, and it could be read.
      obtain ⟨bytes, hread, hbytes⟩ := exists_read_of_document? hdoc'
      have hfile := (read_eq_ok_iff.1 hread).2
      rw [h.placeOf, h.file _ hS] at hfile
      have hbefore := read_eq_ok_iff.2 ⟨locate_eq_ok hlocate ▸ hlocate, hfile⟩
      rw [document?_of_read hbefore, hbytes] at hdoc
      cases hdoc

/-! ## Written documents -/

/-- The file that a path leads to has the text of a document. -/
structure Shows (d : Disk) (path : String) (doc : Document) : Prop where
  storable : doc.Storable
  read : d.read path = .ok (Project.localeText doc).toUTF8

theorem Shows.document? {path : String} {doc : Document} (h : d.Shows path doc) :
    d.document? path = some doc := by
  rw [document?_of_read h.read]
  exact ofBytes?_localeText h.storable

theorem Shows.localeDocument {path : String} {doc : Document} (h : d.Shows path doc) :
    d.localeDocument path = doc := by
  rw [Disk.localeDocument, h.document?]
  rfl

theorem Keeps.shows (h : d.Keeps S d') {path : String} {doc : Document} (hS : S (d.placeOf path))
    (hshows : d.Shows path doc) : d'.Shows path doc :=
  ⟨hshows.storable, h.read hS hshows.read⟩

theorem Shows.fileAt? {path : String} {doc : Document} (h : d.Shows path doc) :
    d.fileAt? (d.placeOf path) = some (Project.localeText doc).toUTF8 :=
  (read_eq_ok_iff.1 h.read).2

/-- In a written document no surrogate stands alone. -/
theorem Shows.not_isUnpairedAt {path : String} {doc : Document} (h : d.Shows path doc) :
    ¬ d.IsUnpairedAt (d.placeOf path) := by
  rintro ⟨wide, hwide, hunpaired⟩
  rw [h.fileAt?, Option.bind_some] at hwide
  obtain ⟨wide', hwide', hpaired, -⟩ := ofBytes?_eq_some_iff.1 (ofBytes?_localeText h.storable)
  rw [hwide, Option.some.injEq] at hwide'
  rw [← hwide', hunpaired] at hpaired
  cases hpaired

theorem Shows.locate {path : String} {doc : Document} (h : d.Shows path doc) :
    d.locate path = .ok (d.placeOf path) :=
  (read_eq_ok_iff.1 h.read).1

theorem shows_write {path : String} {doc : Document} (hdoc : doc.Storable)
    (h : d.write path (Project.localeText doc).toUTF8 = .ok d') : d'.Shows path doc :=
  ⟨hdoc, read_write h⟩

end Disk

namespace Project

open Operation

variable {P E : World → Prop}

theorem meets_readBytes (path : String) :
    Meets P (readBytes path) (fun bytes w => P w ∧ w.disk.read path = .ok bytes)
      (fun w => P w ∧ ∀ bytes, w.disk.read path ≠ .ok bytes) := by
  refine .bind (.disk (R := fun d w => P w ∧ w.disk = d) fun w hw => ⟨hw, rfl⟩) fun d => ?_
  refine .ofDisk ?_ ?_
  · rintro bytes w ⟨hw, rfl⟩ hread
    exact ⟨hw, hread⟩
  · rintro e w ⟨hw, rfl⟩ hread
    refine ⟨hw, fun bytes => ?_⟩
    rw [hread]
    intro h
    cases h

/-- Reading a file as JSON yields its document, and fails when it has none. -/
theorem meets_readPoints (path : String) :
    Meets P (readPoints path) (fun doc w => P w ∧ w.disk.points? path = some doc)
      (fun w => P w ∧ w.disk.points? path = none) := by
  -- a file that cannot be read has no document
  have hnone : ∀ w : World, (∀ bytes, w.disk.read path ≠ .ok bytes) →
      w.disk.points? path = none := by
    intro w hread
    cases hfile : w.disk.read path with
    | ok bytes => exact absurd hfile (hread bytes)
    | error e =>
      rw [Disk.points?, hfile]
      rfl
  refine .bind (Q := fun s w => P w ∧ ∃ bytes, w.disk.read path = .ok bytes ∧
    Text.readText bytes = .ok s) ?_ fun s => ?_
  · refine .bind ((meets_readBytes path).mono (fun _ hw => hw) (fun _ _ hw => hw)
      fun w hw => ⟨hw.1, hnone w hw.2⟩) fun bytes => ?_
    split
    · next s hs => exact .pure s fun w hw => ⟨hw.1, bytes, hw.2, hs⟩
    · next e he =>
      refine .throw _ fun w hw => ⟨hw.1, ?_⟩
      rw [Disk.points?_of_read hw.2, Document.pointsOfBytes?, he]
  · split
    · next doc hdoc =>
      refine .pure doc fun w hw => ⟨hw.1, ?_⟩
      obtain ⟨-, bytes, hread, hs⟩ := hw
      rw [Disk.points?_of_read hread, Document.pointsOfBytes?, hs]
      simp [hdoc, Except.toOption]
    · next e he =>
      refine .throw _ fun w hw => ⟨hw.1, ?_⟩
      obtain ⟨-, bytes, hread, hs⟩ := hw
      rw [Disk.points?_of_read hread, Document.pointsOfBytes?, hs]
      simp [he, Except.toOption]

/-- A document of code points is one of strings, or a surrogate stands alone in it. -/
theorem ends_strings {wide : Document Text.Points} {R : Document → World → Prop}
    {F : Failure → World → Prop} (hR : ∀ w, P w → wide.isPaired = true → R wide.legible w)
    (hF : ∀ w, P w → wide.isPaired = false → F (.json .unpaired) w) :
    Ends P (strings wide) R F := by
  unfold strings Json.asStrings
  cases hpaired : wide.isPaired with
  | true => exact .pure _ fun w hw => hR w hw hpaired
  | false => exact .throw _ fun w hw => hF w hw hpaired

/-- Reading a file as a document of strings yields it, and fails where the file has none. -/
theorem meets_readJson (path : String) :
    Meets P (readJson path) (fun doc w => P w ∧ w.disk.document? path = some doc)
      (fun w => P w ∧ w.disk.document? path = none) := by
  refine .bind ((meets_readPoints path).mono (fun _ hw => hw) (fun _ _ hw => hw)
    fun w hw => ⟨hw.1, Disk.document?_of_points? hw.2⟩) fun wide => ends_strings ?_ ?_
  · rintro w ⟨hw, hwide⟩ hpaired
    exact ⟨hw, Disk.document?_eq_some_iff.2 ⟨wide, hwide, hpaired, rfl⟩⟩
  · rintro w ⟨hw, hwide⟩ hpaired
    exact ⟨hw, Disk.document?_of_isUnpaired ⟨wide, hwide, hpaired⟩⟩

/-- An attempt to read a file as JSON changes nothing and yields its document, if it has one. -/
theorem exists_runIn_attempt_readPoints (path : String) (w : World) :
    ∃ result, (attempt (readPoints path)).runIn w = (.ok result, w) ∧
      w.disk.points? path = result.toOption := by
  have hmeets := (meets_readPoints (P := (· = w)) path).outcome w rfl
  rcases hrun : (readPoints path).runIn w with ⟨result, w₁⟩
  rw [hrun] at hmeets
  cases result with
  | ok doc =>
    obtain ⟨rfl, hdoc⟩ := hmeets
    exact ⟨.ok doc, runIn_attempt hrun, hdoc⟩
  | error e =>
    obtain ⟨rfl, hnone⟩ := hmeets
    exact ⟨.error e, runIn_attempt hrun, hnone⟩

/-- A property of worlds that no record touches. -/
def LogStable (P : World → Prop) : Prop :=
  ∀ w r, P w → P (w.logged r)

theorem LogStable.logMessage {F : Failure → World → Prop} (h : LogStable P) (level : Level)
    (message : String) : Ends P (logMessage level message) (fun _ => P) F :=
  .modify fun w hw => h w _ hw

theorem LogStable.logTimes (h : LogStable P) (level : Level) (message : String) (n : Nat) :
    Meets P (logTimes level message n) (fun _ => P) E := by
  induction n with
  | zero => exact .pure _ fun _ hw => hw
  | succ n ih => exact .bind (h.logMessage level message) fun _ => ih

/-- Reading a locale file yields the document that it counts as, and leaves at most a record. It
fails where a surrogate stands alone in the file. -/
theorem ends_readLocale {R : Document → World → Prop} {F : Failure → World → Prop} {path : String}
    (hR : ∀ w, P w → R (w.disk.localeDocument path) w) (hlog : ∀ doc, LogStable (R doc))
    (hF : ∀ w, P w → w.disk.IsUnpaired path → F (.json .unpaired) w) :
    Ends P (readLocale path) R F := by
  have hread : Meets P (readPoints path) (fun wide w => P w ∧ w.disk.points? path = some wide)
      (fun w => R (.map []) w) := by
    refine (meets_readPoints path).mono (fun _ hw => hw) (fun _ _ hw => hw) ?_
    rintro w ⟨hw, hnone⟩
    simpa [Disk.localeDocument, Disk.document?_of_points? hnone] using hR w hw
  refine .bind (.attempt (R := fun r w => match r with
    | .ok wide => P w ∧ w.disk.points? path = some wide
    | .error _ => R (.map []) w) hread) fun r => ?_
  cases r with
  | ok wide =>
    refine ends_strings ?_ ?_
    · rintro w ⟨hw, hwide⟩ hpaired
      have hdoc : w.disk.document? path = some wide.legible :=
        Disk.document?_eq_some_iff.2 ⟨wide, hwide, hpaired, rfl⟩
      simpa [Disk.localeDocument, hdoc] using hR w hw
    · rintro w ⟨hw, hwide⟩ hpaired
      exact hF w hw ⟨wide, hwide, hpaired⟩
  | error e =>
    have hlogged : ∀ message, Ends (R (.map []))
        (do
          logMessage .debug message
          return Document.map []) R F := fun message =>
      .bind ((hlog (.map [])).logMessage .debug message) fun _ => .pure _ fun _ hw => hw
    -- the refusals differ in their message, and after each the file counts as empty
    cases e with
    | disk refusal =>
      obtain ⟨cause, refused⟩ := refusal
      cases cause <;> exact hlogged _
    | _ => exact hlogged _

/-! ## Writing -/

/-- Writing a locale file makes directories and then writes the text of the document. It does not
fail if the file can be written. -/
theorem meets_writeLocale {R : Unit → World → Prop} {path : String} {doc : Document}
    (hdir : ∀ w d, P w → Path.directory path ≠ "" →
      w.disk.makeDirectories (Path.directory path) = .ok d → P { w with disk := d })
    (hR : ∀ w d, P w → w.disk.write path (localeText doc).toUTF8 = .ok d →
      R () { w with disk := d })
    (hE : ∀ w, P w → E w ∨ w.disk.isWritable path = true) :
    Meets P (writeLocale path doc) R E := by
  have hwrite : Meets P (writeText path (localeText doc)) R E := by
    refine .changeDisk (fun w d hw hwritten => hR w d hw hwritten) fun w e hw hrefused => ?_
    rcases hE w hw with h | hwritable
    · exact h
    · obtain ⟨d, hd⟩ := Disk.exists_write hwritable (localeText doc).toUTF8
      rw [hd] at hrefused
      cases hrefused
  -- the directories of a file that can be written are there, so making them is not refused
  by_cases hdirectory : Path.directory path = ""
  · simpa only [writeLocale, hdirectory, ne_eq, not_true_eq_false, if_false] using hwrite
  · simp only [writeLocale, ne_eq, hdirectory, not_false_eq_true, if_true]
    have hmake : Meets P (makeDirectories (Path.directory path)) (fun _ => P) E := by
      refine .changeDisk (fun w d hw => hdir w d hw hdirectory) fun w e hw hrefused => ?_
      rcases hE w hw with h | hwritable
      · exact h
      · have hlocate := (Disk.isWritable_iff.1 hwritable).1
        rw [Disk.makeDirectories_of_locate hlocate hdirectory] at hrefused
        cases hrefused
    exact hmake.bind fun _ => hwrite

/-- Writing what a locale file holds changes nothing and does not fail. -/
theorem meets_writeLocale_again {path : String} {doc : Document}
    (hread : ∀ w, P w → w.disk.read path = .ok (localeText doc).toUTF8) :
    Meets P (writeLocale path doc) (fun _ => P) E := by
  refine meets_writeLocale (fun w d hw hdirectory hmade => ?_) (fun w d hw hwritten => ?_)
    fun w hw => Or.inr (Disk.isWritable_of_read (hread w hw))
  · rw [Disk.makeDirectories_of_read (hread w hw) hdirectory] at hmade
    cases hmade
    exact hw
  · rw [Disk.write_same (hread w hw)] at hwritten
    cases hwritten
    exact hw

end Project

end ThemeLocales
