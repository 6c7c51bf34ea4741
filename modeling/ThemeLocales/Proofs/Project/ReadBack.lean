import ThemeLocales.Proofs.Project.History
import ThemeLocales.Proofs.Project.LocaleFile

/-!
# Reading back what was written

A locale file that was written yields its document, with its keys in their order, and nothing
happens beside the reading: not even a record that the file counts as empty. The document that was
read is written with the same bytes again, to the same path or to any other.

`readLocale_writeLocale` states this for every document that a file can hold: texts and keys of any
characters, containers of any depth, integers that are short enough to be read, and all doubles.
-/

set_option autoImplicit false

namespace ThemeLocales.Project

open Operation

variable {w w₁ : World} {path : String} {d : Document}

/-- A file that holds a document of code points is read without a trace. -/
theorem runIn_readPoints {wide : Document Text.Points} (h : w.disk.points? path = some wide) :
    (readPoints path).runIn w = (.ok wide, w) := by
  have hmeets := (meets_readPoints (P := (· = w)) path).outcome w rfl
  rcases hrun : (readPoints path).runIn w with ⟨result, w₁⟩
  rw [hrun] at hmeets
  cases result with
  | ok doc =>
    obtain ⟨rfl, hdoc⟩ := hmeets
    rw [h, Option.some.injEq] at hdoc
    rw [hdoc]
  | error e =>
    obtain ⟨rfl, hnone⟩ := hmeets
    rw [h] at hnone
    cases hnone

theorem runIn_strings {wide : Document Text.Points} (h : wide.isPaired = true) :
    (strings wide).runIn w = (.ok wide.legible, w) := by
  simp only [strings, Json.asStrings_eq_ok_iff.2 ⟨h, rfl⟩]
  rfl

/-- A locale file that holds a document is read as it. -/
theorem runIn_readLocale (h : w.disk.document? path = some d) :
    (readLocale path).runIn w = (.ok d, w) := by
  obtain ⟨wide, hwide, hpaired, rfl⟩ := Disk.document?_eq_some_iff.1 h
  rw [readLocale, runIn_bind_of_ok (runIn_attempt (runIn_readPoints hwide))]
  exact runIn_strings hpaired

/-- What a locale file was written with is what it holds. -/
theorem shows_of_writeLocale (hd : d.Storable)
    (hwrite : (writeLocale path d).runIn w = (.ok (), w₁)) : w₁.disk.Shows path d := by
  have hmeets : Meets (fun _ => True) (writeLocale path d) (fun _ w => w.disk.Shows path d)
      fun _ => True :=
    meets_writeLocale (fun _ _ _ _ _ => trivial)
      (fun _ _ _ hwritten => Disk.shows_write hd hwritten) fun _ _ => .inl trivial
  exact hmeets.of_ok trivial hwrite

/-- Writing what a locale file holds already succeeds and changes nothing. -/
theorem runIn_writeLocale_of_shows (h : w.disk.Shows path d) :
    (writeLocale path d).runIn w = (.ok (), w) := by
  have hagain : Meets (· = w) (writeLocale path d) (fun _ => (· = w)) fun _ => False :=
    meets_writeLocale_again fun v hv => hv ▸ h.read
  obtain ⟨_, w', hrun, rfl⟩ := hagain.exists_ok rfl
  exact hrun

/-- Reading a locale file that was written gives the document back and does nothing else. Writing
what was read succeeds and changes nothing, and any other file written with it has the same
bytes. -/
theorem readLocale_writeLocale (hd : d.Storable)
    (hwrite : (writeLocale path d).runIn w = (.ok (), w₁)) :
    (readLocale path).runIn w₁ = (.ok d, w₁) ∧
    w₁.disk.read path = .ok (localeText d).toUTF8 ∧
    (do writeLocale path (← readLocale path)).runIn w₁ = (.ok (), w₁) ∧
    ∀ other w₂, (do writeLocale other (← readLocale path)).runIn w₁ = (.ok (), w₂) →
      w₂.disk.read other = w₁.disk.read path := by
  have hshows := shows_of_writeLocale hd hwrite
  have hread : (readLocale path).runIn w₁ = (.ok d, w₁) := runIn_readLocale hshows.document?
  refine ⟨hread, hshows.read, ?_, ?_⟩
  · -- The file holds the document already, so writing it once more changes nothing.
    rw [runIn_bind_of_ok hread]
    exact runIn_writeLocale_of_shows hshows
  · intro other w₂ hother
    rw [runIn_bind_of_ok hread] at hother
    rw [(shows_of_writeLocale hd hother).read, hshows.read]

/-! ## An intricate document -/

/-- A document with texts that need an escape or several bytes, long and signed numbers, the special
doubles and containers of each kind, empty ones among them. -/
def intricateDocument : Document :=
  .map [("quote\" slash\\ \x7f", .string "line\nend\r\x00\u2028"),
    ("😀", .list [.int (-123456789012345678901234567890), .null, .bool false,
      .real .nan, .real (.infinity true), .real (.finite true 0 (-1074)), .real .half]),
    ("", .map []),
    ("nested", .map [("list", .list [.list [], .map [("b", .int 0), ("a", .string "")]])])]

/-- The small project with the intricate document in its main file. -/
def intricateWorld : World :=
  ((writeLocale "l/en.json" intricateDocument).runIn smallWorld).2

/-- The intricate document is found again in the directory that was made for it. -/
theorem readLocale_writeLocale_intricate : intricateDocument.Storable ∧
    (readLocale "l/en.json").runIn intricateWorld = (.ok intricateDocument, intricateWorld) ∧
    intricateWorld.disk.read "l/en.json" = .ok (localeText intricateDocument).toUTF8 ∧
    (do writeLocale "l/en.json" (← readLocale "l/en.json")).runIn intricateWorld =
      (.ok (), intricateWorld) ∧
    ∀ other w₂,
      (do writeLocale other (← readLocale "l/en.json")).runIn intricateWorld = (.ok (), w₂) →
        w₂.disk.read other = intricateWorld.disk.read "l/en.json" := by
  have hstorable : intricateDocument.Storable := by
    have hhalf : Binary64.half.Canonical := Binary64.canonical_ofRatio (by decide)
    have hzero : (Binary64.finite true 0 (-1074)).Canonical := by
      simp [Binary64.Canonical, Binary64.leastExponent, Binary64.greatestExponent]
    have hlong : Binary64.digitCount 123456789012345678901234567890 ≤ Number.longestInteger := by
      decide +kernel
    have hshort : Binary64.digitCount 0 ≤ Number.longestInteger := by decide
    simp [intricateDocument, Document.storable_map_iff, Document.storable_list_iff,
      Document.storable_int_iff, Document.storable_real_iff, hhalf, hzero, hlong, hshort]
    exact ⟨trivial, trivial⟩
  have hwrite : (writeLocale "l/en.json" intricateDocument).runIn smallWorld =
      (.ok (), intricateWorld) := by rfl
  exact ⟨hstorable, readLocale_writeLocale hstorable hwrite⟩

end ThemeLocales.Project
