import ThemeLocales.Proofs.Failure
import ThemeLocales.Proofs.Project.ReadBack

/-!
# Languages that cannot be told

Reading the languages of a settings schema goes through a value of any shape. Where the value is a
number or a truth value, or has an entry whose code is no text, that fails with a value of the wrong
type, which nobody expects (`declaredLanguages_eq_error_iff`). Everything else that it fails with is
a file that cannot be read (`ends_extractLanguages`).
-/

set_option autoImplicit false

namespace ThemeLocales.Project

open Operation Text

variable {path : String}

/-! ## Languages of a value -/

/-- The code of a language is a text, and nothing else is one. -/
theorem codeText_cases (code : Document Points) :
    (∃ s, code = .string s ∧ codeText code = .ok s) ∨
      (∀ s, code ≠ .string s) ∧ codeText code = .error .wrongType := by
  cases code with
  | string s => exact .inl ⟨s, rfl, rfl⟩
  | _ => exact .inr ⟨nofun, rfl⟩

theorem mapM_codeText_eq_error_iff {codes : List (Document Points)} {e : Failure} :
    codes.mapM codeText = .error e ↔
      e = .wrongType ∧ ∃ code ∈ codes, ∀ s, code ≠ .string s := by
  induction codes with
  | nil =>
    constructor
    · intro h
      cases h
    · rintro ⟨-, code, hcode, -⟩
      cases hcode
  | cons code rest ih =>
    rw [List.mapM_cons]
    rcases codeText_cases code with ⟨s, rfl, hcode⟩ | ⟨hother, hcode⟩
    · -- The first code is a text, so it is one of the others that is none.
      have hrest : (∃ code ∈ rest, ∀ s, code ≠ .string s) ↔
          ∃ code ∈ .string s :: rest, ∀ s, code ≠ .string s := by
        simp
      rw [hcode, ← hrest, ← ih]
      cases rest.mapM codeText with
      | error e' => exact Iff.rfl
      | ok texts =>
        constructor
        · intro h
          cases h
        · intro h
          cases h
    · rw [hcode]
      constructor
      · intro h
        cases h
        exact ⟨rfl, code, List.mem_cons_self, hother⟩
      · rintro ⟨rfl, -⟩
        rfl

/-- The value in which a settings schema declares its languages. -/
def languagesValue (schema : Document Points) : Document Points :=
  ((themeInfo schema).valueAt? "theme_languages").getD .null

/-- A value from which languages cannot be told: a number or a truth value, or a list with an entry
whose code is no text. Nothing is told from what is not present. -/
def Untellable (value : Document Points) : Prop :=
  (value.legible.isPresent = true ∧ value.kind = .scalar ∧ ∀ s, value ≠ .string s) ∨
    ∃ entries, value = .list entries ∧ ∃ entry ∈ entries, ∃ code,
      entry.valueAt? "value" = some code ∧ code.legible.isPresent = true ∧ ∀ s, code ≠ .string s

/-- What is no list has no entries, and languages cannot be told from just the scalars that are
present and no texts. -/
theorem untellable_iff_of_ne_list {value : Document Points} (h : ∀ ds, value ≠ .list ds) :
    Untellable value ↔
      value.legible.isPresent = true ∧ value.kind = .scalar ∧ ∀ s, value ≠ .string s := by
  simp [Untellable, h]

theorem mem_entryCodes {entries : List (Document Points)} {code : Document Points} :
    code ∈ entryCodes entries ↔
      ∃ entry ∈ entries, entry.valueAt? "value" = some code ∧ code.legible.isPresent = true := by
  simp only [entryCodes, List.mem_filterMap, Option.filter_eq_some_iff]

/-- A text has no code. -/
theorem entryCodes_eq_nil {entries : List (Document Points)}
    (h : ∀ d ∈ entries, ∃ s, d = .string s) : entryCodes entries = [] := by
  apply List.eq_nil_iff_forall_not_mem.2
  intro code hcode
  obtain ⟨entry, hentry, hvalue, -⟩ := mem_entryCodes.1 hcode
  obtain ⟨s, rfl⟩ := h entry hentry
  cases hvalue

/-- The languages that a value declares. -/
def languagesIn (value : Document Points) : Except Failure (List Points) := do
  let entries ← languageEntries value
  (entryCodes entries).mapM codeText

/-- Where all entries are texts, languages can be told, and there are none. -/
theorem languagesIn_of_texts {value : Document Points} {entries : List (Document Points)}
    (hentries : languageEntries value = .ok entries) (h : ∀ d ∈ entries, ∃ s, d = .string s) :
    languagesIn value = .ok [] := by
  rw [languagesIn, hentries]
  change (entryCodes entries).mapM codeText = .ok []
  rw [entryCodes_eq_nil h]
  rfl

theorem languagesIn_map (es : List (Points × Document Points)) :
    languagesIn (.map es) = .ok [] := by
  apply languagesIn_of_texts rfl
  intro d hd
  obtain ⟨entry, -, rfl⟩ := List.mem_map.1 hd
  exact ⟨entry.1, rfl⟩

theorem languagesIn_string (s : Points) : languagesIn (.string s) = .ok [] := by
  apply languagesIn_of_texts rfl
  intro d hd
  obtain ⟨n, -, rfl⟩ := List.mem_map.1 hd
  exact ⟨[n], rfl⟩

theorem languagesIn_list (ds : List (Document Points)) :
    languagesIn (.list ds) = (entryCodes ds).mapM codeText := rfl

/-- A number or a truth value has nothing to go through. -/
theorem languagesIn_scalar {value : Document Points} (hkind : value.kind = .scalar)
    (hother : ∀ s, value ≠ .string s) :
    languagesIn value = if value.legible.isPresent then .error .wrongType else .ok [] := by
  have hentries : languageEntries value =
      if value.legible.isPresent then .error .wrongType else .ok [] := by
    cases value with
    | list => cases hkind
    | map => cases hkind
    | string s => exact absurd rfl (hother s)
    | _ => rfl
  rw [languagesIn, hentries]
  split <;> rfl

/-- Languages cannot be told from just these values. -/
theorem languagesIn_eq_error_iff {value : Document Points} {e : Failure} :
    languagesIn value = .error e ↔ e = .wrongType ∧ Untellable value := by
  have hnone : (Except.ok [] : Except Failure (List Points)) ≠ .error e := by
    intro h
    cases h
  cases value with
  | list ds =>
    rw [languagesIn_list, mapM_codeText_eq_error_iff]
    refine and_congr_right fun _ => ?_
    constructor
    · rintro ⟨code, hcode, hother⟩
      obtain ⟨entry, hentry, hget, hpresent⟩ := mem_entryCodes.1 hcode
      exact .inr ⟨ds, rfl, entry, hentry, code, hget, hpresent, hother⟩
    · rintro (⟨-, hkind, -⟩ | ⟨_, ⟨rfl⟩, entry, hentry, code, hget, hpresent, hother⟩)
      · cases hkind
      · exact ⟨code, mem_entryCodes.2 ⟨entry, hentry, hget, hpresent⟩, hother⟩
  | map es =>
    rw [languagesIn_map, untellable_iff_of_ne_list fun _ h => by cases h]
    refine iff_of_false hnone ?_
    rintro ⟨-, -, hkind, -⟩
    cases hkind
  | string s =>
    rw [languagesIn_string, untellable_iff_of_ne_list fun _ h => by cases h]
    refine iff_of_false hnone ?_
    rintro ⟨-, -, -, hother⟩
    exact hother s rfl
  | _ =>
    -- null, truth values and numbers, of which only those that are present are gone through
    rw [languagesIn_scalar rfl fun s h => by cases h]
    rw [untellable_iff_of_ne_list fun _ h => by cases h]
    split
    · next hpresent =>
      constructor
      · intro h
        cases h
        exact ⟨rfl, hpresent, rfl, fun s h => by cases h⟩
      · rintro ⟨rfl, -⟩
        rfl
    · next habsent => exact iff_of_false hnone fun h => habsent h.2.1

/-- The languages of a schema cannot be told where they cannot be told from its value. -/
theorem declaredLanguages_eq_error_iff {schema : Document Points} {e : Failure} :
    declaredLanguages schema = .error e ↔ e = .wrongType ∧ Untellable (languagesValue schema) :=
  languagesIn_eq_error_iff

/-! ## Languages of a file -/

theorem failsUnreadable_readPoints (path : String) : FailsUnreadable (readPoints path) := by
  refine .bind (failsUnreadable_readText path) fun text => ?_
  split
  · exact .pure _
  · exact .throw rfl

theorem failsUnreadable_strings (d : Document Points) : FailsUnreadable (strings d) := by
  unfold strings
  split
  · exact .pure _
  · exact .throw rfl

theorem failsUnreadable_readJson (path : String) : FailsUnreadable (readJson path) :=
  .bind (failsUnreadable_readPoints path) failsUnreadable_strings

/-- The settings schema at a path declares its languages in a value from which they cannot be
told. -/
def Untold (d : Disk) (path : String) : Prop :=
  ∃ schema, d.points? path = some schema ∧ Untellable (languagesValue schema)

/-- The languages of a schema are told, cannot be told, or have a surrogate that stands
alone. -/
theorem schemaLanguages_cases (schema : Document Points) :
    (∃ languages, schemaLanguages schema = .ok languages) ∨
      (schemaLanguages schema = .error .wrongType ∧ Untellable (languagesValue schema)) ∨
      schemaLanguages schema = .error (.json .unpaired) := by
  rw [schemaLanguages]
  cases hlanguages : declaredLanguages schema with
  | error e =>
    obtain ⟨rfl, huntellable⟩ := declaredLanguages_eq_error_iff.1 hlanguages
    exact .inr (.inl ⟨rfl, huntellable⟩)
  | ok languages =>
    by_cases hpaired : languages.all isPaired = true
    · exact .inl ⟨languages.map ofPoints, if_pos hpaired⟩
    · exact .inr (.inr (if_neg hpaired))

/-- Reading the declared languages fails with a file that cannot be read, or with languages that
cannot be told. -/
theorem ends_extractLanguages (w : World) (path : String) :
    Ends (· = w) (extractLanguages path) (fun _ _ => True)
      fun e _ => e.isUnreadable = true ∨ (e = .wrongType ∧ Untold w.disk path) := by
  have hthere : Meets (· = w) (isThere path) (fun _ => (· = w)) fun _ => False :=
    .isThere fun _ hw => hw
  refine .bind hthere.succeeds fun there => ?_
  cases there with
  | false => exact FailsOnly.ends (.bind (.logMessage _ _) fun _ => .pure _)
  | true =>
    have hread := (meets_readPoints (P := (· = w)) path).and
      (FailsOnly.ends (P := (· = w)) (failsUnreadable_readPoints path))
    refine .bind (hread.mono (fun _ hw => ⟨hw, hw⟩) (fun _ _ hw => hw.1)
      fun e _ he => .inl he.2) fun schema => ?_
    -- the file can be read, and whether the run goes on is a matter of what it holds
    rcases schemaLanguages_cases schema with ⟨languages, hlanguages⟩ | ⟨hlanguages, huntellable⟩ |
      hlanguages
    · rw [hlanguages]
      refine FailsOnly.ends (.bind (.pure languages) fun found => ?_)
      cases found with
      | nil => exact .bind (.logMessage _ _) fun _ => .pure _
      | cons language rest => exact .bind (.logMessage _ _) fun _ => .pure _
    · rw [hlanguages]
      refine .bind (Q := fun _ _ => False) (.throw _ ?_) fun _ => ⟨fun _ hw => hw.elim⟩
      rintro w ⟨rfl, hschema⟩
      exact .inr ⟨rfl, schema, hschema, huntellable⟩
    · rw [hlanguages]
      refine .bind (Q := fun _ _ => False) (.throw _ ?_) fun _ => ⟨fun _ hw => hw.elim⟩
      exact fun _ _ => .inl rfl

/-- Where languages cannot be told, reading them fails. -/
theorem runIn_extractLanguages_of_untold {w : World} (h : Untold w.disk path) :
    ((extractLanguages path).runIn w).1 = .error .wrongType := by
  obtain ⟨schema, hschema, huntellable⟩ := h
  have hlanguages : schemaLanguages schema = .error .wrongType := by
    rw [schemaLanguages, declaredLanguages_eq_error_iff.2 ⟨rfl, huntellable⟩]
    rfl
  obtain ⟨bytes, hread, -⟩ := Disk.exists_read_of_points? hschema
  have hthere : (isThere path).runIn w = (.ok true, w) := by
    rw [← Disk.isThere_of_read hread]
    rfl
  rw [extractLanguages, runIn_bind_of_ok hthere]
  simp only [Bool.not_true, Bool.false_eq_true, if_false]
  rw [runIn_bind_of_ok (runIn_readPoints hschema), runIn_ofResult_bind_error hlanguages]

end ThemeLocales.Project
