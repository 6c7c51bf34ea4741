import ThemeLocales.Proofs.Provider.Attempts

/-!
# Which answers can be read

Those who call a provider can expect a translation that is a text, or an error that says that there
is none. A verdict that leads there is sound. It depends on the outcome of a request alone whether
the verdict on it is sound: an answer that is a JSON document has to report an error, or to have
results of the shape that the service gives them (`isSound_verdict_iff`). Results of any other shape
lead to a translation that is no text, or to a failure that says nothing about translations.
-/

set_option autoImplicit false

namespace ThemeLocales.Provider

/-! ## Sound verdicts -/

namespace Verdict

/-- The text that a verdict has as the translation. -/
def text? : Verdict → Option String
  | .translated (.string s) => some s
  | _ => none

/-- Whether there is a translation that is a text after a verdict, or an error that says that there
is none. -/
def isSound : Verdict → Bool
  | .translated (.string s) => s ≠ ""
  | .translated _ => false
  | .failed (.translation _) => true
  | .failed _ => false
  | _ => true

theorem eq_translated_of_text? {v : Verdict} {s : String} (h : v.text? = some s) :
    v = .translated (.string s) := by
  unfold text? at h
  split at h
  · rw [Option.some.inj h]
  · cases h

theorem isSound_translated_iff {d : Document} :
    (translated d).isSound = true ↔ ∃ s, s ≠ "" ∧ d = .string s := by
  cases d <;> simp [isSound]

theorem isSound_failed_iff {e : Failure} :
    (failed e).isSound = true ↔ ∃ message, e = .translation message := by
  cases e <;> simp [isSound]

end Verdict

namespace Baidu

/-! ## Readable answers -/

/-- Results that can be read: there are none, or they are a list that starts with an object whose
translation, if it has one, is a text. -/
inductive ReadableResults : Document → Prop
  | absent {d : Document} (h : d.isPresent = false) : ReadableResults d
  | first {es : List (String × Document)} {rest : List Document}
      (h : ∀ d, Assoc.get? "dst" es = some d → d.isPresent = true → ∃ s, d = .string s) :
      ReadableResults (.list (.map es :: rest))

/-- An outcome of a request that can be read: an error that is expected of a client, or an answer
that reports an error or has results that can be read. -/
inductive IsReadable : WebOutcome → Prop
  | failed (kind message : String) : IsReadable (.failed kind message)
  | reported {body : Document} (h : reportsError body = true) : IsReadable (.data body)
  | results {body : Document}
      (h : ReadableResults (Document.orNull (body.get? "trans_result"))) : IsReadable (.data body)
  | untranslated (message : String) : IsReadable (.broken (.translation message))

theorem resultsVerdict_of_absent {results : Document} (h : results.isPresent = false) :
    resultsVerdict results = .refused := by
  simp only [resultsVerdict, firstTranslation, h, Bool.not_false, if_true]
  rfl

theorem resultsVerdict_first (es : List (String × Document)) (rest : List Document) :
    resultsVerdict (.list (.map es :: rest)) =
      if ((Assoc.get? "dst" es).getD (.string "")).isPresent then
        .translated ((Assoc.get? "dst" es).getD (.string "")) else .refused := rfl

/-- Nothing is read from other results. -/
theorem isSound_resultsVerdict_of_other {results : Document} (hpresent : results.isPresent = true)
    (hother : ∀ es rest, results ≠ .list (.map es :: rest)) :
    (resultsVerdict results).isSound = false := by
  -- every other shape has a failure of its own, and none of these is that of a translation
  unfold resultsVerdict firstTranslation
  simp only [hpresent, Bool.not_true, Bool.false_eq_true, if_false]
  split
  · next h =>
    split at h
    · next es rest => exact absurd rfl (hother es rest)
    all_goals cases h
  · next h =>
    split at h
    · next es rest => exact absurd rfl (hother es rest)
    all_goals
      cases h
      rfl

/-- A list that starts with an object can be read when its translation is a text, or there is
none. -/
theorem readableResults_first_iff {es : List (String × Document)} {rest : List Document} :
    ReadableResults (.list (.map es :: rest)) ↔
      ∀ d, Assoc.get? "dst" es = some d → d.isPresent = true → ∃ s, d = .string s := by
  constructor
  · intro hreadable
    cases hreadable with
    | absent h => cases h
    | first h => exact h
  · exact ReadableResults.first

theorem isSound_resultsVerdict_first_iff {es : List (String × Document)} {rest : List Document} :
    (resultsVerdict (.list (.map es :: rest))).isSound = true ↔
      ReadableResults (.list (.map es :: rest)) := by
  rw [resultsVerdict_first, readableResults_first_iff]
  cases hd : Assoc.get? "dst" es with
  | none => exact iff_of_true rfl fun d h => by cases h
  | some d =>
    rw [Option.getD_some]
    constructor
    · intro hsound d' hd' htext
      obtain rfl := Option.some.inj hd'
      rw [if_pos htext, Verdict.isSound_translated_iff] at hsound
      obtain ⟨s, -, rfl⟩ := hsound
      exact ⟨s, rfl⟩
    · intro h
      split_ifs with htext
      · obtain ⟨s, rfl⟩ := h d rfl htext
        exact Verdict.isSound_translated_iff.2 ⟨s, of_decide_eq_true htext, rfl⟩
      · rfl

/-- The verdict on results is sound when they can be read. -/
theorem isSound_resultsVerdict_iff (results : Document) :
    (resultsVerdict results).isSound = true ↔ ReadableResults results := by
  by_cases hfirst : ∃ es rest, results = .list (.map es :: rest)
  · obtain ⟨es, rest, rfl⟩ := hfirst
    exact isSound_resultsVerdict_first_iff
  · have hother : ∀ es rest, results ≠ .list (.map es :: rest) := by
      intro es rest h
      exact hfirst ⟨es, rest, h⟩
    cases hpresent : results.isPresent with
    | false =>
      rw [resultsVerdict_of_absent hpresent]
      exact iff_of_true rfl (.absent hpresent)
    | true =>
      rw [isSound_resultsVerdict_of_other hpresent hother]
      refine iff_of_false Bool.false_ne_true fun hreadable => ?_
      cases hreadable with
      | absent h =>
        rw [hpresent] at h
        cases h
      | first h => exact hother _ _ rfl

theorem isSound_bodyVerdict_iff (body : Document) : (bodyVerdict body).isSound = true ↔
    reportsError body = true ∨
      ReadableResults (Document.orNull (body.get? "trans_result")) := by
  cases hreports : reportsError body with
  | true =>
    rw [bodyVerdict_of_error hreports]
    refine iff_of_true ?_ (.inl rfl)
    split <;> rfl
  | false =>
    rw [bodyVerdict_of_results hreports, isSound_resultsVerdict_iff]
    constructor
    · exact .inr
    · rintro (h | h)
      · cases h
      · exact h

theorem isReadable_data_iff {body : Document} : IsReadable (.data body) ↔
    reportsError body = true ∨
      ReadableResults (Document.orNull (body.get? "trans_result")) := by
  constructor
  · intro h
    cases h with
    | reported h => exact .inl h
    | results h => exact .inr h
  · rintro (h | h)
    · exact .reported h
    · exact .results h

/-- The verdict on an outcome is sound when the outcome can be read. -/
theorem isSound_verdict_iff (o : WebOutcome) : (verdict o).isSound = true ↔ IsReadable o := by
  cases o with
  | failed kind message => exact iff_of_true rfl (.failed kind message)
  | data body => exact (isSound_bodyVerdict_iff body).trans isReadable_data_iff.symm
  | broken e =>
    rw [verdict, Verdict.isSound_failed_iff]
    constructor
    · rintro ⟨message, rfl⟩
      exact .untranslated message
    · intro h
      cases h with
      | untranslated message => exact ⟨message, rfl⟩

/-- The attempts end with a sound verdict when the outcome that ends them can be read. -/
theorem isSound_finalVerdict_iff (outcomes : List WebOutcome) :
    (finalVerdict outcomes).isSound = true ↔
      ∀ o, outcomes.find? (fun o => !isTransient o) = some o → IsReadable o := by
  rw [finalVerdict]
  cases outcomes.find? fun o => !isTransient o with
  | none => simp [Verdict.isSound]
  | some o => simp [isSound_verdict_iff]

end Baidu

end ThemeLocales.Provider
