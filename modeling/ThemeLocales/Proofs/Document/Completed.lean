import ThemeLocales.Proofs.Document.Walk

/-!
# Documents that are complete

When every text has one answer, whoever is asked and how often, a fill has one result: `completed`.
It is what any fill comes to whose answers are these (`eq_completed`), and completing a document
that is complete changes nothing (`completed_again`).

Answers need not be fixed for that. Whatever a translation answers and remembers, as long as no
answer is empty its fill leaves nothing to be translated: no text is counted, and no other
translation is asked for one (`filledFrom_complete`).
-/

set_option autoImplicit false

namespace ThemeLocales.Document

/-- The fixed answers of texts, as texts. -/
def FixedAnswer (answer : String → String) : String → Document → Prop :=
  fun s a => a = .string (answer s)

/-- What filling a target along a source comes to when every text has a fixed answer. -/
def completed (answer : String → String) (source target : Document) : Document :=
  Id.run (fill (fun s => pure (.string (answer s))) source target)

variable {answer : String → String} {source target r : Document}

/-- Results of pure computations, as a judgement that does not look at the texts. -/
theorem traced_id : Traced (m := Id) fun x _ R => R (Id.run x) where
  pure := fun ha => ha
  bind := fun hx hf => hf _ hx
  mono := fun hx hRS => hRS _ hx

theorem filled_completed (answer : String → String) (source target : Document) :
    Filled (FixedAnswer answer) source target (completed answer source target) :=
  traced_id.fill (A := FixedAnswer answer) (fun _ _ => rfl) source target

/-- A fill with fixed answers has no other result. -/
theorem eq_completed (h : Filled (FixedAnswer answer) source target r) :
    r = completed answer source target := by
  have hpure : fill (m := Id) (fun s => pure (.string (answer s))) source target = pure r := by
    refine fill_eq_pure_of_answers (h.mono ?_)
    rintro s a rfl
    rfl
  rw [completed, hpure]
  rfl

theorem storable_completed (hsource : source.Storable) (htarget : target.Storable) :
    (completed answer source target).Storable := by
  refine (filled_completed answer source target).storable hsource htarget ?_
  rintro s a rfl
  exact storable_string _

/-- Completing a document that is complete changes nothing, if no answer is empty. -/
theorem completed_again (hsource : source.Storable) (hanswer : ∀ s, answer s ≠ "") :
    completed answer source (completed answer source target) = completed answer source target := by
  refine (eq_completed ((filled_completed answer source target).again hsource.wellFormed ?_)).symm
  rintro s a rfl
  simpa [isTranslated] using hanswer s

/-! ## Answers that depend on what was asked before -/

/-- Results of computations with a state, as a judgement that does not look at the texts. -/
theorem traced_state (σ : Type) : Traced (m := StateM σ) fun x _ R => ∀ s, R (x.run s).1 where
  pure := fun ha _ => ha
  bind := fun hx hf s => hf _ (hx s) _
  mono := fun hx hRS s => hRS _ (hx s)

/-- Where no answer is needed, no text is open. -/
theorem openTexts_eq_nil (h : Filled NoAnswer source target r) : openTexts source target = [] := by
  -- a translation that writes down what it is asked for and refuses nothing writes down nothing
  have hasks := (traced_asks fun _ => (none : Option Unit)).fill
    (fun s _ => asks_asked (fun _ text => .string text) s) source target []
  rw [List.findSome?_eq_none_iff.2 fun _ _ => rfl, fill_eq_pure h] at hasks
  obtain ⟨a, hrun, -⟩ := hasks
  exact (congrArg Prod.snd hrun).symm

/-- The result of a fill with a translation that answers every text and has a state, which it
changes as it likes. -/
def filledFrom {σ : Type} (translate : String → StateM σ String) (source target : Document)
    (s : σ) : Document :=
  ((fill (fun text => Document.string <$> translate text) source target).run s).1

theorem filled_filledFrom {σ : Type} {translate : String → StateM σ String}
    (hanswer : ∀ text, text ≠ "" → ∀ s, ((translate text).run s).1 ≠ "")
    (source target : Document) (s : σ) :
    Filled (fun _ a => ∃ text, text ≠ "" ∧ a = .string text) source target
      (filledFrom translate source target s) := by
  apply (traced_state σ).fill
  intro text htext s
  exact ⟨_, hanswer text htext s, rfl⟩

/-- A completed document needs no further call. When a translation has answered every text with one
that is not empty, no text is counted for the document that its fill gives; a fill of that document
with any other translation does nothing but give it back, and asks for nothing. The source is a
tree, in which no map has a key twice. -/
theorem filledFrom_complete {σ : Type} {translate : String → StateM σ String}
    (hanswer : ∀ text, text ≠ "" → ∀ s, ((translate text).run s).1 ≠ "")
    (hsource : source.WellFormed) (target : Document) (s : σ) :
    pending source (filledFrom translate source target s) = 0 ∧
      (∀ {m : Type → Type} [Monad m] [LawfulMonad m] (other : String → m Document),
        fill other source (filledFrom translate source target s) =
          pure (filledFrom translate source target s)) ∧
      ∀ {ε : Type} (refusal? : String → Option ε) (answer : List String → String → Document),
        askedFill refusal? answer source (filledFrom translate source target s) =
          (.ok (filledFrom translate source target s), []) := by
  have hagain : Filled NoAnswer source (filledFrom translate source target s)
      (filledFrom translate source target s) := by
    apply (filled_filledFrom hanswer source target s).again hsource
    rintro - a ⟨text, htext, rfl⟩
    simpa [isTranslated] using htext
  refine ⟨?_, fun other => fill_eq_pure hagain, fun refusal? answer => ?_⟩
  · rw [← length_openTexts, openTexts_eq_nil hagain, List.length_nil]
  · rw [askedFill, fill_eq_pure hagain]
    rfl

/-- A source with values of every kind. -/
def mixedSource : Document :=
  .map [("title", .string "Title"), ("list", .list [.string "One", .null, .string "", .int 0]),
    ("off", .bool false), ("menu", .map [("home", .string "Home")])]

/-- A target with a list that is too short, a truth value in the place of a map, and a number in the
place of a text. -/
def mixedTarget : Document :=
  .map [("menu", .bool true), ("title", .int 7), ("list", .list [.null])]

/-- The document that is complete when the first text that is asked for is answered with another and
the second with itself. -/
def mixedResult : Document :=
  .map [("title", .int 7), ("list", .list [.string "Un", .null, .string "", .int 0]),
    ("off", .bool false), ("menu", .map [("home", .string "Home")])]

/-- A translation that counts its answers. -/
def countingTranslation (text : String) : StateM Nat String :=
  modifyGet fun n => (if n = 0 then "Un" else text, n + 1)

/-- The number stays and two texts are answered. Then a translation that refuses every text is not
asked for one. -/
theorem filledFrom_complete_mixed :
    filledFrom countingTranslation mixedSource mixedTarget 0 = mixedResult ∧
      pending mixedSource mixedResult = 0 ∧
      askedFill (fun _ => some ()) (fun _ _ => .null) mixedSource mixedResult =
        (.ok mixedResult, []) := by
  have hanswer : ∀ text, text ≠ "" → ∀ n, ((countingTranslation text).run n).1 ≠ "" := by
    intro text htext n
    change (if n = 0 then "Un" else text) ≠ ""
    by_cases hn : n = 0
    · simp [hn]
    · rw [if_neg hn]
      exact htext
  have hsource : mixedSource.WellFormed := by
    simp [mixedSource, WellFormed, WellFormedItems, WellFormedEntries]
  have hresult : filledFrom countingTranslation mixedSource mixedTarget 0 = mixedResult := rfl
  obtain ⟨hpending, -, hasked⟩ := filledFrom_complete hanswer hsource mixedTarget 0
  rw [hresult] at hpending hasked
  exact ⟨hresult, hpending, hasked _ _⟩

end ThemeLocales.Document
