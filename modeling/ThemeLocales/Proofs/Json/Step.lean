import Mathlib.Data.List.Basic
import ThemeLocales.Json.Reader

/-!
# Steps of a reader

A reader takes one step over the token at the front of the text (`run_of_next`), gaps are passed
over (`lexemes_gap`), and a run that succeeds ends with the text or steps over a token
(`run_cons_eq_ok`). Whether the reader is strict matters to none of this.
-/

set_option autoImplicit false

namespace ThemeLocales.Json

open Text

variable {strict : Bool} {text cs rest : List Char}

/-! ## Tokens and gaps -/

theorem lexemes_of_next {start : List Char} {t : Token} (h : next cs = .token t start rest) :
    lexemes cs = ⟨t, start⟩ :: lexemes rest := by
  rw [lexemes]
  split <;> rename_i h' <;> rw [h] at h'
  · cases h'
  · cases h'
  · cases h'
    rfl

theorem lexemes_of_finish {start : List Char} (h : next cs = .finish start) :
    lexemes cs = [⟨.finish, start⟩] := by
  rw [lexemes]
  split <;> rename_i h' <;> rw [h] at h' <;> cases h'
  rfl

theorem lexemes_of_fault {start : List Char} {cause : Fault} (h : next cs = .fault cause start) :
    lexemes cs = [⟨.fault cause, start⟩] := by
  rw [lexemes]
  split <;> rename_i h' <;> rw [h] at h' <;> cases h'
  rfl

/-- The tokens of a text are those of what stands behind a gap. -/
theorem lexemes_congr {cs' : List Char} (h : next cs = next cs') : lexemes cs = lexemes cs' := by
  cases hnext : next cs with
  | finish start => rw [lexemes_of_finish hnext, lexemes_of_finish (h.symm.trans hnext)]
  | fault cause start => rw [lexemes_of_fault hnext, lexemes_of_fault (h.symm.trans hnext)]
  | token t start rest => rw [lexemes_of_next hnext, lexemes_of_next (h.symm.trans hnext)]

theorem next_of_gap {c : Char} (hc : isGap c = true) (cs : List Char) :
    next (c :: cs) = next cs := by
  simp [next, hc]

/-- What may stand between tokens. -/
def Gap (cs : List Char) : Prop :=
  ∀ c ∈ cs, isGap c = true

theorem next_gap_append {gap : List Char} (h : Gap gap) (cs : List Char) :
    next (gap ++ cs) = next cs := by
  rw [next, List.dropWhile_append_of_pos h]
  rfl

theorem lexemes_gap {gap : List Char} (h : Gap gap) (cs : List Char) :
    lexemes (gap ++ cs) = lexemes cs :=
  lexemes_congr (next_gap_append h cs)

theorem next_of_punctuation {c : Char} {t : Token} (hc : punctuation? c = some t)
    (hgap : isGap c = false) (cs : List Char) : next (c :: cs) = .token t (c :: cs) cs := by
  simp [next, nextAt, hc, hgap]

theorem next_of_nextAt {c : Char} (hgap : isGap c = false) (cs : List Char) :
    next (c :: cs) = nextAt (c :: cs) := by
  simp [next, hgap]

/-- A string is one token. -/
theorem next_of_stringBody {body : Points} (h : stringBody .plain none cs = .ok (body, rest)) :
    next ('"' :: cs) = .token (.text body) ('"' :: cs) rest := by
  have hpunctuation : punctuation? '"' = none := rfl
  rw [next_of_nextAt (by decide)]
  simp [nextAt, hpunctuation, h]

/-! ## One step -/

/-- No step goes over the end of the text. -/
theorem step_finish_ne (m m' : Machine) : m.step strict .finish ≠ .ok m' := by
  obtain ⟨stack, focus⟩ := m
  cases focus with
  | settled value =>
    cases stack with
    | nil => simp [Machine.step, Machine.onSettled]
    | cons frame stack => cases frame <;> simp [Machine.step, Machine.onSettled]
  | _ => simp [Machine.step, Machine.onValue, Machine.onKey]

/-- No step goes over what is no token. -/
theorem step_fault_ne (m m' : Machine) (cause : Fault) :
    m.step strict (.fault cause) ≠ .ok m' := by
  obtain ⟨stack, focus⟩ := m
  cases focus with
  | settled value =>
    cases stack with
    | nil => simp [Machine.step, Machine.onSettled]
    | cons frame stack => cases frame <;> simp [Machine.step, Machine.onSettled]
  | _ => cases cause <;> simp [Machine.step, Machine.onValue, Machine.onKey]

/-- One step of a reader over the token at the front. -/
theorem run_of_next {start : List Char} {m m' : Machine} {t : Token}
    (hnext : next cs = .token t start rest) (hstep : m.step strict t = .ok m') :
    run strict text m (lexemes cs) = run strict text m' (lexemes rest) := by
  have ht : t ≠ .finish := by
    rintro rfl
    exact step_finish_ne m m' hstep
  rw [lexemes_of_next hnext, run]
  · simp only [hstep]
  · exact fun _ h => absurd h ht

/-- At the end of the text a reader has its result, or none. -/
theorem run_of_finish {start : List Char} {m : Machine} {d : Document Points}
    (hnext : next cs = .finish start) (h : m.result? = some d) :
    run strict text m (lexemes cs) = .ok d := by
  rw [lexemes_of_finish hnext, run]
  exact h

/-- A run over tokens that succeeds ends with the first one, or steps over it. -/
theorem run_cons_eq_ok {m : Machine} {d : Document Points} {lexeme : Lexeme} {after : List Lexeme}
    (h : run strict text m (lexeme :: after) = .ok d) :
    (lexeme.token = .finish ∧ m.result? = some d) ∨
      ∃ m', m.step strict lexeme.token = .ok m' ∧ run strict text m' after = .ok d := by
  obtain ⟨t, start⟩ := lexeme
  rw [run.eq_def] at h
  simp only at h
  split at h
  · next hresult =>
    cases h
    exact Or.inl ⟨rfl, hresult⟩
  · split at h
    · next m' hstep => exact Or.inr ⟨m', hstep, h⟩
    · cases h

/-- The first token in a map closes it or is a key. -/
theorem step_firstKey {t : Token} (h : t ≠ .closeMap) (stack : List Frame) :
    Machine.step strict ⟨stack, .firstKey⟩ t = Machine.onKey stack [] t := by
  cases t with
  | closeMap => exact absurd rfl h
  | _ => rfl

/-- The first token in a list closes it or belongs to a value. -/
theorem step_firstItem {t : Token} (h : t ≠ .closeList) (stack : List Frame) :
    Machine.step strict ⟨stack, .firstItem⟩ t = Machine.onValue strict (.list [] :: stack) t := by
  cases t with
  | closeList => exact absurd rfl h
  | _ => rfl

/-- A reader that waits for a value in a stack of containers. -/
def Awaits (strict : Bool) (m : Machine) (stack : List Frame) : Prop :=
  ∀ t m', Machine.onValue strict stack t = .ok m' → m.step strict t = .ok m'

theorem awaits_value (strict : Bool) (stack : List Frame) : Awaits strict ⟨stack, .value⟩ stack :=
  fun _ _ h => h

theorem awaits_firstItem (strict : Bool) (stack : List Frame) :
    Awaits strict ⟨stack, .firstItem⟩ (.list [] :: stack) := by
  intro t m' h
  by_cases hclose : t = .closeList
  · subst hclose
    cases h
  · rwa [step_firstItem hclose]

/-- A reader that waits for a key of a map with some entries. -/
def AwaitsKey (strict : Bool) (m : Machine) (stack : List Frame)
    (entries : List (Points × Document Points)) : Prop :=
  ∀ s, m.step strict (.text s) = .ok ⟨stack, .colon entries s⟩

end ThemeLocales.Json
