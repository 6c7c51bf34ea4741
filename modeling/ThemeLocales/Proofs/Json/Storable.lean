import ThemeLocales.Proofs.Document.Points
import ThemeLocales.Proofs.Json.Lexical
import ThemeLocales.Proofs.Number.Digits

/-!
# What is read can be written

Every document that a reader yields is storable. The tokens of a text stand for storable scalars,
and a reader over such tokens only ever holds storable documents, in the containers that are open as
well as in its focus.
-/

set_option autoImplicit false

namespace ThemeLocales

theorem Text.digitsValue_lt {ds : List Char} (hds : ∀ d ∈ ds, isAsciiDigit d = true) :
    digitsValue ds < 10 ^ ds.length := by
  induction ds using List.reverseRecOn with
  | nil => decide
  | append_singleton ds d ih =>
    have hlt := ih fun x hx => hds x (List.mem_append_left _ hx)
    have hd := hds d (by simp)
    simp only [isAsciiDigit, Bool.and_eq_true, decide_eq_true_eq] at hd
    have hhigh : d.toNat ≤ 57 := hd.2
    have hone : digitsValue [d] = d.toNat - 48 := by simp [digitsValue]
    rw [digitsValue_append, hone, List.length_append, List.length_singleton,
      pow_succ, pow_succ, pow_zero]
    omega

namespace Json

open Document Text

/-! ## Tokens -/

/-- What a token stands for is storable. -/
def Token.Fits : Token → Prop
  | .scalar d => d.Storable
  | .constant _ x => x.Canonical
  | _ => True

/-- A number of the grammar can be written and read again: a reader converts no integer with more
digits than a writer puts down. -/
theorem storable_of_numberText {cs : List Char} {d : Document Points}
    (h : NumberText Json.Fits cs d) :
    d.Storable := by
  cases h with
  | @integer negative whole hwhole hfits =>
    have hpos : 0 < whole.length := List.length_pos_iff.2 hwhole.ne_nil
    have hcount := (Binary64.digitCount_le_iff hpos).2 (Text.digitsValue_lt hwhole.digits)
    have habs : (Number.signed negative (Text.digitsValue whole)).natAbs =
        Text.digitsValue whole := by
      cases negative <;> simp [Number.signed]
    rw [storable_int_iff, habs]
    exact hcount.trans hfits
  | real => exact storable_real_iff.2 (Binary64.canonical_ofDecimal _ _ _)

theorem fits_of_number? {cs rest : List Char} {t : Token} (h : number? cs = some (t, rest)) :
    t.Fits := by
  rcases exists_of_number? h with ⟨text, d, hd, -, rfl⟩ | ⟨n, rfl⟩
  · exact storable_of_numberText hd
  · trivial

/-- A word that is read stands in the list of words. -/
theorem exists_mem_of_word? {cs rest : List Char} {t : Token} {ws : List (List Char × Token)}
    (h : word? cs ws = some (t, rest)) : ∃ w ∈ ws, w.2 = t := by
  induction ws with
  | nil => cases h
  | cons w ws ih =>
    simp only [word?] at h
    split at h
    · cases h
      exact ⟨w, List.mem_cons_self, rfl⟩
    · obtain ⟨x, hx, hxt⟩ := ih h
      exact ⟨x, List.mem_cons_of_mem _ hx, hxt⟩

theorem fits_of_word? {cs rest : List Char} {t : Token} (h : word? cs words = some (t, rest)) :
    t.Fits := by
  obtain ⟨w, hw, rfl⟩ := exists_mem_of_word? h
  simp only [words, List.mem_cons, List.not_mem_nil, or_false] at hw
  rcases hw with rfl | rfl | rfl | rfl | rfl | rfl
  · exact storable_null
  · exact storable_bool true
  · exact storable_bool false
  · trivial
  · trivial
  · trivial

theorem fits_of_punctuation? {c : Char} {t : Token} (h : punctuation? c = some t) : t.Fits := by
  unfold punctuation? at h
  split at h <;> cases h <;> trivial

theorem fits_of_nextAt {cs start rest : List Char} {t : Token}
    (h : nextAt cs = .token t start rest) : t.Fits := by
  obtain ⟨c, tail, rfl, ⟨hpunctuation, -⟩ | ⟨-, body, -, rfl⟩ | hword | hnumber⟩ := nextAt_cases h
  · exact fits_of_punctuation? hpunctuation
  · trivial
  · exact fits_of_word? hword
  · exact fits_of_number? hnumber

/-- What a token of a text stands for is storable, and so is what a reader is told at its end. -/
theorem fits_of_mem_lexemes {cs : List Char} {l : Lexeme} (h : l ∈ lexemes cs) : l.token.Fits := by
  induction cs using lexemes.induct with
  | case1 cs start hnext =>
    rw [lexemes_of_finish hnext, List.mem_singleton] at h
    rw [h]
    trivial
  | case2 cs cause start hnext =>
    rw [lexemes_of_fault hnext, List.mem_singleton] at h
    rw [h]
    trivial
  | case3 cs t start rest hnext ih =>
    rw [lexemes_of_next hnext] at h
    rcases List.mem_cons.1 h with rfl | h
    · exact fits_of_nextAt hnext
    · exact ih h

/-! ## Readers -/

/-- What an open container holds so far is storable. -/
def Frame.Fits : Frame → Prop
  | .list items => (Document.list items).Storable
  | .entry entries _ => (Document.map entries).Storable

/-- What a reader holds in its focus is storable. -/
def Focus.Fits : Focus → Prop
  | .nextKey entries => (Document.map entries).Storable
  | .colon entries _ => (Document.map entries).Storable
  | .settled d => d.Storable
  | _ => True

/-- A reader that holds storable documents only. -/
structure Machine.Fits (m : Machine) : Prop where
  stack : ∀ frame ∈ m.stack, frame.Fits
  focus : m.focus.Fits

variable {strict : Bool} {m m' : Machine} {t : Token} {stack : List Frame}

theorem fits_onValue (hstack : ∀ frame ∈ stack, frame.Fits) (ht : t.Fits)
    (h : Machine.onValue strict stack t = .ok m') : m'.Fits := by
  cases t with
  | openMap => cases h; exact ⟨hstack, trivial⟩
  | openList => cases h; exact ⟨hstack, trivial⟩
  | text s => cases h; exact ⟨hstack, storable_string s⟩
  | scalar d => cases h; exact ⟨hstack, ht⟩
  | constant name x =>
    simp only [Machine.onValue] at h
    split at h
    · cases h
    · cases h
      exact ⟨hstack, (storable_scalar_iff rfl).2 ht⟩
  | _ => cases h

theorem fits_onKey {entries : List (Points × Document Points)}
    (hstack : ∀ frame ∈ stack, frame.Fits) (hentries : (Document.map entries).Storable)
    (h : Machine.onKey stack entries t = .ok m') : m'.Fits := by
  unfold Machine.onKey at h
  split at h <;> cases h
  exact ⟨hstack, hentries⟩

theorem fits_onSettled {value : Document Points} (hstack : ∀ frame ∈ stack, frame.Fits)
    (hvalue : value.Storable) (h : Machine.onSettled value stack t = .ok m') : m'.Fits := by
  unfold Machine.onSettled at h
  split at h <;> cases h
  · obtain ⟨hitems, hframes⟩ := List.forall_mem_cons.1 hstack
    have hitems := storable_list_append hitems hvalue
    exact ⟨List.forall_mem_cons.2 ⟨hitems, hframes⟩, trivial⟩
  · obtain ⟨hitems, hframes⟩ := List.forall_mem_cons.1 hstack
    exact ⟨hframes, storable_list_append hitems hvalue⟩
  · obtain ⟨hentries, hframes⟩ := List.forall_mem_cons.1 hstack
    exact ⟨hframes, storable_map_set hentries hvalue _⟩
  · obtain ⟨hentries, hframes⟩ := List.forall_mem_cons.1 hstack
    exact ⟨hframes, storable_map_set hentries hvalue _⟩

/-- A step over a storable token keeps a reader's documents storable. -/
theorem Machine.Fits.step (hm : m.Fits) (ht : t.Fits) (h : m.step strict t = .ok m') :
    m'.Fits := by
  obtain ⟨stack, focus⟩ := m
  obtain ⟨hstack, hfocus⟩ := hm
  -- A frame that is opened holds nothing yet, and the others stay as they were.
  have hempty : ∀ frame ∈ Frame.list [] :: stack, frame.Fits :=
    List.forall_mem_cons.2 ⟨storable_list_iff.2 (by simp), hstack⟩
  cases focus with
  | value => exact fits_onValue hstack ht h
  | firstItem =>
    simp only [Machine.step] at h
    split at h
    · cases h
      exact ⟨hstack, storable_list_iff.2 (by simp)⟩
    · exact fits_onValue hempty ht h
  | firstKey =>
    simp only [Machine.step] at h
    split at h
    · cases h
      exact ⟨hstack, storable_map_iff.2 (by simp)⟩
    · exact fits_onKey hstack (storable_map_iff.2 (by simp)) h
  | nextKey entries => exact fits_onKey hstack hfocus h
  | colon entries key =>
    simp only [Machine.step] at h
    split at h
    · cases h
      exact ⟨List.forall_mem_cons.2 ⟨hfocus, hstack⟩, trivial⟩
    · cases h
  | settled value => exact fits_onSettled hstack hfocus h

theorem Machine.Fits.result? (hm : m.Fits) {d : Document Points} (h : m.result? = some d) :
    d.Storable := by
  obtain ⟨stack, focus⟩ := m
  unfold Machine.result? at h
  split at h
  · next hfocus =>
    cases h
    have hstorable := hm.focus
    rwa [hfocus] at hstorable
  · cases h

/-- A run over storable tokens yields a storable document, if any. -/
theorem storable_of_run {text : List Char} {lexemes : List Lexeme} {d : Document Points}
    (hm : m.Fits) (hlexemes : ∀ l ∈ lexemes, l.token.Fits) (h : run strict text m lexemes = .ok d) :
    d.Storable := by
  induction lexemes generalizing m with
  | nil => cases h
  | cons l rest ih =>
    obtain ⟨hl, hrest⟩ := List.forall_mem_cons.1 hlexemes
    rcases run_cons_eq_ok h with ⟨-, hresult⟩ | ⟨m', hstep, hrun⟩
    · exact hm.result? hresult
    · exact ih (hm.step hl hstep) hrest hrun

theorem fits_start : Machine.start.Fits :=
  ⟨fun _ hframe => absurd hframe List.not_mem_nil, trivial⟩

/-- Every document that a text is read as is storable. -/
theorem storable_of_parseChars {cs : List Char} {d : Document Points}
    (h : parseChars strict cs = .ok d) : d.Storable := by
  unfold parseChars at h
  split at h
  · cases h
  · exact storable_of_run fits_start (fun l hl => fits_of_mem_lexemes hl) h

/-- A document is one of strings where it has no surrogate that stands alone. -/
theorem asStrings_eq_ok_iff {d : Document Points} {e : Document} :
    asStrings d = .ok e ↔ d.isPaired = true ∧ d.legible = e := by
  unfold asStrings
  split
  · next h => simp [h]
  · next h => simp [h]

theorem toOption_asStrings_eq_some_iff {d : Document Points} {e : Document} :
    (asStrings d).toOption = some e ↔ d.isPaired = true ∧ d.legible = e := by
  rw [← asStrings_eq_ok_iff]
  cases asStrings d <;> simp [Except.toOption]

theorem parse_eq_ok_iff {s : String} {d : Document} :
    parse s = .ok d ↔ ∃ wide, parseChars false s.toList = .ok wide ∧ asStrings wide = .ok d := by
  unfold parse
  cases parseChars false s.toList <;> simp [bind, Except.bind]

end Json

end ThemeLocales
