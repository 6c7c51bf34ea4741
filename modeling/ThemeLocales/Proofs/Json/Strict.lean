import ThemeLocales.Proofs.Json.Lexical

/-!
# A strict reader reads the grammar

A strict reader takes a text for a document just when the grammar spells that document
(`parseChars_eq_ok_iff`). What the grammar spells is taken along by induction on its rules
(`takes_of_spells`). In the other direction the induction is on the length of the text: what a
reader goes over from where it waits for a value, for an item or for a key is a part of the grammar.
-/

set_option autoImplicit false

namespace ThemeLocales.Json

open Text

variable {text cs rest : List Char} {stack : List Frame} {out : Document Points}

/-! ## What the grammar spells is read -/

theorem continuesNumber_of_gap {c : Char} (h : isGap c = true) : continuesNumber c = false := by
  simp only [isGap, Bool.or_eq_true, decide_eq_true_eq] at h
  rcases h with ((rfl | rfl) | rfl) | rfl <;> decide

/-- No number goes on in a gap. -/
theorem stops_gap_append {gap : List Char} (h : Gap gap) (hrest : Stops rest) :
    Stops (gap ++ rest) := by
  cases gap with
  | nil => exact hrest
  | cons c gap => exact stops_cons (continuesNumber_of_gap (h c List.mem_cons_self)) _

/-- A reader that waits for a part goes over it and is behind it. -/
def Takes (text cs rest : List Char) : Part → Prop
  | .value d => ∀ m stack, Awaits true m stack → Stops rest →
      run true text m (lexemes cs) = run true text ⟨stack, .settled d⟩ (lexemes rest)
  | .entry key d => ∀ m stack entries, AwaitsKey true m stack entries → Stops rest →
      run true text m (lexemes cs) =
        run true text ⟨.entry entries key :: stack, .settled d⟩ (lexemes rest)
  | .items ds => ∀ m stack items, Awaits true m (.list items :: stack) →
      run true text m (lexemes cs) =
        run true text ⟨stack, .settled (.list (items ++ ds))⟩ (lexemes rest)
  | .entries es => ∀ m stack entries, AwaitsKey true m stack entries →
      run true text m (lexemes cs) = run true text
        ⟨stack, .settled (.map (es.foldl (fun table (k, v) => Assoc.set k v table) entries))⟩
        (lexemes rest)

/-- A string of the grammar is one token. -/
theorem next_quoted {body : Points} (h : Quoted cs body rest) :
    next ('"' :: cs) = .token (.text body) ('"' :: cs) rest :=
  next_of_stringBody (stringBody_eq_ok_iff.2 h)

/-- What the grammar spells is taken. -/
theorem takes_of_spells {part : Part} (h : Spells Fits cs part rest) : Takes text cs rest part := by
  induction h with
  | null rest => exact fun m stack hm _ => run_of_next rfl (hm _ _ rfl)
  | yes rest => exact fun m stack hm _ => run_of_next rfl (hm _ _ rfl)
  | no rest => exact fun m stack hm _ => run_of_next rfl (hm _ _ rfl)
  | number h rest =>
    intro m stack hm hrest
    obtain ⟨start, hnext⟩ := next_number h hrest
    exact run_of_next hnext (hm _ _ rfl)
  | text h => exact fun m stack hm _ => run_of_next (next_quoted h) (hm _ _ rfl)
  -- a bracket and its contents: the reader is inside, with nothing read yet
  | emptyList hgap rest =>
    intro m stack hm _
    rw [run_of_next (next_of_punctuation rfl rfl _) (hm _ _ rfl), lexemes_gap hgap]
    exact run_of_next (next_of_punctuation rfl rfl rest) rfl
  | list _ ih =>
    intro m stack hm _
    rw [run_of_next (next_of_punctuation rfl rfl _) (hm _ _ rfl)]
    exact ih _ stack [] (awaits_firstItem _ stack)
  | emptyMap hgap rest =>
    intro m stack hm _
    rw [run_of_next (next_of_punctuation rfl rfl _) (hm _ _ rfl), lexemes_gap hgap]
    exact run_of_next (next_of_punctuation rfl rfl rest) rfl
  | map _ htable ih =>
    intro m stack hm _
    rw [run_of_next (next_of_punctuation rfl rfl _) (hm _ _ rfl), latest_iff.1 htable]
    exact ih _ stack [] fun _ => rfl
  | lastItem hgap hgap' _ ih =>
    intro m stack items hm
    rw [lexemes_gap hgap, ih m _ hm (stops_gap_append hgap' (stops_cons rfl _)), lexemes_gap hgap']
    exact run_of_next (next_of_punctuation rfl rfl _) rfl
  | @item gap gap' cs tail rest d ds hgap hgap' _ _ ih ih' =>
    intro m stack items hm
    rw [lexemes_gap hgap, ih m _ hm (stops_gap_append hgap' (stops_cons rfl _)), lexemes_gap hgap',
      run_of_next (next_of_punctuation rfl rfl _) rfl,
      ih' _ stack (items ++ [d]) (awaits_value _ _), List.append_assoc, List.singleton_append]
  | entry hgap hgap' hgap'' hkey _ ih =>
    intro m stack entries hm hrest
    rw [lexemes_gap hgap, run_of_next (next_quoted hkey) (hm _), lexemes_gap hgap',
      run_of_next (next_of_punctuation rfl rfl _) rfl, lexemes_gap hgap'']
    exact ih _ _ (awaits_value _ _) hrest
  | lastEntry hgap _ ih =>
    intro m stack entries hm
    rw [ih m stack entries hm (stops_gap_append hgap (stops_cons rfl _)), lexemes_gap hgap]
    exact run_of_next (next_of_punctuation rfl rfl _) rfl
  | moreEntries hgap _ _ ih ih' =>
    intro m stack entries hm
    rw [ih m stack entries hm (stops_gap_append hgap (stops_cons rfl _)), lexemes_gap hgap,
      run_of_next (next_of_punctuation rfl rfl _) rfl, ih' _ stack _ fun _ => rfl]
    rfl

/-! ## What is read is spelled -/

/-- A run over a text that succeeds is over, or it steps over a token. -/
theorem run_eq_ok {m : Machine} (h : run true text m (lexemes cs) = .ok out) :
    ((∃ start, next cs = .finish start) ∧ m.result? = some out) ∨
      ∃ t gap cs' rest m', Gap gap ∧ cs = gap ++ cs' ∧ TokenText t cs' rest ∧
        m.step true t = .ok m' ∧ run true text m' (lexemes rest) = .ok out := by
  cases hnext : next cs with
  | finish start =>
    rw [lexemes_of_finish hnext] at h
    rcases run_cons_eq_ok h with ⟨-, hresult⟩ | ⟨m', hstep, -⟩
    · exact Or.inl ⟨⟨start, rfl⟩, hresult⟩
    · exact absurd hstep (step_finish_ne m m')
  | fault cause start =>
    rw [lexemes_of_fault hnext] at h
    rcases run_cons_eq_ok h with ⟨hfinish, -⟩ | ⟨m', hstep, -⟩
    · cases hfinish
    · exact absurd hstep (step_fault_ne m m' cause)
  | token t start rest =>
    rw [lexemes_of_next hnext] at h
    obtain ⟨gap, cs', hgap, hcs, htoken⟩ := tokenText_of_next hnext
    rcases run_cons_eq_ok h with ⟨rfl, -⟩ | ⟨m', hstep, hrun⟩
    · cases htoken
    · exact Or.inr ⟨t, gap, cs', rest, m', hgap, hcs, htoken, hstep, hrun⟩

/-- A reader enters a value with the token at hand. -/
def Enters (text : List Char) (stack : List Frame) (cs : List Char) (out : Document Points) :
    Prop :=
  ∃ t gap cs' rest m', Gap gap ∧ cs = gap ++ cs' ∧ TokenText t cs' rest ∧
    Machine.onValue true stack t = .ok m' ∧ run true text m' (lexemes rest) = .ok out

theorem enters_of_run (h : run true text ⟨stack, .value⟩ (lexemes cs) = .ok out) :
    Enters text stack cs out := by
  rcases run_eq_ok h with ⟨-, hresult⟩ | hstep
  · cases stack <;> cases hresult
  · exact hstep

/-- A reader enters an entry of a map with the key at hand. -/
def EntersKey (text : List Char) (stack : List Frame) (entries : List (Points × Document Points))
    (cs : List Char) (out : Document Points) : Prop :=
  ∃ gap cs' key rest, Gap gap ∧ cs = gap ++ '"' :: cs' ∧ Quoted cs' key rest ∧
    run true text ⟨stack, .colon entries key⟩ (lexemes rest) = .ok out

variable {entries : List (Points × Document Points)}

/-- Where a key is expected, only a string is taken. -/
theorem entersKey_of_onKey {gap cs' : List Char} {t : Token} {m : Machine} (hgap : Gap gap)
    (hcs : cs = gap ++ cs') (htoken : TokenText t cs' rest)
    (hstep : Machine.onKey stack entries t = .ok m)
    (hrun : run true text m (lexemes rest) = .ok out) : EntersKey text stack entries cs out := by
  cases htoken with
  | text h =>
    cases hstep
    exact ⟨gap, _, _, rest, hgap, hcs, h, hrun⟩
  | _ => cases hstep

theorem entersKey_of_run (h : run true text ⟨stack, .nextKey entries⟩ (lexemes cs) = .ok out) :
    EntersKey text stack entries cs out := by
  rcases run_eq_ok h with ⟨-, hresult⟩ | ⟨t, gap, cs', rest, m', hgap, hcs, htoken, hstep, hrun⟩
  · cases stack <;> cases hresult
  · exact entersKey_of_onKey hgap hcs htoken hstep hrun

/-- Behind the opening of a map, the map is closed at once or its first key follows. -/
theorem closed_or_entersKey (h : run true text ⟨stack, .firstKey⟩ (lexemes cs) = .ok out) :
    (∃ gap rest, Gap gap ∧ cs = gap ++ '}' :: rest ∧
      run true text ⟨stack, .settled (.map [])⟩ (lexemes rest) = .ok out) ∨
      EntersKey text stack [] cs out := by
  rcases run_eq_ok h with ⟨-, hresult⟩ | ⟨t, gap, cs', rest, m, hgap, hcs, htoken, hstep, hrun⟩
  · cases stack <;> cases hresult
  · by_cases hclose : t = .closeMap
    · subst hclose
      cases htoken
      cases hstep
      exact Or.inl ⟨gap, rest, hgap, hcs, hrun⟩
    · rw [step_firstKey hclose] at hstep
      exact Or.inr (entersKey_of_onKey hgap hcs htoken hstep hrun)

/-- Behind the opening of a list, the list is closed at once or its first item follows. -/
theorem closed_or_enters (h : run true text ⟨stack, .firstItem⟩ (lexemes cs) = .ok out) :
    (∃ gap rest, Gap gap ∧ cs = gap ++ ']' :: rest ∧
      run true text ⟨stack, .settled (.list [])⟩ (lexemes rest) = .ok out) ∨
      Enters text (.list [] :: stack) cs out := by
  rcases run_eq_ok h with ⟨-, hresult⟩ | ⟨t, gap, cs', rest, m, hgap, hcs, htoken, hstep, hrun⟩
  · cases stack <;> cases hresult
  · by_cases hclose : t = .closeList
    · subst hclose
      cases htoken
      cases hstep
      exact Or.inl ⟨gap, rest, hgap, hcs, hrun⟩
    · rw [step_firstItem hclose] at hstep
      exact Or.inr ⟨t, gap, cs', rest, m, hgap, hcs, htoken, hstep, hrun⟩

/-- What a reader goes over from where it enters a value is a value of the grammar. -/
def ValueSound (cs : List Char) : Prop :=
  ∀ text stack out, Enters text stack cs out → ∃ gap cs' d rest, Gap gap ∧ cs = gap ++ cs' ∧
    Spells Fits cs' (.value d) rest ∧
      run true text ⟨stack, .settled d⟩ (lexemes rest) = .ok out

/-- The same for the items that are left of a list. -/
def ItemsSound (cs : List Char) : Prop :=
  ∀ text stack items out, Enters text (.list items :: stack) cs out → ∃ ds rest,
    Spells Fits cs (.items ds) rest ∧
      run true text ⟨stack, .settled (.list (items ++ ds))⟩ (lexemes rest) = .ok out

/-- The same for the entries that are left of a map. -/
def EntriesSound (cs : List Char) : Prop :=
  ∀ text stack entries out, EntersKey text stack entries cs out → ∃ es rest,
    Spells Fits cs (.entries es) rest ∧ run true text
      ⟨stack, .settled (.map (es.foldl (fun table (k, v) => Assoc.set k v table) entries))⟩
      (lexemes rest) = .ok out

theorem valueSound (hitems : ∀ cs' : List Char, cs'.length < cs.length → ItemsSound cs')
    (hentries : ∀ cs' : List Char, cs'.length < cs.length → EntriesSound cs') : ValueSound cs := by
  rintro text stack out ⟨t, gap, cs', rest, m, hgap, rfl, htoken, hstep, hrun⟩
  have hshorter : ∀ c : Char, rest.length < (gap ++ c :: rest).length := fun c => by
    simp only [List.length_append, List.length_cons]
    omega
  -- a container is shorter than the text with its bracket, so the hypotheses apply to it
  cases htoken with
  | openMap =>
    cases hstep
    rcases closed_or_entersKey hrun with ⟨gap', rest', hgap', rfl, hrun'⟩ | hfirst
    · exact ⟨gap, _, _, _, hgap, rfl, .emptyMap hgap' rest', hrun'⟩
    · obtain ⟨es, rest', hes, hrun'⟩ := hentries rest (hshorter _) text stack [] out hfirst
      exact ⟨gap, _, _, _, hgap, rfl, .map hes (latest_iff.2 rfl), hrun'⟩
  | openList =>
    cases hstep
    rcases closed_or_enters hrun with ⟨gap', rest', hgap', rfl, hrun'⟩ | hfirst
    · exact ⟨gap, _, _, _, hgap, rfl, .emptyList hgap' rest', hrun'⟩
    · obtain ⟨ds, rest', hds, hrun'⟩ := hitems rest (hshorter _) text stack [] out hfirst
      exact ⟨gap, _, _, _, hgap, rfl, .list hds, hrun'⟩
  | text h =>
    cases hstep
    exact ⟨gap, _, _, _, hgap, rfl, .text h, hrun⟩
  | scalar h =>
    cases hstep
    exact ⟨gap, _, _, _, hgap, rfl, h, hrun⟩
  | _ => cases hstep

theorem itemsSound (hvalue : ValueSound cs)
    (hitems : ∀ cs' : List Char, cs'.length < cs.length → ItemsSound cs') : ItemsSound cs := by
  intro text stack items out henters
  obtain ⟨gap, cs', d, rest, hgap, rfl, hd, hrun⟩ := hvalue _ _ _ henters
  -- behind an item a comma or the end of the list is due
  rcases run_eq_ok hrun with ⟨-, hresult⟩ |
    ⟨t, gap', behind, tail, m, hgap', rfl, htoken, hstep, hrun'⟩
  · cases hresult
  · cases htoken with
    | comma =>
      cases hstep
      have hlength := hd.length_lt
      have hshorter : tail.length < (gap ++ cs').length := by
        simp only [List.length_append, List.length_cons] at hlength ⊢
        omega
      obtain ⟨ds, rest, hds, hrun''⟩ := hitems tail hshorter text stack _ out (enters_of_run hrun')
      refine ⟨d :: ds, rest, .item hgap hgap' hd hds, ?_⟩
      rwa [List.append_assoc, List.singleton_append] at hrun''
    | closeList =>
      cases hstep
      exact ⟨[d], tail, .lastItem hgap hgap' hd, hrun'⟩
    | _ => cases hstep

theorem entriesSound (hvalue : ∀ cs' : List Char, cs'.length < cs.length → ValueSound cs')
    (hentries : ∀ cs' : List Char, cs'.length < cs.length → EntriesSound cs') :
    EntriesSound cs := by
  rintro text stack entries out ⟨gap, cs', key, rest, hgap, rfl, hkey, hrun⟩
  rcases run_eq_ok hrun with ⟨-, hresult⟩ |
    ⟨t, gap', behind, tail, m, hgap', rfl, htoken, hstep, hrun'⟩
  · cases stack <;> cases hresult
  · cases htoken with
    | colon =>
      cases hstep
      have hlength := hkey.length_lt
      have hshorter : tail.length < (gap ++ '"' :: cs').length := by
        simp only [List.length_append, List.length_cons] at hlength ⊢
        omega
      obtain ⟨gap'', cs'', d, rest, hgap'', rfl, hd, hrun''⟩ :=
        hvalue tail hshorter text _ out (enters_of_run hrun')
      have hentry := Spells.entry hgap hgap' hgap'' hkey hd
      have hlength' := hd.length_lt
      -- behind the value another entry follows or the map is closed
      rcases run_eq_ok hrun'' with ⟨-, hresult⟩ |
        ⟨t, spaces, behind, tail, m, hlast, rfl, htoken, hstep, hlater⟩
      · cases hresult
      · cases htoken with
        | comma =>
          cases hstep
          have hbehind : tail.length < (gap ++ '"' :: cs').length := by
            simp only [List.length_append, List.length_cons] at hlength hlength' ⊢
            omega
          obtain ⟨es, rest, hes, hdone⟩ :=
            hentries tail hbehind text stack _ out (entersKey_of_run hlater)
          exact ⟨_, rest, .moreEntries hlast hentry hes, hdone⟩
        | closeMap =>
          cases hstep
          exact ⟨_, tail, .lastEntry hlast hentry, hlater⟩
        | _ => cases hstep
    | _ => cases hstep

/-- From wherever a reader enters a part, it goes over one of the grammar. -/
theorem sound (cs : List Char) : ValueSound cs ∧ ItemsSound cs ∧ EntriesSound cs := by
  induction hn : cs.length using Nat.strong_induction_on generalizing cs with
  | h n ih =>
    subst hn
    have hitems : ∀ cs' : List Char, cs'.length < cs.length → ItemsSound cs' :=
      fun cs' h => (ih _ h cs' rfl).2.1
    have hentries : ∀ cs' : List Char, cs'.length < cs.length → EntriesSound cs' :=
      fun cs' h => (ih _ h cs' rfl).2.2
    have hvalue := valueSound hitems hentries
    exact ⟨hvalue, itemsSound hvalue hitems,
      entriesSound (fun cs' h => (ih _ h cs' rfl).1) hentries⟩

/-! ## Whole texts -/

/-- A whole run settles just on what the grammar spells. -/
theorem run_start_eq_ok_iff (text : List Char) :
    run true text .start (lexemes cs) = .ok out ↔ IsText Fits cs out := by
  constructor
  · intro h
    obtain ⟨gap, cs', d, rest, hgap, rfl, hd, hrun⟩ := (sound cs).1 text [] out (enters_of_run h)
    rcases run_eq_ok hrun with ⟨⟨start, hfinish⟩, hresult⟩ |
      ⟨t, gap', behind, tail, m, -, -, -, hstep, -⟩
    · cases hresult
      exact ⟨gap, cs', rest, hgap, gap_of_next hfinish, rfl, hd⟩
    · cases hstep
  · rintro ⟨gap, cs', gap', hgap, hgap', rfl, hd⟩
    have hstops : Stops gap' := by
      rw [← List.append_nil gap']
      exact stops_gap_append hgap' (by simp [Stops])
    have hend : next gap' = .finish [] := by
      rw [← List.append_nil gap', next_gap_append hgap']
      rfl
    rw [lexemes_gap hgap, takes_of_spells hd .start [] (awaits_value _ []) hstops]
    exact run_of_finish hend rfl

/-- A strict reader takes a text for a document just when the grammar spells it so, with integers
that have no more digits than are converted. -/
theorem parseChars_eq_ok_iff : parseChars true cs = .ok out ↔ IsText Fits cs out := by
  rw [← run_start_eq_ok_iff cs]
  unfold parseChars
  split
  · next rest =>
    -- a byte order mark is no token, so a run would refuse it as well
    have hnext : next ('\uFEFF' :: rest) = .fault .expectedValue ('\uFEFF' :: rest) := rfl
    rw [lexemes_of_fault hnext]
    constructor
    · intro h
      cases h
    · intro h
      rcases run_cons_eq_ok h with ⟨hfinish, -⟩ | ⟨m', hstep, -⟩
      · cases hfinish
      · exact absurd hstep (step_fault_ne _ m' _)
  · rfl

end ThemeLocales.Json
