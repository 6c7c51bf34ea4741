import ThemeLocales.Project.LocaleFile
import ThemeLocales.Proofs.Document.Points
import ThemeLocales.Proofs.Json.Scalar

/-!
# What is written is read back

A reader that meets the text of a storable document settles on that document and goes on with what
follows (`readBack_of_storable`). The induction is on the document; in a container the reader has
read some items or entries already, so the statement for these takes any of them along. A reader
reads code points, and no surrogate stands alone in what is written, so it has read a document of
strings.
-/

set_option autoImplicit false

namespace ThemeLocales.Json

open Document Text

/-! ## Tokens of a written text -/

theorem gap_newLine (level : ℕ) : Gap (newLine level) := by
  intro c hc
  rw [newLine] at hc
  rcases List.mem_cons.1 hc with rfl | hspace
  · decide
  · rw [List.eq_of_mem_replicate hspace]
    decide

theorem lexemes_newLine (level : ℕ) (cs : List Char) :
    lexemes (newLine level ++ cs) = lexemes cs :=
  lexemes_gap (gap_newLine level) cs

theorem stops_newLine (level : ℕ) (cs : List Char) : Stops (newLine level ++ cs) :=
  stops_cons rfl _

/-- The text of a key or a value is one token. -/
theorem next_stringText (s : String) (rest : List Char) :
    next (stringText s ++ rest) = .token (.text (points s)) (stringText s ++ rest) rest := by
  have htext : stringText s ++ rest = '"' :: (s.toList.flatMap charText ++ '"' :: rest) := by
    simp [stringText]
  rw [htext, next_of_stringBody (stringBody_flatMap s.toList rest), points]

/-! ## Values -/

/-- The text of a double of the format is one token for it. -/
theorem next_real {x : Binary64} (hx : x.Canonical) {rest : List Char} (hrest : Stops rest) :
    ∃ t start, next ((x.textWith constantTexts).toList ++ rest) = .token t start rest ∧
      ∀ stack, Machine.onValue false stack t = .ok ⟨stack, .settled (.real x)⟩ := by
  cases x with
  | nan => exact ⟨.constant "NaN" .nan, _, rfl, fun _ => rfl⟩
  | infinity negative =>
    cases negative with
    | true => exact ⟨.constant "-Infinity" (.infinity true), _, rfl, fun _ => rfl⟩
    | false => exact ⟨.constant "Infinity" (.infinity false), _, rfl, fun _ => rfl⟩
  | finite negative m e =>
    rw [toList_textWith]
    -- the shortest digits are found for positive doubles; a zero has a text of its own
    rcases Nat.eq_zero_or_pos m with rfl | hm
    · have he : e = Binary64.leastExponent := hx.2.2.2.resolve_left (by decide)
      have hzero : Binary64.finiteText 0 e = (⟨['0'], ['0'], none⟩ : Numeral).chars := rfl
      rw [hzero]
      refine ⟨_, _, next_numeral negative ⟨Or.inl rfl, by simp; decide, by simp⟩ hrest,
        fun stack => ?_⟩
      rw [he]
      cases negative <;> rfl
    · obtain ⟨n, htext, hwell, hreal, hvalue⟩ :=
        Binary64.finiteText_spec negative hm hx
      rw [htext]
      refine ⟨_, _, next_numeral negative hwell hrest, fun stack => ?_⟩
      simp only [Numeral.token, hreal, if_true, hvalue]
      rfl

/-- The text of a storable scalar is one token for it. -/
theorem next_scalarText {d : Document} (hd : d.kind = .scalar) (hfits : d.Fits)
    {rest : List Char} (hrest : Stops rest) :
    ∃ t start, next (scalarText d ++ rest) = .token t start rest ∧
      ∀ stack, Machine.onValue false stack t = .ok ⟨stack, .settled d.toPoints⟩ := by
  cases d with
  | null => exact ⟨.scalar .null, _, rfl, fun _ => rfl⟩
  | bool b =>
    cases b with
    | true => exact ⟨.scalar (.bool true), _, rfl, fun _ => rfl⟩
    | false => exact ⟨.scalar (.bool false), _, rfl, fun _ => rfl⟩
  | int n =>
    -- An integer is written as a numeral without a fraction and an exponent.
    have hchars : scalarText (.int n) =
        signChars (decide (n < 0)) ++ (⟨Nat.toDigits 10 n.natAbs, [], none⟩ : Numeral).chars := by
      rw [scalarText, toList_toString_int]
      simp [Numeral.chars, Numeral.fractionChars, Numeral.exponentChars]
    rw [hchars]
    refine ⟨_, _, next_numeral _ ⟨Numeral.isWhole_toDigits _, by simp, by simp⟩ hrest,
      fun stack => ?_⟩
    have hshort : ¬ Number.longestInteger < (Nat.toDigits 10 n.natAbs).length := by
      exact Nat.not_lt.2 hfits
    simp only [Numeral.token, Numeral.isReal, List.isEmpty_nil, Bool.not_true, Option.isSome_none,
      Bool.or_self, Bool.false_eq_true, if_false, hshort, Text.digitsValue_toDigits,
      Numeral.signed_natAbs]
    rfl
  | real x => exact next_real hfits hrest
  | string s => exact ⟨.text (points s), _, next_stringText s rest, fun _ => rfl⟩
  | list => simp [kind] at hd
  | map => simp [kind] at hd

theorem indentedChars_scalar {d : Document} (hd : d.kind = .scalar) (level : ℕ) :
    indentedChars level d = scalarText d := by
  cases d with
  | list => simp [kind] at hd
  | map => simp [kind] at hd
  | _ => rfl

/-! ## Containers -/

/-- A reader that meets the text of `d` settles on `d`. -/
def ReadBack (text : List Char) (d : Document) : Prop :=
  ∀ level rest m stack, Awaits false m stack → Stops rest →
    run false text m (lexemes (indentedChars level d ++ rest)) =
      run false text ⟨stack, .settled d.toPoints⟩ (lexemes rest)

variable {text : List Char}

theorem readBack_scalar {d : Document} (hd : d.kind = .scalar) (hfits : d.Fits) :
    ReadBack text d := by
  intro level rest m stack hm hrest
  obtain ⟨t, start, hnext, hvalue⟩ := next_scalarText hd hfits hrest
  rw [indentedChars_scalar hd]
  exact run_of_next hnext (hm t _ (hvalue stack))

/-- A reader inside a list takes the items that are left. -/
theorem run_indentedItems {ds : List Document} (hds : ∀ d ∈ ds, ReadBack text d) (hne : ds ≠ [])
    (level outer : ℕ) (rest : List Char) (stack : List Frame) (items : List (Document Points))
    (m : Machine) (hm : Awaits false m (.list items :: stack)) :
    run false text m
        (lexemes (indentedItems level ds ++ (newLine outer ++ ']' :: rest))) =
      run false text ⟨stack, .settled (.list (items ++ ds.map toPoints))⟩ (lexemes rest) := by
  induction ds generalizing items m with
  | nil => exact absurd rfl hne
  | cons d ds ih =>
    have hd := hds d List.mem_cons_self
    -- the bracket closes the list after the last item, a comma goes on after the others
    cases ds with
    | nil =>
      rw [indentedItems, List.append_assoc, lexemes_newLine,
        hd level _ m _ hm (stops_newLine outer _), lexemes_newLine]
      exact run_of_next (next_of_punctuation rfl rfl rest) rfl
    | cons d' ds =>
      have hcomma : Stops (',' :: (indentedItems level (d' :: ds) ++
          (newLine outer ++ ']' :: rest))) := stops_cons rfl _
      have hsplit : indentedItems level (d :: d' :: ds) ++ (newLine outer ++ ']' :: rest) =
          newLine level ++ (indentedChars level d ++ (',' :: (indentedItems level (d' :: ds) ++
            (newLine outer ++ ']' :: rest)))) := by
        simp [indentedItems]
      rw [hsplit, lexemes_newLine, hd level _ m _ hm hcomma,
        run_of_next (next_of_punctuation rfl rfl _) rfl,
        ih (fun x hx => hds x (List.mem_cons_of_mem d hx)) (List.cons_ne_nil _ _)
          (items ++ [toPoints d]) _
          (awaits_value _ _)]
      simp

/-- A reader inside a map takes the key, the colon and the value of one entry. -/
theorem run_indentedEntry {key : String} {d : Document} (hd : ReadBack text d) (level : ℕ)
    {stack : List Frame} {entries : List (Points × Document Points)} {m : Machine}
    (hm : AwaitsKey false m stack entries) {after : List Char} (hafter : Stops after) :
    run false text m (lexemes (newLine level ++ (stringText key ++ (':' :: ' ' ::
        (indentedChars level d ++ after))))) =
      run false text ⟨.entry entries (points key) :: stack, .settled d.toPoints⟩
        (lexemes after) := by
  have hspace : lexemes (' ' :: (indentedChars level d ++ after)) =
      lexemes (indentedChars level d ++ after) :=
    lexemes_congr (next_of_gap (by decide) _)
  rw [lexemes_newLine, run_of_next (next_stringText key _) (hm _),
    run_of_next (next_of_punctuation rfl rfl _) rfl, hspace]
  exact hd level after _ _ (awaits_value _ _) hafter

/-- An entry of strings, written as code points. -/
def pointsEntry (e : String × Document) : Points × Document Points :=
  (points e.1, e.2.toPoints)

/-- Keys that are strings are told apart by their code points. -/
theorem nodup_pointsEntry {es : List (String × Document)} (h : (es.map Prod.fst).Nodup) :
    ((es.map pointsEntry).map Prod.fst).Nodup := by
  have hkeys : (es.map pointsEntry).map Prod.fst = (es.map Prod.fst).map points := by
    rw [List.map_map, List.map_map]
    rfl
  rw [hkeys]
  exact h.map (Function.LeftInverse.injective ofPoints_points)

/-- A reader inside a map takes the entries that are left. -/
theorem run_indentedEntries {es : List (String × Document)}
    (hes : ∀ e ∈ es, ReadBack text e.2) (hne : es ≠ []) (level outer : ℕ) (rest : List Char)
    (stack : List Frame) (entries : List (Points × Document Points)) (m : Machine)
    (hm : AwaitsKey false m stack entries)
    (hkeys : ((entries ++ es.map pointsEntry).map Prod.fst).Nodup) :
    run false text m
        (lexemes (indentedEntries level es ++ (newLine outer ++ '}' :: rest))) =
      run false text ⟨stack, .settled (.map (entries ++ es.map pointsEntry))⟩ (lexemes rest) := by
  induction es generalizing entries m with
  | nil => exact absurd rfl hne
  | cons e es ih =>
    obtain ⟨key, d⟩ := e
    have hd := hes (key, d) List.mem_cons_self
    -- the key is new, so setting it adds an entry at the end
    have hnew : points key ∉ entries.map Prod.fst := by
      intro hmem
      rw [List.map_append, List.nodup_append] at hkeys
      exact hkeys.2.2 _ hmem (points key) (by simp [pointsEntry]) rfl
    cases es with
    | nil =>
      have hsplit : indentedEntries level [(key, d)] ++ (newLine outer ++ '}' :: rest) =
          newLine level ++ (stringText key ++ (':' :: ' ' ::
            (indentedChars level d ++ (newLine outer ++ '}' :: rest)))) := by
        simp [indentedEntries]
      rw [hsplit, run_indentedEntry hd level hm (stops_newLine outer _), lexemes_newLine,
        run_of_next (next_of_punctuation rfl rfl rest) rfl, Assoc.set_of_not_mem _ hnew]
      rfl
    | cons e' es =>
      have hsplit : indentedEntries level ((key, d) :: e' :: es) ++ (newLine outer ++ '}' :: rest) =
          newLine level ++ (stringText key ++ (':' :: ' ' :: (indentedChars level d ++
            (',' :: (indentedEntries level (e' :: es) ++ (newLine outer ++ '}' :: rest)))))) := by
        simp [indentedEntries]
      rw [hsplit, run_indentedEntry hd level hm (stops_cons rfl _),
        run_of_next (next_of_punctuation rfl rfl _) rfl, Assoc.set_of_not_mem _ hnew,
        ih (fun x hx => hes x (List.mem_cons_of_mem _ hx)) (List.cons_ne_nil _ _)
          (entries ++ [pointsEntry (key, d)]) _ (fun _ => rfl) (by simpa using hkeys)]
      simp

/-- A list is read back whatever follows it, because its last bracket ends it. -/
theorem run_indentedList {ds : List Document} (hds : ∀ d ∈ ds, ReadBack text d) (level : ℕ)
    (rest : List Char) {m : Machine} {stack : List Frame} (hm : Awaits false m stack) :
    run false text m (lexemes (indentedChars level (.list ds) ++ rest)) =
      run false text ⟨stack, .settled (toPoints (.list ds))⟩ (lexemes rest) := by
  rw [toPoints_list]
  have hopen : ∀ cs, run false text m (lexemes ('[' :: cs)) =
      run false text ⟨stack, .firstItem⟩ (lexemes cs) := fun cs =>
    run_of_next (next_of_punctuation rfl rfl cs) (hm _ _ rfl)
  cases ds with
  | nil =>
    change run false text m (lexemes ('[' :: ']' :: rest)) = _
    rw [hopen]
    exact run_of_next (next_of_punctuation rfl rfl rest) rfl
  | cons d ds =>
    have hsplit : indentedChars level (.list (d :: ds)) ++ rest =
        '[' :: (indentedItems (level + 1) (d :: ds) ++ (newLine level ++ ']' :: rest)) := by
      simp [indentedChars]
    rw [hsplit, hopen]
    exact run_indentedItems hds (List.cons_ne_nil _ _) _ _ _ _ [] _ (awaits_firstItem _ stack)

/-- A map is read back whatever follows it, because its last brace ends it. -/
theorem run_indentedMap {es : List (String × Document)} (hes : ∀ e ∈ es, ReadBack text e.2)
    (hkeys : (es.map Prod.fst).Nodup) (level : ℕ) (rest : List Char) {m : Machine}
    {stack : List Frame} (hm : Awaits false m stack) :
    run false text m (lexemes (indentedChars level (.map es) ++ rest)) =
      run false text ⟨stack, .settled (toPoints (.map es))⟩ (lexemes rest) := by
  have hpoints : toPoints (.map es) = .map (es.map pointsEntry) := toPoints_map es
  rw [hpoints]
  have hopen : ∀ cs, run false text m (lexemes ('{' :: cs)) =
      run false text ⟨stack, .firstKey⟩ (lexemes cs) := fun cs =>
    run_of_next (next_of_punctuation rfl rfl cs) (hm _ _ rfl)
  cases es with
  | nil =>
    change run false text m (lexemes ('{' :: '}' :: rest)) = _
    rw [hopen]
    exact run_of_next (next_of_punctuation rfl rfl rest) rfl
  | cons e es =>
    have hsplit : indentedChars level (.map (e :: es)) ++ rest =
        '{' :: (indentedEntries (level + 1) (e :: es) ++ (newLine level ++ '}' :: rest)) := by
      simp [indentedChars]
    rw [hsplit, hopen]
    exact run_indentedEntries hes (List.cons_ne_nil _ _) _ _ _ _ [] _ (fun _ => rfl)
      (nodup_pointsEntry hkeys)

/-- The text of a storable document is read back. -/
theorem readBack_of_storable {d : Document} (hd : d.Storable) : ReadBack text d := by
  induction d using structuralRec with
  | scalar d hscalar => exact readBack_scalar hscalar hd.fits
  | list ds ih =>
    intro level rest m stack hm _
    have hds : ∀ d ∈ ds, ReadBack text d := fun d hmem =>
      ih d hmem (storable_list_iff.1 hd d hmem)
    exact run_indentedList hds level rest hm
  | map es ih =>
    intro level rest m stack hm _
    have hes : ∀ e ∈ es, ReadBack text e.2 := fun e hmem =>
      ih e hmem ((storable_map_iff.1 hd).2 e hmem)
    exact run_indentedMap hes (storable_map_iff.1 hd).1 level rest hm

/-! ## Whole texts -/

/-- A text that begins with a token begins with no byte order mark. -/
theorem parseChars_of_next {text start rest : List Char} {t : Token}
    (h : next text = .token t start rest) :
    parseChars false text = run false text .start (lexemes text) := by
  unfold parseChars
  split
  · cases h
  · rfl

/-- The text of a storable document begins with a token. -/
theorem exists_next_indentedChars {d : Document} (hd : d.Storable) {rest : List Char}
    (hrest : Stops rest) :
    ∃ t start after, next (indentedChars 0 d ++ rest) = .token t start after := by
  cases d with
  | list ds =>
    cases ds <;> exact ⟨_, _, _, next_of_punctuation rfl rfl _⟩
  | map es =>
    cases es <;> exact ⟨_, _, _, next_of_punctuation rfl rfl _⟩
  | _ =>
    obtain ⟨t, start, hnext, -⟩ := next_scalarText rfl hd.fits hrest
    exact ⟨t, start, _, hnext⟩

/-- A reader that has settled on strings has read a document of strings. -/
theorem asStrings_toPoints (d : Document) : asStrings d.toPoints = .ok d := by
  rw [asStrings, if_pos (isPaired_toPoints d), legible_toPoints]

/-- The text of a file with a storable document is read as that document. -/
theorem parse_localeText {d : Document} (hd : d.Storable) :
    parse (Project.localeText d) = .ok d := by
  have hstops : Stops ['\n'] := stops_cons rfl []
  have htext : (Project.localeText d).toList = indentedChars 0 d ++ ['\n'] := by
    rw [Project.localeText, String.toList_append, indented, String.toList_ofList]
    rfl
  obtain ⟨t, start, after, hnext⟩ := exists_next_indentedChars hd hstops
  have hend : lexemes ['\n'] = [⟨.finish, []⟩] := lexemes_of_finish rfl
  have hrun : run false (indentedChars 0 d ++ ['\n']) .start
      (lexemes (indentedChars 0 d ++ ['\n'])) = .ok d.toPoints := by
    change run false _ ⟨[], .value⟩ _ = _
    rw [readBack_of_storable hd 0 ['\n'] _ [] (awaits_value _ []) hstops, hend]
    rfl
  rw [parse, htext, parseChars_of_next hnext, hrun]
  exact asStrings_toPoints d

/-- The text of a storable map is read as that map, also without a line feed behind it. -/
theorem parse_indented_map {es : List (String × Document)} (h : (map es).Storable) :
    parse (indented (.map es)) = .ok (.map es) := by
  have htext : (indented (.map es)).toList = indentedChars 0 (.map es) ++ [] := by
    rw [indented, String.toList_ofList, List.append_nil]
  obtain ⟨t, start, after, hnext⟩ : ∃ t start after,
      next (indentedChars 0 (.map es) ++ []) = .token t start after := by
    cases es <;> exact ⟨_, _, _, next_of_punctuation rfl rfl _⟩
  have hend : lexemes [] = [⟨.finish, []⟩] := lexemes_of_finish rfl
  have hes : ∀ e ∈ es, ReadBack (indentedChars 0 (.map es) ++ []) e.2 := fun e he =>
    readBack_of_storable ((storable_map_iff.1 h).2 e he)
  have hrun : run false (indentedChars 0 (.map es) ++ []) .start
      (lexemes (indentedChars 0 (.map es) ++ [])) = .ok (toPoints (.map es)) := by
    change run false _ ⟨[], .value⟩ _ = _
    rw [run_indentedMap hes (storable_map_iff.1 h).1 0 [] (awaits_value _ []), hend]
    rfl
  rw [parse, htext, parseChars_of_next hnext, hrun]
  exact asStrings_toPoints (.map es)

/-! ## Line ends -/

theorem not_mem_numeral {n : Numeral} (hn : n.WellFormed) : '\r' ∉ n.chars := by
  have hdigits : ∀ ds : List Char, (∀ d ∈ ds, Text.isAsciiDigit d = true) → '\r' ∉ ds :=
    fun ds hds hmem => absurd (hds _ hmem) (by decide)
  have hwhole := hdigits _ hn.whole.digits
  have hfraction := hdigits _ hn.fraction
  rw [Numeral.chars, List.mem_append, List.mem_append, not_or, not_or]
  refine ⟨⟨hwhole, ?_⟩, ?_⟩
  · cases hfr : n.fraction with
    | nil => simp [Numeral.fractionChars]
    | cons c cs =>
      rw [hfr] at hfraction
      exact List.not_mem_cons_of_ne_of_not_mem (by decide) hfraction
  · cases hexp : n.exponent with
    | none => simp [Numeral.exponentChars]
    | some p =>
      obtain ⟨negative, ds⟩ := p
      have hds := hdigits _ (hn.exponent _ hexp).2
      cases negative <;> simp [Numeral.exponentChars, hds]

theorem not_mem_signChars (negative : Bool) : '\r' ∉ signChars negative := by
  cases negative <;> decide

theorem not_mem_charText (c : Char) : '\r' ∉ charText c := by
  unfold charText
  split_ifs with h₁ h₂ h₃ h₄ h₅ h₆ h₇ h₈
  · decide
  · decide
  · decide
  · decide
  · decide
  · decide
  · decide
  · generalize c.toNat = n at h₈
    interval_cases n <;> decide
  · rw [List.mem_singleton]
    exact fun h => h₄ h.symm

theorem not_mem_stringText (s : String) : '\r' ∉ stringText s := by
  have hbody : '\r' ∉ s.toList.flatMap charText := by
    rw [List.mem_flatMap]
    rintro ⟨c, -, hc⟩
    exact not_mem_charText c hc
  simp [stringText, hbody]

theorem not_mem_scalarText {d : Document} (hd : d.Fits) : '\r' ∉ scalarText d := by
  cases d with
  | null => decide
  | bool b => cases b <;> decide
  | int n =>
    rw [scalarText, toList_toString_int, List.mem_append, not_or]
    exact ⟨not_mem_signChars _, fun h => absurd (Text.isAsciiDigit_of_mem_toDigits h) (by decide)⟩
  | real x =>
    cases x with
    | nan => decide
    | infinity negative => cases negative <;> decide
    | finite negative m e =>
      rw [scalarText, toList_textWith, List.mem_append, not_or]
      refine ⟨not_mem_signChars _, ?_⟩
      rcases Nat.eq_zero_or_pos m with rfl | hm
      · simp [Binary64.finiteText]
      · obtain ⟨n, htext, hwell, -, -⟩ := Binary64.finiteText_spec negative hm hd
        rw [htext]
        exact not_mem_numeral hwell
  | string s => exact not_mem_stringText s
  | list => simp [scalarText]
  | map => simp [scalarText]

theorem not_mem_newLine (level : ℕ) : '\r' ∉ newLine level := by
  rw [newLine, List.mem_cons, not_or]
  exact ⟨by decide, fun h => absurd (List.mem_replicate.1 h).2 (by decide)⟩

theorem not_mem_indentedItems {level : ℕ} {ds : List Document}
    (h : ∀ d ∈ ds, '\r' ∉ indentedChars level d) : '\r' ∉ indentedItems level ds := by
  induction ds with
  | nil => exact List.not_mem_nil
  | cons d ds ih =>
    obtain ⟨hd, hds⟩ := List.forall_mem_cons.1 h
    have hrest := ih hds
    cases ds <;> simp_all [indentedItems, not_mem_newLine]

theorem not_mem_indentedEntries {level : ℕ} {es : List (String × Document)}
    (h : ∀ e ∈ es, '\r' ∉ indentedChars level e.2) : '\r' ∉ indentedEntries level es := by
  induction es with
  | nil => exact List.not_mem_nil
  | cons e es ih =>
    obtain ⟨he, hes⟩ := List.forall_mem_cons.1 h
    have hrest := ih hes
    cases es <;> simp_all [indentedEntries, not_mem_newLine, not_mem_stringText]

/-- No carriage return stands in a written document. -/
theorem not_mem_indentedChars {d : Document} (hd : d.Storable) (level : ℕ) :
    '\r' ∉ indentedChars level d := by
  induction d using structuralRec generalizing level with
  | scalar d hscalar =>
    rw [indentedChars_scalar hscalar]
    exact not_mem_scalarText hd.fits
  | list ds ih =>
    have hds := not_mem_indentedItems fun d hmem =>
      ih d hmem (storable_list_iff.1 hd d hmem) (level + 1)
    cases ds with
    | nil => simp [indentedChars]
    | cons d ds => simp [indentedChars, hds, not_mem_newLine]
  | map es ih =>
    have hes := not_mem_indentedEntries fun e hmem =>
      ih e hmem ((storable_map_iff.1 hd).2 e hmem) (level + 1)
    cases es with
    | nil => simp [indentedChars]
    | cons e es => simp [indentedChars, hes, not_mem_newLine]

theorem unifyLineEnds_of_not_mem {cs : List Char} (h : '\r' ∉ cs) :
    Text.unifyLineEnds cs = cs := by
  induction cs with
  | nil => rfl
  | cons c cs ih =>
    rw [List.mem_cons, not_or] at h
    rw [Text.unifyLineEnds, ih h.2]
    · exact fun _ hc _ => h.1 hc.symm
    · exact fun hc => h.1 hc.symm

/-- The bytes of a text are decoded as it. -/
theorem fromUTF8?_toUTF8 (s : String) : String.fromUTF8? s.toUTF8 = some s :=
  dif_pos s.isValidUTF8

/-- The bytes of a text without carriage returns are read as it. -/
theorem readText_toUTF8 {s : String} (h : '\r' ∉ s.toList) : Text.readText s.toUTF8 = .ok s := by
  rw [Text.readText, Text.decode, fromUTF8?_toUTF8]
  simp only [Except.map, unifyLineEnds_of_not_mem h, String.ofList_toList]

theorem not_mem_indented {d : Document} (hd : d.Storable) : '\r' ∉ (indented d).toList := by
  rw [indented, String.toList_ofList]
  exact not_mem_indentedChars hd 0

/-- The bytes of a written document are read as its text. -/
theorem readText_localeText {d : Document} (hd : d.Storable) :
    Text.readText (Project.localeText d).toUTF8 = .ok (Project.localeText d) := by
  refine readText_toUTF8 ?_
  rw [Project.localeText, String.toList_append, List.mem_append, not_or]
  exact ⟨not_mem_indented hd, by decide⟩

end ThemeLocales.Json
