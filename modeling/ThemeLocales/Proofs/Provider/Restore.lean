import Mathlib.Data.List.Nodup
import ThemeLocales.Proofs.Provider.Placeholder

/-!
# Putting markup back

The tokens of an answer are replaced one after the other, each in the whole text. This comes to the
same as replacing every token by its own markup at once (`restore_extract`), as long as the ids are
distinct and do not occur outside of tokens. One replacement changes the entries of one id and
nothing else (`replaceAll_fill`), for an id cannot reach out of a token (`not_prefix_token`); the
rest is an induction on the table (`restore_pending`).
-/

set_option autoImplicit false

namespace ThemeLocales.Provider.Placeholder

open Text

variable {ids : Nat → TokenId} {n : Nat} {id id' : TokenId} {cs front part back : List Char}
  {pieces : List Piece}

/-! ## Ids -/

/-- The number that digits of base sixteen spell. -/
def hexValue (cs : List Char) : Nat :=
  cs.foldl (fun value c => value * 16 + (baseDigit? c).getD 0) 0

theorem hexValue_toDigits (n : Nat) : hexValue (Nat.toDigits 16 n) = n := by
  have hdigit : ∀ d < 16, (baseDigit? d.digitChar).getD 0 = d := by decide
  induction n using Nat.strong_induction_on with
  | h n ih =>
    rcases Nat.lt_or_ge n 16 with hlt | hge
    · rw [Nat.toDigits_of_lt_base hlt, hexValue, List.foldl_cons, List.foldl_nil, hdigit n hlt]
      omega
    · have hrest := ih (n / 16) (by omega)
      rw [hexValue] at hrest
      rw [Nat.toDigits_of_base_le (by decide) hge, hexValue, List.foldl_append, hrest,
        List.foldl_cons, List.foldl_nil, hdigit (n % 16) (Nat.mod_lt n (by decide))]
      omega

theorem hexValue_zeros (k : Nat) (cs : List Char) :
    hexValue (List.replicate k '0' ++ cs) = hexValue cs := by
  induction k with
  | zero => rfl
  | succ k ih =>
    rw [List.replicate_succ, List.cons_append, ← ih]
    rfl

theorem hexValue_hex (id : TokenId) : hexValue (hex id).toList = id.toNat := by
  rw [hex, padded, String.toList_ofList, hexValue_zeros, hexValue_toDigits]

/-- The digits of an id spell it. -/
theorem hex_injective : Function.Injective hex := by
  intro id id' h
  apply BitVec.eq_of_toNat_eq
  rw [← hexValue_hex id, h, hexValue_hex id']

theorem underscore_not_mem_hex (id : TokenId) : '_' ∉ (hex id).toList := by
  intro h
  exact absurd (mem_hex h) (by decide)

/-- A text that is shorter than an id does not contain it. -/
theorem not_hex_infix_of_short (h : cs.length < 32) : ¬ (hex id).toList <:+: cs := by
  intro hwithin
  have hlength := hwithin.length_le
  rw [length_hex] at hlength
  omega

/-- The id of one token does not occur in another. -/
theorem not_hex_infix_token (h : id ≠ id') : ¬ (hex id).toList <:+: (token id').toList := by
  have hunderscore := underscore_not_mem_hex id
  intro hwithin
  have htoken : (token id').toList =
      [] ++ '_' :: ([] ++ '_' :: (['P', 'H'] ++ '_' :: ((hex id').toList ++ '_' :: ['_']))) := by
    rw [toList_token]
    simp
  rw [htoken] at hwithin
  rcases infix_of_infix_around hunderscore hwithin with hempty | hwithin
  · exact not_hex_infix_of_short (by decide) hempty
  rcases infix_of_infix_around hunderscore hwithin with hempty | hwithin
  · exact not_hex_infix_of_short (by decide) hempty
  rcases infix_of_infix_around hunderscore hwithin with hletters | hwithin
  · exact not_hex_infix_of_short (by decide) hletters
  rcases infix_of_infix_around hunderscore hwithin with hid | hend
  · have hsame : (hex id).toList = (hex id').toList :=
      hid.eq_of_length (by rw [length_hex, length_hex])
    exact h (hex_injective (String.toList_injective hsame))
  · exact not_hex_infix_of_short (by decide) hend

theorem token_injective : Function.Injective token := by
  intro id id' h
  by_contra hne
  refine not_hex_infix_token hne ?_
  rw [← h, toList_token]
  exact ⟨_, _, rfl⟩

theorem fenced_token (id id' : TokenId) : Fenced (hex id).toList (token id').toList := by
  have hunderscore := underscore_not_mem_hex id
  rw [toList_token]
  constructor
  · simp
  · rintro c ⟨⟩
    exact hunderscore
  · intro c hc
    rw [List.getLast?_append] at hc
    cases hc
    exact hunderscore

theorem fenced_markup (id : TokenId) (h : IsMarkup cs) : Fenced (hex id).toList cs := by
  have hmarks : ∀ c ∈ ['{', '<', '}', '>'], c ∉ hexDigits := by simp [hexDigits]
  have hforeign : ∀ c ∈ ['{', '<', '}', '>'], c ∉ (hex id).toList := by
    intro c hc hmem
    exact hmarks c hc (mem_hex hmem)
  constructor
  · rintro rfl
    exact absurd h.head (by decide)
  · intro c hc
    rcases h.head with hhead | hhead
    · cases hc.symm.trans hhead
      exact hforeign '{' (by decide)
    · cases hc.symm.trans hhead
      exact hforeign '<' (by decide)
  · intro c hc
    rcases h.last with hlast | hlast
    · cases hc.symm.trans hlast
      exact hforeign '}' (by decide)
    · cases hc.symm.trans hlast
      exact hforeign '>' (by decide)

/-- A token does not begin in front of itself, in a text without its id: the underscores of the
token that is there would stand in the digits of the other. -/
theorem not_prefix_token (hne : part ≠ []) (hfree : ¬ (hex id).toList <:+: part) :
    ¬ (token id).toList <+: part ++ ((token id).toList ++ back) := by
  rintro ⟨tail, htail⟩
  have hpos : 0 < part.length := List.length_pos_iff.2 hne
  have htoken := toList_token id
  -- Where the second token has an underscore, the first one has no digit.
  have hdigit : ∀ k, (token id).toList[k]? = some '_' → 5 ≤ part.length + k →
      37 ≤ part.length + k := by
    intro k hk hge
    by_contra hlt
    have hshort : part.length + k - ['_', '_', 'P', 'H', '_'].length < (hex id).toList.length := by
      rw [length_hex]
      change part.length + k - 5 < 32
      omega
    have hk' : k < (token id).toList.length := (List.getElem?_eq_some_iff.1 hk).1
    have hsame := congrArg (fun cs => cs[part.length + k]?) htail
    simp only [List.getElem?_append_right (Nat.le_add_right part.length k),
      Nat.add_sub_cancel_left] at hsame
    rw [List.getElem?_append_left hk', hk, htoken, List.append_assoc, List.append_assoc,
      List.getElem?_append_right hge] at hsame
    rw [List.getElem?_append_left hshort] at hsame
    exact underscore_not_mem_hex id (List.mem_of_getElem? hsame)
  have hfirst : (token id).toList[0]? = some '_' := by rw [htoken]; rfl
  have hfifth : (token id).toList[4]? = some '_' := by rw [htoken]; rfl
  have hlong : 37 ≤ part.length := by
    rcases Nat.lt_or_ge part.length 5 with hlt | hge
    · have := hdigit 4 hfifth (by omega)
      omega
    · exact hdigit 0 hfirst hge
  -- The first token ends in the text in front, and so does its id.
  have hwhole : ['_', '_', 'P', 'H', '_'] ++ (hex id).toList <+:
      part ++ ((token id).toList ++ back) := by
    rw [← htail, htoken]
    exact (List.prefix_append _ _).trans (List.prefix_append _ _)
  have hinside : ['_', '_', 'P', 'H', '_'] ++ (hex id).toList <+: part := by
    refine List.prefix_of_prefix_length_le hwhole (List.prefix_append part _) ?_
    rw [List.length_append, length_hex]
    exact hlong
  exact hfree ((List.suffix_append _ _).isInfix.trans hinside.isInfix)

/-! ## Answers -/

/-- None of the ids occurs in a text. -/
def Lacking (ids : List TokenId) (cs : List Char) : Prop :=
  ∀ id ∈ ids, ¬ (hex id).toList <:+: cs

instance (ids : List TokenId) (cs : List Char) : Decidable (Lacking ids cs) :=
  inferInstanceAs (Decidable (∀ id ∈ ids, _))

theorem lacking_of_short {ids : List TokenId} (h : cs.length < 32) : Lacking ids cs :=
  fun _ _ => not_hex_infix_of_short h

/-- A text made of entries of a table: a chunk, and then entries with a chunk after each. -/
structure Answer where
  first : String
  rest : List ((String × String) × String)

/-- Entries that show in some way, with the chunks after them. -/
def fill (shown : String × String → String) (rest : List ((String × String) × String)) :
    List Char :=
  rest.flatMap fun (entry, chunk) => (shown entry).toList ++ chunk.toList

namespace Answer

/-- The text of an answer whose entries show in some way. -/
def text (shown : String × String → String) (a : Answer) : String :=
  String.ofList (a.first.toList ++ fill shown a.rest)

/-- The entries are those of a table. -/
def Uses (a : Answer) (table : List (String × String)) : Prop :=
  ∀ part ∈ a.rest, part.1 ∈ table

/-- The chunks have none of the ids. -/
structure Avoids (a : Answer) (ids : List TokenId) : Prop where
  first : Lacking ids a.first.toList
  rest : ∀ part ∈ a.rest, Lacking ids part.2.toList

end Answer

/-! ## One token -/

/-- Replacing a token changes the entries that show it, when the others do not have its id. -/
theorem replaceAll_fill {shown shown' : String × String → String} {substitute : List Char}
    {rest : List ((String × String) × String)} (hfront : ¬ (hex id).toList <:+: front)
    (hchunks : ∀ part ∈ rest, ¬ (hex id).toList <:+: part.2.toList)
    (hshown : ∀ part ∈ rest,
      (shown part.1 = token id ∧ (shown' part.1).toList = substitute) ∨
        (shown' part.1 = shown part.1 ∧ Fenced (hex id).toList (shown part.1).toList ∧
          ¬ (hex id).toList <:+: (shown part.1).toList)) :
    replaceAll (token id).toList substitute (front ++ fill shown rest) =
      front ++ fill shown' rest := by
  have hid : (hex id).toList <:+: (token id).toList := by
    rw [toList_token]
    exact ⟨_, _, rfl⟩
  -- What stands in front of the rest has no id, and grows with every entry that stays.
  induction rest generalizing front with
  | nil =>
    have hnone : ¬ (token id).toList <:+: front ++ fill shown [] := by
      intro htoken
      rw [fill, List.flatMap_nil, List.append_nil] at htoken
      exact hfront (hid.trans htoken)
    exact replaceAll_of_not_infix hnone
  | cons part rest ih =>
    obtain ⟨entry, chunk⟩ := part
    obtain ⟨hchunk, hchunks⟩ := List.forall_mem_cons.1 hchunks
    obtain ⟨hentry, hshown⟩ := List.forall_mem_cons.1 hshown
    have hcons : ∀ shown, fill shown ((entry, chunk) :: rest) =
        (shown entry).toList ++ (chunk.toList ++ fill shown rest) := by
      intro shown
      rw [fill, List.flatMap_cons, List.append_assoc]
      rfl
    rw [hcons, hcons]
    rcases hentry with ⟨htoken, hsubstitute⟩ | ⟨hsame, hfenced, hfree⟩
    · have hne : (token id).toList ≠ [] := (fenced_token id id).ne_nil
      rw [htoken, hsubstitute, replaceAll_append hne, ih hchunk hchunks hshown]
      intro part hpart hsuffix
      exact not_prefix_token hpart fun hwithin => hfront (hwithin.trans hsuffix.isInfix)
    · have hfront' : ¬ (hex id).toList <:+: front ++ (shown entry).toList ++ chunk.toList := by
        intro hwithin
        rcases infix_of_infix_fenced hfenced hwithin with h | h | h
        · exact hfront h
        · exact hfree h
        · exact hchunk h
      have hrest := ih hfront' hchunks hshown
      simp only [List.append_assoc] at hrest
      rw [hsame, hrest]

/-! ## All tokens -/

/-- An entry of a table: the token of an id, and markup that has none of the ids. -/
structure IsEntry (ids : List TokenId) (id : TokenId) (entry : String × String) : Prop where
  token : entry.1 = token id
  markup : IsMarkup entry.2.toList
  lacking : Lacking ids entry.2.toList

/-- The tokens of a table that are to be replaced show as tokens, and the others as what they stand
for. -/
def pending (table : List (String × String)) (entry : String × String) : String :=
  if entry ∈ table then entry.1 else entry.2

theorem exists_id_of_mem {all todo : List TokenId} {table : List (String × String)}
    {entry : String × String} (htable : List.Forall₂ (IsEntry all) todo table)
    (h : entry ∈ table) : ∃ id ∈ todo, IsEntry all id entry := by
  induction htable with
  | nil => cases h
  | cons hentry htable ih =>
    rcases List.mem_cons.1 h with rfl | h
    · exact ⟨_, List.mem_cons_self, hentry⟩
    · obtain ⟨id, hid, hentry⟩ := ih h
      exact ⟨id, List.mem_cons_of_mem _ hid, hentry⟩

/-- A replacement takes one entry off those that are pending. -/
theorem replaced_pending {all todo : List TokenId} {table : List (String × String)}
    {entry : String × String} {a : Answer} (hentry : IsEntry all id entry)
    (htable : List.Forall₂ (IsEntry all) todo table) (hid : id ∈ all) (hnew : id ∉ todo)
    (hparts : ∀ part ∈ a.rest, IsMarkup part.1.2.toList ∧ Lacking all part.1.2.toList)
    (havoids : a.Avoids all) :
    replaced entry.1 entry.2 (a.text (pending (entry :: table))) = a.text (pending table) := by
  -- The ids are distinct, so the entry is none of those that stay pending.
  have habsent : entry ∉ table := by
    intro hmem
    obtain ⟨id', hid', hentry'⟩ := exists_id_of_mem htable hmem
    have hsame : id = id' := token_injective (hentry.token.symm.trans hentry'.token)
    exact hnew (hsame ▸ hid')
  -- Each part shows the token of the entry, or something that does not have its id in it.
  have hshown : ∀ part ∈ a.rest,
      (pending (entry :: table) part.1 = token id ∧
          (pending table part.1).toList = entry.2.toList) ∨
        (pending table part.1 = pending (entry :: table) part.1 ∧
          Fenced (hex id).toList (pending (entry :: table) part.1).toList ∧
            ¬ (hex id).toList <:+: (pending (entry :: table) part.1).toList) := by
    intro part hpart
    by_cases heq : part.1 = entry
    · left
      rw [heq, pending, pending, if_pos List.mem_cons_self, if_neg habsent]
      exact ⟨hentry.token, rfl⟩
    · right
      have hsame : pending (entry :: table) part.1 = pending table part.1 := by
        simp only [pending, List.mem_cons, heq, false_or]
      rw [hsame]
      refine ⟨rfl, ?_⟩
      by_cases hmem : part.1 ∈ table
      · -- It shows as the token of another id.
        obtain ⟨id', hid', hentry'⟩ := exists_id_of_mem htable hmem
        have hne : id ≠ id' := fun h => hnew (h ▸ hid')
        rw [pending, if_pos hmem, hentry'.token]
        exact ⟨fenced_token id id', not_hex_infix_token hne⟩
      · obtain ⟨hmarkup, hlacking⟩ := hparts part hpart
        rw [pending, if_neg hmem]
        exact ⟨fenced_markup id hmarkup, hlacking id hid⟩
  rw [replaced, Answer.text, String.toList_ofList, hentry.token,
    replaceAll_fill (havoids.first id hid) (fun part hpart => havoids.rest part hpart id hid)
      hshown]
  rfl

/-- Restoring the tokens of the pending entries leaves none. -/
theorem restore_pending {all todo : List TokenId} {table : List (String × String)} {a : Answer}
    (htable : List.Forall₂ (IsEntry all) todo table) (htodo : todo.Nodup) (hall : todo ⊆ all)
    (hparts : ∀ part ∈ a.rest, IsMarkup part.1.2.toList ∧ Lacking all part.1.2.toList)
    (havoids : a.Avoids all) :
    restore (a.text (pending table)) table = a.text Prod.snd := by
  induction htable with
  | nil => rfl
  | @cons id entry todo table hentry htable ih =>
    obtain ⟨hnew, htodo⟩ := List.nodup_cons.1 htodo
    obtain ⟨hid, hall⟩ := List.cons_subset.1 hall
    have hstep := replaced_pending hentry htable hid hnew hparts havoids
    calc restore (a.text (pending (entry :: table))) (entry :: table)
        = restore (replaced entry.1 entry.2 (a.text (pending (entry :: table)))) table := rfl
      _ = restore (a.text (pending table)) table := by rw [hstep]
      _ = a.text Prod.snd := ih htodo hall

/-! ## Extracted texts -/

/-- The markup among pieces, from left to right. -/
def markups : List Piece → List (List Char)
  | [] => []
  | .plain _ :: rest => markups rest
  | .markup cs :: rest => cs :: markups rest

/-- The ids that are drawn for the markup of a text. -/
def drawn (ids : Nat → TokenId) (text : String) : List TokenId :=
  (List.range (markups (split text.toList)).length).map ids

/-- The markup of a text stands in it. -/
theorem isMarkup_of_mem_markups (h : Splits cs pieces) {markup : List Char}
    (hmem : markup ∈ markups pieces) : IsMarkup markup ∧ markup <:+: cs := by
  induction h with
  | nil => cases hmem
  | @plain c rest pieces hnone hrest ih =>
    obtain ⟨hmarkup, hwithin⟩ := ih hmem
    exact ⟨hmarkup, hwithin.trans (List.suffix_cons c rest).isInfix⟩
  | @markup cs found rest pieces hfound hrest ih =>
    obtain ⟨hmarkup, rfl⟩ := markup_of_markupAt? hfound
    rcases List.mem_cons.1 hmem with rfl | hmem
    · exact ⟨hmarkup, (List.prefix_append markup rest).isInfix⟩
    · obtain ⟨hmarkup, hwithin⟩ := ih hmem
      exact ⟨hmarkup, hwithin.trans (List.suffix_append found rest).isInfix⟩

/-- The entries of a tokenized text belong to the ids that are drawn, one after the other. -/
theorem forall₂_tokenize {all : List TokenId}
    (h : ∀ markup ∈ markups pieces, IsMarkup markup ∧ Lacking all markup) :
    List.Forall₂ (IsEntry all) ((List.range' n (markups pieces).length).map ids)
      (tokenize ids n pieces).2 := by
  induction pieces generalizing n with
  | nil => exact .nil
  | cons piece rest ih =>
    cases piece with
    | plain c => exact ih h
    | markup cs =>
      obtain ⟨⟨hmarkup, hlacking⟩, hrest⟩ := List.forall_mem_cons.1 h
      rw [markups, List.length_cons, List.range'_succ, List.map_cons]
      refine .cons ⟨rfl, ?_, ?_⟩ (ih hrest)
      · rwa [String.toList_ofList]
      · rwa [String.toList_ofList]

theorem keys_of_forall₂ {all todo : List TokenId} {table : List (String × String)}
    (h : List.Forall₂ (IsEntry all) todo table) : table.map Prod.fst = todo.map token := by
  induction h with
  | nil => rfl
  | cons hentry htable ih => rw [List.map_cons, List.map_cons, hentry.token, ih]

/-- A tokenized text is an answer, and the text itself is the same answer with its markup. -/
theorem exists_fill_tokenize (ids : Nat → TokenId) (n : Nat) (h : Splits cs pieces) :
    ∃ first rest, (tokenize ids n pieces).1 = first ++ fill Prod.fst rest ∧
      cs = first ++ fill Prod.snd rest ∧
      ∀ part ∈ rest, part.1 ∈ (tokenize ids n pieces).2 ∧ part.2.toList <:+: cs := by
  induction h generalizing n with
  | nil => exact ⟨[], [], rfl, rfl, by simp⟩
  | @plain c rest pieces hnone hrest ih =>
    obtain ⟨first, parts, htokens, rfl, hparts⟩ := ih n
    refine ⟨c :: first, parts, ?_, rfl, ?_⟩
    · simp only [tokenize, htokens, List.cons_append]
    · intro part hpart
      obtain ⟨hentry, hchunk⟩ := hparts part hpart
      exact ⟨hentry, hchunk.trans (List.suffix_cons c _).isInfix⟩
  | @markup cs markup rest pieces hmarkup hrest ih =>
    obtain ⟨first, parts, htokens, hcs, hparts⟩ := ih (n + 1)
    obtain ⟨-, rfl⟩ := markup_of_markupAt? hmarkup
    -- a piece of markup opens a part of its own, which the chunks so far follow
    let entry := (token (ids n), String.ofList markup)
    have hfill : ∀ shown, fill shown ((entry, String.ofList first) :: parts) =
        (shown entry).toList ++ (first ++ fill shown parts) := by
      intro shown
      simp only [fill, List.flatMap_cons, List.append_assoc, String.toList_ofList]
    refine ⟨[], (entry, String.ofList first) :: parts, ?_, ?_, ?_⟩
    · rw [List.nil_append, hfill, ← htokens]
      simp only [tokenize]
      rfl
    · rw [List.nil_append, hfill, ← hcs, String.toList_ofList]
    · intro part hpart
      simp only [tokenize]
      rcases List.mem_cons.1 hpart with rfl | hpart
      · refine ⟨List.mem_cons_self, ?_⟩
        rw [String.toList_ofList, hcs]
        exact ⟨markup, fill Prod.snd parts, List.append_assoc _ _ _⟩
      · obtain ⟨hentry, hchunk⟩ := hparts part hpart
        exact ⟨List.mem_cons_of_mem _ hentry, hchunk.trans (List.suffix_append markup rest).isInfix⟩

/-- When the ids drawn for a text do not occur in it, the entries of its table are the tokens with
these ids and markup that has none of them. -/
theorem forall₂_drawn {text : String} (h : Lacking (drawn ids text) text.toList) :
    List.Forall₂ (IsEntry (drawn ids text)) (drawn ids text)
      (tokenize ids 0 (split text.toList)).2 := by
  rw [drawn, List.range_eq_range']
  refine forall₂_tokenize fun markup hmem => ?_
  obtain ⟨hmarkup, hwithin⟩ := isMarkup_of_mem_markups (splits_split text.toList) hmem
  rw [← List.range_eq_range']
  exact ⟨hmarkup, fun id hid hin => h id hid (hin.trans hwithin)⟩

theorem Answer.text_pending {a : Answer} {table : List (String × String)} (h : a.Uses table) :
    a.text (pending table) = a.text Prod.fst := by
  have hfill : fill (pending table) a.rest = fill Prod.fst a.rest := by
    refine List.flatMap_congr fun part hpart => ?_
    simp only [pending, if_pos (h part hpart)]
  rw [Answer.text, hfill]
  rfl

theorem table_extract {text : String} (hdistinct : (drawn ids text).Nodup)
    (habsent : Lacking (drawn ids text) text.toList) :
    (extract ids text).2 = (tokenize ids 0 (split text.toList)).2 := by
  refine Assoc.ofEntries_of_nodup ?_
  rw [keys_of_forall₂ (forall₂_drawn habsent)]
  exact List.Nodup.map token_injective hdistinct

theorem restore_answer {text : String} (hdistinct : (drawn ids text).Nodup)
    (habsent : Lacking (drawn ids text) text.toList) {a : Answer}
    (huses : a.Uses (extract ids text).2) (havoids : a.Avoids (drawn ids text)) :
    restore (a.text Prod.fst) (extract ids text).2 = a.text Prod.snd := by
  have hentries := forall₂_drawn habsent
  rw [table_extract hdistinct habsent] at huses ⊢
  rw [← Answer.text_pending huses]
  refine restore_pending hentries hdistinct (List.Subset.refl _) ?_ havoids
  intro part hpart
  obtain ⟨id, -, hentry⟩ := exists_id_of_mem hentries (huses part hpart)
  exact ⟨hentry.markup, hentry.lacking⟩

/-- The processed text is an answer itself, and with its markup put back it is the text. -/
theorem exists_answer_extract {text : String} (hdistinct : (drawn ids text).Nodup)
    (habsent : Lacking (drawn ids text) text.toList) :
    ∃ a : Answer, a.Uses (extract ids text).2 ∧ a.Avoids (drawn ids text) ∧
      a.text Prod.fst = (extract ids text).1 ∧ a.text Prod.snd = text := by
  obtain ⟨first, rest, htokens, htext, hparts⟩ :=
    exists_fill_tokenize ids 0 (splits_split text.toList)
  refine ⟨⟨String.ofList first, rest⟩, ?_, ⟨?_, ?_⟩, ?_, ?_⟩
  · intro part hpart
    rw [table_extract hdistinct habsent]
    exact (hparts part hpart).1
  · intro id hid hin
    rw [String.toList_ofList] at hin
    refine habsent id hid (hin.trans ?_)
    rw [htext]
    exact (List.prefix_append first _).isInfix
  · intro part hpart id hid hin
    exact habsent id hid (hin.trans (hparts part hpart).2)
  · apply String.toList_injective
    rw [toList_extract, htokens, Answer.text, String.toList_ofList, String.toList_ofList]
  · rw [Answer.text, String.toList_ofList, ← htext, String.ofList_toList]

/-- Restoring replaces every token of an answer by its own markup and changes nothing else, however
often and in whatever order the tokens stand there, if the ids that were drawn are distinct, do not
occur in the text and do not occur in the chunks between the tokens. So the processed text becomes
the text again. -/
theorem restore_extract (ids : Nat → TokenId) (text : String) (hdistinct : (drawn ids text).Nodup)
    (habsent : Lacking (drawn ids text) text.toList) :
    (∀ a : Answer, a.Uses (extract ids text).2 → a.Avoids (drawn ids text) →
      restore (a.text Prod.fst) (extract ids text).2 = a.text Prod.snd) ∧
    restore (extract ids text).1 (extract ids text).2 = text := by
  constructor
  · intro a huses havoids
    exact restore_answer hdistinct habsent huses havoids
  · obtain ⟨a, huses, havoids, hprocessed, htext⟩ := exists_answer_extract hdistinct habsent
    rw [← hprocessed, restore_answer hdistinct habsent huses havoids, htext]

/-- Ids from one on. -/
def counted (n : Nat) : TokenId :=
  .ofNat 128 (n + 1)

/-- A text with two pieces of markup. -/
def greeting : String :=
  "{{ a }} <b>"

/-- An answer with the tokens of the greeting in the other order, and one of them twice. -/
def swapped : Answer :=
  ⟨"", [((token 2, "<b>"), "Moin "), ((token 1, "{{ a }}"), "-"), ((token 1, "{{ a }}"), "__")]⟩

theorem split_greeting : split greeting.toList =
    [.markup "{{ a }}".toList, .plain ' ', .markup "<b>".toList] := by
  decide +kernel

theorem drawn_greeting : drawn counted greeting = [1, 2] := by
  rw [drawn, split_greeting]
  rfl

theorem lacking_greeting : Lacking (drawn counted greeting) greeting.toList :=
  lacking_of_short (by decide)

theorem nodup_greeting : (drawn counted greeting).Nodup := by
  rw [drawn_greeting]
  decide

theorem table_greeting :
    (extract counted greeting).2 = [(token 1, "{{ a }}"), (token 2, "<b>")] := by
  rw [table_extract nodup_greeting lacking_greeting, split_greeting]
  simp [tokenize, counted]

theorem uses_swapped : swapped.Uses (extract counted greeting).2 := by
  rw [table_greeting]
  simp [Answer.Uses, swapped]

theorem avoids_swapped : swapped.Avoids (drawn counted greeting) := by
  refine ⟨lacking_of_short (by decide), fun part hpart => lacking_of_short ?_⟩
  revert part
  decide

theorem restore_extract_greeting :
    (drawn counted greeting).Nodup ∧ Lacking (drawn counted greeting) greeting.toList ∧
      restore (swapped.text Prod.fst) (extract counted greeting).2 =
        "<b>Moin {{ a }}-{{ a }}__" ∧
      restore (extract counted greeting).1 (extract counted greeting).2 = greeting := by
  obtain ⟨hanswers, htext⟩ := restore_extract counted greeting nodup_greeting lacking_greeting
  refine ⟨nodup_greeting, lacking_greeting, ?_, htext⟩
  rw [hanswers swapped uses_swapped avoids_swapped]
  rfl

end ThemeLocales.Provider.Placeholder
