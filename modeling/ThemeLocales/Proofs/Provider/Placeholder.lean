import Mathlib.Data.Nat.Digits.Defs
import ThemeLocales.Proofs.Template.Region
import ThemeLocales.Proofs.Text.Replace
import ThemeLocales.Provider.Placeholder

/-!
# Markup and tokens

How a text falls into pieces is one relation, `Splits`, and what is proved about a tokenized text
goes by induction on it. Tokens have none of the characters that make up a mark (`mem_token`), so
two such characters that stand side by side in a tokenized text stand side by side in the text
itself (`infix_of_infix_tokenize`). From this, no template expression and no template tag is left
behind (`no_markup_left`).
-/

set_option autoImplicit false

namespace ThemeLocales.Provider.Placeholder

open Text Template

variable {ids : Nat → TokenId} {n : Nat} {cs rest markup : List Char} {pieces : List Piece}
  {c x y : Char}

/-! ## Pieces -/

/-- A text falls into pieces: markup where markup begins, and else single characters. -/
inductive Splits : List Char → List Piece → Prop
  | nil : Splits [] []
  | plain {c : Char} {rest : List Char} {pieces : List Piece} :
    markupAt? (c :: rest) = none → Splits rest pieces → Splits (c :: rest) (.plain c :: pieces)
  | markup {cs markup rest : List Char} {pieces : List Piece} :
    markupAt? cs = some (markup, rest) → Splits rest pieces → Splits cs (.markup markup :: pieces)

theorem splits_split (cs : List Char) : Splits cs (split cs) := by
  induction hn : cs.length using Nat.strong_induction_on generalizing cs with
  | h n ih =>
    subst hn
    rw [split]
    split
    · next markup rest hmarkup =>
      exact .markup hmarkup (ih _ (length_lt_of_markupAt? hmarkup) _ rfl)
    · next hnone =>
      cases cs with
      | nil => exact .nil
      | cons c rest => exact .plain hnone (ih _ (by simp) _ rfl)

/-- Markup begins with an opening brace or an opening bracket, and ends with a closing one. -/
structure IsMarkup (cs : List Char) : Prop where
  head : cs.head? = some '{' ∨ cs.head? = some '<'
  last : cs.getLast? = some '}' ∨ cs.getLast? = some '>'

theorem isMarkup_append {opening closing : List Char} (body : List Char)
    (hopening : opening.head? = some '{' ∨ opening.head? = some '<')
    (hclosing : closing.getLast? = some '}' ∨ closing.getLast? = some '>') :
    IsMarkup (opening ++ body ++ closing) := by
  constructor
  · rw [List.append_assoc, List.head?_append]
    rcases hopening with h | h
    · exact .inl (by rw [h]; rfl)
    · exact .inr (by rw [h]; rfl)
  · rw [List.getLast?_append]
    rcases hclosing with h | h
    · exact .inl (by rw [h]; rfl)
    · exact .inr (by rw [h]; rfl)

theorem eq_append_of_betweenMarks? {opening closing : List Char}
    (h : betweenMarks? opening closing cs = some (markup, rest)) :
    ∃ body, markup = opening ++ body ++ closing ∧ cs = markup ++ rest := by
  simp only [betweenMarks?, Option.bind_eq_bind, Option.bind_eq_some_iff, Option.pure_def,
    Option.some.injEq, Prod.mk.injEq, Prod.exists] at h
  obtain ⟨inside, hopening, body, back, hcut, rfl, rfl⟩ := h
  refine ⟨body, rfl, ?_⟩
  rw [eq_append_of_after? hopening, eq_append_of_cutAt? hcut]
  simp only [List.append_assoc]

theorem eq_append_of_betweenChars? {opening closing : Char}
    (h : betweenChars? opening closing cs = some (markup, rest)) :
    ∃ body, markup = [opening] ++ body ++ [closing] ∧ cs = markup ++ rest := by
  cases cs with
  | nil => cases h
  | cons c inside =>
    simp only [betweenChars?] at h
    split at h
    · next hc =>
      subst hc
      split at h
      · next d tail htail =>
        split at h
        · next hd =>
          obtain ⟨rfl, -⟩ : d = closing ∧ _ := by simpa using hd
          cases h
          refine ⟨_, rfl, ?_⟩
          -- what stands between the marks is the longest text without either of them
          have hbody := List.prefix_iff_eq_take.1
            (List.takeWhile_prefix (fun e => e != c && e != d) (l := inside))
          have hinside := List.take_append_drop
            (inside.takeWhile fun e => e != c && e != d).length inside
          rw [← hbody, htail] at hinside
          simp only [List.append_assoc, List.cons_append, List.nil_append, hinside]
        · cases h
      · cases h
    · cases h

/-- Markup at the front of a text is its front, and it is wrapped as markup is. -/
theorem markup_of_markupAt? (h : markupAt? cs = some (markup, rest)) :
    IsMarkup markup ∧ cs = markup ++ rest := by
  simp only [markupAt?, Option.or_eq_some_iff] at h
  rcases h with h | ⟨-, h | ⟨-, h | ⟨-, h⟩⟩⟩
  · obtain ⟨body, rfl, hcs⟩ := eq_append_of_betweenMarks? h
    exact ⟨isMarkup_append body (by decide) (by decide), hcs⟩
  · obtain ⟨body, rfl, hcs⟩ := eq_append_of_betweenMarks? h
    exact ⟨isMarkup_append body (by decide) (by decide), hcs⟩
  · obtain ⟨body, rfl, hcs⟩ := eq_append_of_betweenChars? h
    exact ⟨isMarkup_append body (by decide) (by decide), hcs⟩
  · obtain ⟨body, rfl, hcs⟩ := eq_append_of_betweenChars? h
    exact ⟨isMarkup_append body (by decide) (by decide), hcs⟩

/-- Between the marks of one kind there is markup, whatever stands there. -/
theorem markupAt?_ne_none (d : Delimiters) (h : d.closing <:+: rest) :
    markupAt? (d.opening ++ rest) ≠ none := by
  obtain ⟨body, back, hcut⟩ := exists_cutAt? h
  have hbetween : betweenMarks? d.opening d.closing (d.opening ++ rest) =
      some (d.opening ++ body ++ d.closing, back) := by
    simp only [betweenMarks?, after?_append, Option.bind_eq_bind, Option.bind_some, hcut]
    rfl
  intro hnone
  simp only [markupAt?, Option.or_eq_none_iff] at hnone
  cases d with
  | braces =>
    rw [show Delimiters.braces.opening = ['{', '{'] from rfl] at hbetween hnone
    rw [show Delimiters.braces.closing = ['}', '}'] from rfl, hnone.1] at hbetween
    cases hbetween
  | percents =>
    rw [show Delimiters.percents.opening = ['{', '%'] from rfl] at hbetween hnone
    rw [show Delimiters.percents.closing = ['%', '}'] from rfl, hnone.2.1] at hbetween
    cases hbetween

/-! ## Tokens -/

/-- The digits of base sixteen. -/
def hexDigits : List Char :=
  ['0', '1', '2', '3', '4', '5', '6', '7', '8', '9', 'a', 'b', 'c', 'd', 'e', 'f']

theorem mem_hexDigits_of_mem_toDigits {n : Nat} (h : c ∈ Nat.toDigits 16 n) : c ∈ hexDigits := by
  have hdigit : ∀ d < 16, d.digitChar ∈ hexDigits := by decide
  induction n using Nat.strong_induction_on with
  | h n ih =>
    rcases Nat.lt_or_ge n 16 with hlt | hge
    · rw [Nat.toDigits_of_lt_base hlt, List.mem_singleton] at h
      exact h ▸ hdigit n hlt
    · rw [Nat.toDigits_of_base_le (by decide) hge, List.mem_append, List.mem_singleton] at h
      rcases h with h | rfl
      · exact ih (n / 16) (by omega) h
      · exact hdigit (n % 16) (Nat.mod_lt n (by decide))

theorem mem_hex {id : TokenId} (h : c ∈ (hex id).toList) : c ∈ hexDigits := by
  rw [hex, padded, String.toList_ofList, List.mem_append] at h
  rcases h with h | h
  · rw [List.eq_of_mem_replicate h]
    decide
  · exact mem_hexDigits_of_mem_toDigits h

theorem length_hex (id : TokenId) : (hex id).toList.length = 32 := by
  have hle : (Nat.toDigits 16 id.toNat).length ≤ 32 :=
    Nat.toDigits_length 16 id.toNat 32 (by decide) (Nat.lt_of_lt_of_eq id.isLt (by decide))
  rw [hex, padded, String.toList_ofList, List.length_append, List.length_replicate]
  omega

theorem toList_token (id : TokenId) :
    (token id).toList = ['_', '_', 'P', 'H', '_'] ++ (hex id).toList ++ ['_', '_'] := by
  rw [token, String.toList_append, String.toList_append]
  rfl

theorem mem_token {id : TokenId} (h : c ∈ (token id).toList) :
    c ∈ ['_', 'P', 'H'] ∨ c ∈ hexDigits := by
  have hfront : ∀ c ∈ ['_', '_', 'P', 'H', '_'], c ∈ ['_', 'P', 'H'] := by simp
  have hback : ∀ c ∈ ['_', '_'], c ∈ ['_', 'P', 'H'] := by simp
  rw [toList_token, List.mem_append, List.mem_append] at h
  rcases h with (h | h) | h
  · exact .inl (hfront c h)
  · exact .inr (mem_hex h)
  · exact .inl (hback c h)

/-- A character that no token has. -/
def Foreign (c : Char) : Prop :=
  c ∉ ['_', 'P', 'H'] ∧ c ∉ hexDigits

instance (c : Char) : Decidable (Foreign c) :=
  inferInstanceAs (Decidable (_ ∧ _))

theorem Foreign.not_mem_token {id : TokenId} (hc : Foreign c) : c ∉ (token id).toList := by
  intro hmem
  rcases mem_token hmem with h | h
  · exact hc.1 h
  · exact hc.2 h

/-! ## Tokenized texts -/

/-- A foreign character at the front of a tokenized text is the first piece. -/
theorem exists_plain_of_head (h : Splits cs pieces) (hc : Foreign c)
    (hhead : (tokenize ids n pieces).1.head? = some c) : ∃ rest pieces', cs = c :: rest ∧
      pieces = .plain c :: pieces' ∧ Splits rest pieces' := by
  cases h with
  | nil => cases hhead
  | plain hnone hrest =>
    simp only [tokenize, List.head?_cons, Option.some.injEq] at hhead
    subst hhead
    exact ⟨_, _, rfl, rfl, hrest⟩
  | markup hmarkup hrest =>
    -- A token has no foreign character, and it is not empty.
    simp only [tokenize, toList_token, List.cons_append, List.nil_append, List.head?_cons,
      Option.some.injEq] at hhead
    subst hhead
    exact absurd hc (by decide)

/-- Foreign characters that stand side by side in a tokenized text do so in the text. -/
theorem infix_of_infix_tokenize (h : Splits cs pieces) (hx : Foreign x) (hy : Foreign y)
    (hpair : [x, y] <:+: (tokenize ids n pieces).1) : [x, y] <:+: cs := by
  induction h generalizing n with
  | nil => exact hpair
  | @plain c rest pieces hnone hrest ih =>
    simp only [tokenize] at hpair
    rcases List.infix_cons_iff.1 hpair with hprefix | hpair
    · obtain ⟨rfl, htail⟩ := List.cons_prefix_cons.1 hprefix
      obtain ⟨tail, htail⟩ := htail
      have hhead : (tokenize ids n pieces).1.head? = some y := by
        rw [← htail]
        rfl
      obtain ⟨rest', pieces', rfl, -, -⟩ := exists_plain_of_head hrest hy hhead
      exact (List.prefix_append [x, y] rest').isInfix
    · exact List.infix_cons (ih hpair)
  | @markup cs markup rest pieces hmarkup hrest ih =>
    obtain ⟨-, rfl⟩ := markup_of_markupAt? hmarkup
    simp only [tokenize] at hpair
    have hrest : [x, y] <:+: rest := ih (infix_of_infix_append hx.not_mem_token hpair)
    exact hrest.trans (List.suffix_append markup rest).isInfix

theorem foreign_closingSign (d : Delimiters) : Foreign d.closingSign := by
  cases d <;> decide

/-- An opening mark is a brace and one more character, which no token has either. -/
theorem exists_opening (d : Delimiters) : ∃ sign, d.opening = ['{', sign] ∧ Foreign sign := by
  cases d with
  | braces => exact ⟨'{', rfl, by decide⟩
  | percents => exact ⟨'%', rfl, by decide⟩

/-- Behind an opening mark of a tokenized text the closing mark does not occur. -/
theorem not_infix_of_opening (d : Delimiters) {front tail : List Char} (h : Splits cs pieces)
    (htext : (tokenize ids n pieces).1 = front ++ (d.opening ++ tail)) :
    ¬ d.closing <:+: tail := by
  obtain ⟨sign, hopening, hsign⟩ := exists_opening d
  induction h generalizing n front with
  | nil =>
    simp [tokenize, hopening] at htext
  | @plain c rest pieces hnone hrest ih =>
    simp only [tokenize] at htext
    cases front with
    | nil =>
      -- Both characters of the mark were passed over in the text, where no markup began.
      rw [hopening] at htext
      obtain ⟨rfl, htail⟩ := List.cons.inj htext
      obtain ⟨rest, pieces, rfl, rfl, hsplits⟩ :=
        exists_plain_of_head hrest hsign (congrArg List.head? htail)
      obtain ⟨-, rfl⟩ := List.cons.inj htail
      intro hclosing
      have hbehind : d.closing <:+: rest :=
        infix_of_infix_tokenize hsplits (foreign_closingSign d) (by decide) hclosing
      refine markupAt?_ne_none d hbehind ?_
      rw [hopening]
      exact hnone
    | cons c front => exact ih (List.cons.inj htext).2
  | @markup cs markup rest pieces hmarkup hrest ih =>
    simp only [tokenize] at htext
    rcases List.append_eq_append_iff.1 htext with ⟨front', -, hbehind⟩ | ⟨inside, htoken, hmark⟩
    · exact ih hbehind
    · cases inside with
      | nil =>
        have hafter : (tokenize ids (n + 1) _).1 = [] ++ (d.opening ++ tail) := hmark.symm
        exact ih hafter
      | cons c inside =>
        -- The mark would begin in the token.
        rw [hopening, List.cons_append] at hmark
        obtain ⟨rfl, -⟩ := List.cons.inj hmark
        have hmem : '{' ∈ (token (ids n)).toList := by
          rw [htoken]
          exact List.mem_append_right front List.mem_cons_self
        exact absurd hmem (Foreign.not_mem_token (by decide))

theorem toList_extract (ids : Nat → TokenId) (text : String) :
    (extract ids text).1.toList = (tokenize ids 0 (split text.toList)).1 :=
  String.toList_ofList

/-- No template expression and no template tag is left: in a text whose markup was replaced by
tokens, an opening mark has no closing mark of its kind behind it. -/
theorem no_markup_left (ids : Nat → TokenId) (text : String) (d : Delimiters) :
    ¬ ∃ front body back, (extract ids text).1.toList =
      front ++ d.opening ++ body ++ d.closing ++ back := by
  rintro ⟨front, body, back, htext⟩
  have htokens : (tokenize ids 0 (split text.toList)).1 =
      front ++ (d.opening ++ (body ++ d.closing ++ back)) := by
    rw [← toList_extract, htext]
    simp only [List.append_assoc]
  refine not_infix_of_opening d (splits_split text.toList) htokens ?_
  exact ⟨body, back, rfl⟩

end ThemeLocales.Provider.Placeholder
