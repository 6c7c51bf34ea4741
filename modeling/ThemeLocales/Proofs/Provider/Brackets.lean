import Mathlib.Data.List.Infix
import ThemeLocales.Provider.Placeholder

/-!
# Brackets in an answer

An answer of a model may come in quotes or in square brackets that the source text does not have.
What is taken away from it is looked for at its two ends only, so it is known which characters these
are (`exists_wrapping_clean`), but not whether the two brackets belong together: `[a] and [b]`
begins and ends with brackets of two different pairs, and each of them is left without its partner.

A text is balanced as Dyck words are, and a bracket at its beginning belongs to the one at its end
when it stays open in between, which is to say when the text is nested. An answer with balanced
brackets keeps them just when its brackets stay, or it is nested without its quotes
(`balanced_clean_iff`).
-/

set_option autoImplicit false

namespace ThemeLocales.Provider.Placeholder

/-! ## Balanced texts -/

/-- The square brackets of a text are balanced: none is closed before it is opened, and all that are
opened are closed. -/
structure Balanced (cs : List Char) : Prop where
  prefixes : ∀ front, front <+: cs → front.count ']' ≤ front.count '['
  total : cs.count ']' = cs.count '['

instance (cs : List Char) : Decidable (Balanced cs) :=
  decidable_of_iff ((∀ front ∈ cs.inits, front.count ']' ≤ front.count '[') ∧
      cs.count ']' = cs.count '[')
    ⟨fun h => ⟨fun front hfront => h.1 front ((List.mem_inits _ _).2 hfront), h.2⟩,
      fun h => ⟨fun front hfront => h.prefixes front ((List.mem_inits _ _).1 hfront), h.total⟩⟩

/-- Between the beginning of a text and its end, some bracket is open everywhere. -/
def Nested (cs : List Char) : Prop :=
  ∀ front, front <+: cs → front ≠ [] → front ≠ cs → front.count ']' < front.count '['

instance (cs : List Char) : Decidable (Nested cs) :=
  decidable_of_iff (∀ front ∈ cs.inits, front ≠ [] → front ≠ cs →
      front.count ']' < front.count '[')
    ⟨fun h front hfront => h front ((List.mem_inits _ _).2 hfront),
      fun h front hfront => h front ((List.mem_inits _ _).1 hfront)⟩

variable {cs inner : List Char}

/-- Quotes around a text are no brackets. -/
theorem Balanced.of_quoted (h : Balanced ('"' :: (inner ++ ['"']))) : Balanced inner := by
  constructor
  · intro front hfront
    have hquoted : '"' :: front <+: '"' :: (inner ++ ['"']) :=
      List.cons_prefix_cons.2 ⟨rfl, hfront.trans (List.prefix_append inner _)⟩
    have hcount := h.prefixes _ hquoted
    rw [List.count_cons_of_ne (by decide), List.count_cons_of_ne (by decide)] at hcount
    exact hcount
  · have htotal := h.total
    rw [List.count_cons_of_ne (by decide), List.count_cons_of_ne (by decide), List.count_append,
      List.count_append] at htotal
    simpa using htotal

/-- Without the brackets at its ends, a balanced text is balanced just when it is nested. -/
theorem Balanced.inner_iff (h : Balanced ('[' :: (inner ++ [']']))) :
    Balanced inner ↔ Nested ('[' :: (inner ++ [']'])) := by
  have hopened : ∀ front : List Char, ('[' :: front).count ']' = front.count ']' ∧
      ('[' :: front).count '[' = front.count '[' + 1 := by
    intro front
    exact ⟨List.count_cons_of_ne (by decide), List.count_cons_self⟩
  constructor
  · intro hinner front hfront hne hproper
    -- a front that has the first bracket but not the last one goes on with a front of the inside
    rcases List.prefix_cons_iff.1 hfront with rfl | ⟨rest, rfl, hrest⟩
    · exact absurd rfl hne
    · rcases List.prefix_concat_iff.1 hrest with rfl | hrest
      · exact absurd rfl hproper
      · have hcount := hinner.prefixes rest hrest
        obtain ⟨hclosing, hopening⟩ := hopened rest
        omega
  · intro hnested
    constructor
    · -- with the bracket before it, a front of the inside is a front of the whole, and too short to
      -- be all of it
      intro front hfront
      have hlength := hfront.length_le
      have hproper : '[' :: front ≠ '[' :: (inner ++ [']']) := by
        intro heq
        have hlengths := congrArg List.length heq
        simp only [List.length_cons, List.length_append, List.length_nil] at hlengths
        omega
      have hcount := hnested ('[' :: front)
        (List.cons_prefix_cons.2 ⟨rfl, hfront.trans (List.prefix_append inner _)⟩)
        (List.cons_ne_nil _ _) hproper
      obtain ⟨hclosing, hopening⟩ := hopened front
      omega
    · have htotal := h.total
      obtain ⟨hclosing, hopening⟩ := hopened (inner ++ [']'])
      rw [hclosing, hopening, List.count_append, List.count_append] at htotal
      simpa using htotal

/-! ## What is taken away -/

/-- A text that begins and ends with given characters has them around the rest, unless one character
is both of them. -/
theorem exists_of_isWrapped {opening closing : Char} (h : isWrapped opening closing cs = true) :
    (∃ inner, cs = opening :: (inner ++ [closing])) ∨ (cs = [opening] ∧ opening = closing) := by
  rw [isWrapped, Bool.and_eq_true, decide_eq_true_eq, decide_eq_true_eq] at h
  obtain ⟨hfirst, hlast⟩ := h
  obtain ⟨rest, rfl⟩ := List.head?_eq_some_iff.1 hfirst
  rcases List.eq_nil_or_concat rest with rfl | ⟨inner, last, rfl⟩
  · right
    rw [List.getLast?_singleton] at hlast
    exact ⟨rfl, Option.some.inj hlast⟩
  · left
    rw [List.concat_eq_append, ← List.cons_append, List.getLast?_concat] at hlast
    obtain rfl := Option.some.inj hlast
    exact ⟨inner, congrArg (opening :: ·) List.concat_eq_append⟩

/-- Whether the ends of an answer are taken away. -/
def strips (opening closing : Char) (source answer : List Char) : Bool :=
  isWrapped opening closing answer && !isWrapped opening closing source

/-- The ends stay, or one character is taken away at each of them, or the only character that there
is. -/
theorem unwrap_cases (opening closing : Char) (source answer : List Char) :
    (strips opening closing source answer = false ∧
        unwrap opening closing source answer = answer) ∨
      (strips opening closing source answer = true ∧
        answer = opening :: (unwrap opening closing source answer ++ [closing])) ∨
      (answer = [opening] ∧ opening = closing ∧ unwrap opening closing source answer = []) := by
  cases hstrips : strips opening closing source answer with
  | false =>
    left
    rw [strips] at hstrips
    rw [unwrap, hstrips]
    exact ⟨rfl, rfl⟩
  | true =>
    right
    have hunwrap : unwrap opening closing source answer = (answer.drop 1).dropLast := by
      rw [strips] at hstrips
      rw [unwrap, if_pos hstrips]
    rw [strips, Bool.and_eq_true] at hstrips
    rw [hunwrap]
    -- one character can be both brackets only where they are the same
    rcases exists_of_isWrapped hstrips.1 with ⟨inner, rfl⟩ | ⟨rfl, hsame⟩
    · left
      rw [List.drop_one, List.tail_cons, List.dropLast_concat]
      exact ⟨rfl, rfl⟩
    · right
      exact ⟨rfl, hsame, rfl⟩

/-- An answer without the quotes that the source does not have. -/
def unquoted (answer source : String) : List Char :=
  unwrap '"' '"' source.toList answer.toList

/-- Quotes that are taken away leave balanced brackets balanced. -/
theorem balanced_unquoted {answer : String} (source : String) (h : Balanced answer.toList) :
    Balanced (unquoted answer source) := by
  rcases unwrap_cases '"' '"' source.toList answer.toList with
    ⟨-, hsame⟩ | ⟨-, hquoted⟩ | ⟨-, -, hempty⟩
  · rw [unquoted, hsame]
    exact h
  · rw [hquoted] at h
    exact h.of_quoted
  · rw [unquoted, hempty]
    decide

/-- The brackets are taken away from both ends, or from neither. -/
theorem clean_cases (answer source : String) :
    (strips '[' ']' source.toList (unquoted answer source) = false ∧
        (clean answer source).toList = unquoted answer source) ∨
      (strips '[' ']' source.toList (unquoted answer source) = true ∧
        unquoted answer source = '[' :: ((clean answer source).toList ++ [']'])) := by
  have hclean : (clean answer source).toList =
      unwrap '[' ']' source.toList (unquoted answer source) := String.toList_ofList
  rw [hclean]
  rcases unwrap_cases '[' ']' source.toList (unquoted answer source) with
    hstays | hstripped | ⟨-, hsame, -⟩
  · exact Or.inl hstays
  · exact Or.inr hstripped
  · exact absurd hsame (by decide)

/-! ## What is left -/

/-- What can be taken away in front of an answer and behind it. -/
def wrappings : List (List Char × List Char) :=
  [([], []), (['"'], ['"']), (['['], [']']), (['"', '['], [']', '"'])]

/-- Only quotes and brackets are taken away from an answer, one of each at both ends, unless all of
the answer is one quote. -/
theorem exists_wrapping_clean (answer source : String) :
    (∃ w ∈ wrappings, answer.toList = w.1 ++ (clean answer source).toList ++ w.2) ∨
      (answer = "\"" ∧ clean answer source = "") := by
  rcases unwrap_cases '"' '"' source.toList answer.toList with
    ⟨-, hsame⟩ | ⟨-, hquoted⟩ | ⟨hsingle, -, hempty⟩
  · -- there are no quotes, or the source has them as well
    left
    rcases clean_cases answer source with ⟨-, hclean⟩ | ⟨-, hclean⟩
    · refine ⟨([], []), by decide, ?_⟩
      rw [hclean, unquoted, hsame, List.nil_append, List.append_nil]
    · refine ⟨(['['], [']']), by decide, ?_⟩
      rw [unquoted, hsame] at hclean
      exact hclean
  · -- the brackets, if there are any, stood inside of the quotes
    left
    rcases clean_cases answer source with ⟨-, hclean⟩ | ⟨-, hclean⟩
    · refine ⟨(['"'], ['"']), by decide, ?_⟩
      rw [hclean]
      exact hquoted
    · refine ⟨(['"', '['], [']', '"']), by decide, ?_⟩
      rw [unquoted] at hclean
      rw [hclean] at hquoted
      simpa using hquoted
  · -- one quote counts as both ends, and nothing is left that could begin with a bracket
    right
    refine ⟨String.toList_injective hsingle, ?_⟩
    rcases clean_cases answer source with ⟨-, hclean⟩ | ⟨-, hclean⟩
    · rw [unquoted, hempty] at hclean
      exact String.toList_injective hclean
    · rw [unquoted, hempty] at hclean
      cases hclean

/-- An answer with balanced brackets is cleaned of quotes and brackets at its ends. It has balanced
brackets after that just when no brackets were taken away, or those that were belong together. -/
theorem balanced_clean_iff {answer : String} (source : String) (h : Balanced answer.toList) :
    ((∃ w ∈ wrappings, answer.toList = w.1 ++ (clean answer source).toList ++ w.2) ∨
      (answer = "\"" ∧ clean answer source = "")) ∧
      (Balanced (clean answer source).toList ↔
        (strips '[' ']' source.toList (unquoted answer source) = true →
          Nested (unquoted answer source))) := by
  refine ⟨exists_wrapping_clean answer source, ?_⟩
  -- the quotes do not matter to brackets, so everything is about the unquoted answer
  have hunquoted := balanced_unquoted source h
  rcases clean_cases answer source with ⟨hstays, hclean⟩ | ⟨hstrips, hclean⟩
  · rw [hclean, hstays]
    apply iff_of_true hunquoted
    intro hstrips
    cases hstrips
  · rw [hclean] at hunquoted
    rw [hunquoted.inner_iff, ← hclean, hstrips]
    exact ⟨fun hnested _ => hnested, fun himp => himp rfl⟩

/-- Brackets that belong together are taken away from inside of the quotes, and the others stay
balanced. -/
theorem balanced_clean_iff_nested :
    Balanced "\"[a [b]]\"".toList ∧ Balanced (clean "\"[a [b]]\"" "x").toList :=
  have hbalanced : Balanced "\"[a [b]]\"".toList := by decide +kernel
  have hnested : Nested (unquoted "\"[a [b]]\"" "x") := by decide +kernel
  ⟨hbalanced, (balanced_clean_iff "x" hbalanced).2.2 fun _ => hnested⟩

/-- Brackets of two pairs are taken away as well, which leaves one bracket of each pair, and so is a
quote that has no partner. -/
theorem not_balanced_clean_pairs :
    Balanced "[a] and [b]".toList ∧ clean "[a] and [b]" "x" = "a] and [b" ∧
      ¬Balanced (clean "[a] and [b]" "x").toList ∧ clean "\"" "x" = "" := by
  decide +kernel

end ThemeLocales.Provider.Placeholder
