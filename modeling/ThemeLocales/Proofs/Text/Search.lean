import Mathlib.Data.List.Chain
import Mathlib.Data.List.TakeWhile
import ThemeLocales.Text.Blank
import ThemeLocales.Text.Search

/-!
# Trimming, cutting and splitting texts

A trim takes blanks from the ends of a text and leaves one that is tight. A cut at two characters
ends at the first place where they stand side by side, so what comes before it lacks them
(`cutAt?_pair`). Neighbouring pieces of a split text have the separator between them
(`exists_of_infix_splitOn`).
-/

set_option autoImplicit false

namespace ThemeLocales.Text

/-! ## Blanks at the ends -/

/-- Every character is blank. -/
def Blanks (cs : List Char) : Prop :=
  ∀ c ∈ cs, isBlank c = true

instance (cs : List Char) : Decidable (Blanks cs) :=
  decidable_of_iff (cs.all isBlank = true) List.all_eq_true

/-- There is no blank at either end. -/
structure Tight (cs : List Char) : Prop where
  head : ∀ c ∈ cs.head?, isBlank c = false
  last : ∀ c ∈ cs.getLast?, isBlank c = false

variable {cs front back : List Char}

theorem Tight.of_ends {c d : Char} (hhead : cs.head? = some c) (hlast : cs.getLast? = some d)
    (hc : isBlank c = false) (hd : isBlank d = false) : Tight cs := by
  refine ⟨fun a ha => ?_, fun a ha => ?_⟩
  · rw [hhead] at ha
    cases ha
    exact hc
  · rw [hlast] at ha
    cases ha
    exact hd

theorem trimStart_append (h : Blanks front) : trimStart (front ++ cs) = trimStart cs :=
  List.dropWhile_append_of_pos h

theorem trimStart_of_head (h : ∀ c ∈ cs.head?, isBlank c = false) : trimStart cs = cs := by
  cases cs with
  | nil => rfl
  | cons c rest => exact List.dropWhile_cons_of_neg (by simp [h c rfl])

theorem trimEnd_append (h : Blanks back) : trimEnd (cs ++ back) = trimEnd cs := by
  have hback : ∀ c ∈ back.reverse, isBlank c = true := fun c hc => h c (List.mem_reverse.1 hc)
  rw [trimEnd, List.reverse_append, List.dropWhile_append_of_pos hback]
  rfl

theorem trimEnd_of_last (h : ∀ c ∈ cs.getLast?, isBlank c = false) : trimEnd cs = cs := by
  have hreverse : trimStart cs.reverse = cs.reverse :=
    trimStart_of_head fun c hc => h c (by rwa [List.head?_reverse] at hc)
  rw [trimEnd, ← trimStart, hreverse, List.reverse_reverse]

/-- A trim takes blanks from around a tight text. -/
theorem trim_of_tight (hfront : Blanks front) (h : Tight cs) (hback : Blanks back) :
    trim (front ++ cs ++ back) = cs := by
  cases hcs : cs with
  | nil =>
    have hall : Blanks (front ++ [] ++ back) := by
      simpa [Blanks, or_imp, forall_and] using ⟨hfront, hback⟩
    have hnone : trimStart (front ++ [] ++ back ++ []) = [] := trimStart_append hall
    rw [List.append_nil] at hnone
    rw [trim, hnone]
    rfl
  | cons c rest =>
    rw [← hcs, trim, List.append_assoc, trimStart_append hfront, trimStart_of_head,
      trimEnd_append hback, trimEnd_of_last h.last]
    intro x hx
    exact h.head x (by simpa [hcs] using hx)

theorem exists_blanks_trimStart (cs : List Char) : ∃ front, Blanks front ∧
    cs = front ++ trimStart cs ∧ ∀ c ∈ (trimStart cs).head?, isBlank c = false := by
  refine ⟨cs.takeWhile isBlank, fun c hc => List.mem_takeWhile_imp hc,
    List.takeWhile_append_dropWhile.symm, fun c hc => ?_⟩
  have hhead := List.head?_dropWhile_not isBlank cs
  rw [← trimStart, Option.mem_def.1 hc] at hhead
  exact hhead

theorem exists_blanks_trimEnd (cs : List Char) : ∃ back, Blanks back ∧ cs = trimEnd cs ++ back ∧
    ∀ c ∈ (trimEnd cs).getLast?, isBlank c = false := by
  obtain ⟨front, hfront, hcs, hhead⟩ := exists_blanks_trimStart cs.reverse
  refine ⟨front.reverse, fun c hc => hfront c (List.mem_reverse.1 hc), ?_, fun c hc => ?_⟩
  · rw [trimEnd, ← trimStart, ← List.reverse_append, ← hcs, List.reverse_reverse]
  · rw [trimEnd, ← trimStart, List.getLast?_reverse] at hc
    exact hhead c hc

/-- What a trim leaves is tight and has blanks around it. -/
theorem exists_blanks_trim (cs : List Char) : ∃ front back, Blanks front ∧ Blanks back ∧
    cs = front ++ trim cs ++ back ∧ Tight (trim cs) := by
  obtain ⟨front, hfront, hcs, hhead⟩ := exists_blanks_trimStart cs
  obtain ⟨back, hback, hrest, hlast⟩ := exists_blanks_trimEnd (trimStart cs)
  refine ⟨front, back, hfront, hback, ?_, fun c hc => hhead c ?_, hlast⟩
  · rw [trim, List.append_assoc, ← hrest]
    exact hcs
  · rw [hrest, List.head?_append]
    rw [trim] at hc
    rw [Option.mem_def.1 hc]
    rfl

/-- What is dropped from the end of a text while it is one character is that character again and
again. -/
theorem exists_dropped_end (c : Char) (cs : List Char) :
    ∃ k, cs = (cs.reverse.dropWhile (· == c)).reverse ++ List.replicate k c := by
  have hdropped : cs.reverse.takeWhile (· == c) =
      List.replicate (cs.reverse.takeWhile (· == c)).length c := by
    refine List.eq_replicate_iff.2 ⟨rfl, fun d hd => ?_⟩
    simpa using List.mem_takeWhile_imp hd
  refine ⟨(cs.reverse.takeWhile (· == c)).length, ?_⟩
  rw [← List.reverse_replicate, ← hdropped, ← List.reverse_append,
    List.takeWhile_append_dropWhile, List.reverse_reverse]

/-- A tight text stays tight with more text around it, if no blank begins or ends that. -/
theorem Tight.around (h : Tight cs) (hne : cs ≠ []) (hfront : ∀ c ∈ front.head?, isBlank c = false)
    (hback : ∀ c ∈ back.getLast?, isBlank c = false) : Tight (front ++ cs ++ back) := by
  refine ⟨fun c hc => ?_, fun c hc => ?_⟩
  · rw [List.append_assoc, List.head?_append, List.head?_append_of_ne_nil _ hne] at hc
    rcases Option.or_eq_some_iff.1 hc with hc | ⟨-, hc⟩
    · exact hfront c hc
    · exact h.head c hc
  · rw [List.getLast?_append, List.getLast?_append_of_ne_nil _ hne] at hc
    rcases Option.or_eq_some_iff.1 hc with hc | ⟨-, hc⟩
    · exact hback c hc
    · exact h.last c hc

/-- A text with no line feed at its end has none to lose. -/
theorem withoutFinalNewline_of_last (h : cs.getLast? ≠ some '\n') :
    withoutFinalNewline cs = cs := by
  unfold withoutFinalNewline
  split
  · next rest hrest =>
    rw [← List.head?_reverse, hrest] at h
    exact absurd rfl h
  · rfl

theorem Tight.withoutFinalNewline (h : Tight cs) : Text.withoutFinalNewline cs = cs := by
  refine withoutFinalNewline_of_last fun hlast => ?_
  have := h.last '\n' hlast
  revert this
  decide

/-! ## Cutting at two characters -/

/-- The two characters never stand side by side. -/
def Lacks (x y : Char) (cs : List Char) : Prop :=
  ¬ [x, y] <:+: cs

instance (x y : Char) (cs : List Char) : Decidable (Lacks x y cs) :=
  inferInstanceAs (Decidable (¬ _))

variable {x y c : Char}

theorem lacks_iff : Lacks x y cs ↔ cs.IsChain fun a b => ¬ (a = x ∧ b = y) := by
  constructor
  · intro h
    induction cs with
    | nil => exact .nil
    | cons a rest ih =>
      have hrest := ih fun hpair => h (List.infix_cons hpair)
      cases rest with
      | nil => exact .singleton a
      | cons b rest =>
        refine List.isChain_cons_cons.2 ⟨?_, hrest⟩
        rintro ⟨rfl, rfl⟩
        exact h ⟨[], rest, rfl⟩
  · intro h hpair
    have hchain := h.infix hpair
    simp at hchain

theorem lacks_append {ds : List Char} : Lacks x y (cs ++ ds) ↔
    Lacks x y cs ∧ Lacks x y ds ∧ ∀ a ∈ cs.getLast?, ∀ b ∈ ds.head?, ¬ (a = x ∧ b = y) := by
  simp only [lacks_iff, List.isChain_append]

/-- Without the first character, or without the second, there is no pair. -/
theorem lacks_of_not_mem (h : x ∉ cs ∨ y ∉ cs) : Lacks x y cs := by
  intro hpair
  have hx := hpair.subset (a := x) (by simp)
  have hy := hpair.subset (a := y) (by simp)
  exact h.elim (fun hnone => hnone hx) fun hnone => hnone hy

theorem lacks_cons (hx : c ≠ x) : Lacks x y (c :: cs) ↔ Lacks x y cs := by
  rw [← List.singleton_append, lacks_append]
  simp [lacks_iff, hx]

/-- Around a third character, a pair stands on one side of it or on the other. -/
theorem lacks_append_cons {ds : List Char} (hx : c ≠ x) (hy : c ≠ y) :
    Lacks x y (cs ++ c :: ds) ↔ Lacks x y cs ∧ Lacks x y ds := by
  rw [lacks_append, lacks_cons hx]
  simp [hy]

/-- After its front comes the rest of a text. -/
theorem after?_append (front rest : List Char) : after? front (front ++ rest) = some rest := by
  induction front with
  | nil => rfl
  | cons c cs ih => simp [after?, ih]

/-- A cut ends at the first place where the two characters stand side by side. -/
theorem cutAt?_pair (back : List Char) (h : Lacks x y (front ++ [x])) :
    cutAt? [x, y] (front ++ x :: y :: back) = some (front, back) := by
  induction front with
  | nil => simp [cutAt?, after?]
  | cons c rest ih =>
    rw [lacks_iff, List.cons_append] at h
    have hrest := ih (lacks_iff.2 h.tail)
    have hnone : after? [x, y] (c :: (rest ++ x :: y :: back)) = none := by
      cases rest with
      | nil =>
        have hpair := (List.isChain_cons_cons.1 h).1
        by_cases hc : c = x <;> simp_all [after?, eq_comm]
      | cons d rest =>
        have hpair := (List.isChain_cons_cons.1 h).1
        by_cases hc : c = x <;> simp_all [after?, eq_comm]
    rw [List.cons_append, cutAt?, hnone]
    simp [hrest]

/-! ## Splitting at a character -/

theorem splitOn_of_not_mem {separator : Char} (h : separator ∉ cs) :
    cs.splitOn separator = [cs] := by
  refine List.splitOnP_eq_singleton fun c hc => ?_
  simpa using fun heq : c = separator => h (heq ▸ hc)

theorem splitOn_append_cons {separator : Char} (h : separator ∉ front) :
    (front ++ separator :: back).splitOn separator = front :: back.splitOn separator := by
  refine List.splitOnP_append_cons_of_forall_mem (fun c hc => ?_) separator (by simp) back
  simpa using fun heq : c = separator => h (heq ▸ hc)

/-- A text with a separator in it has the pieces of what stands before it and of what stands after
it. -/
theorem pieces_append_cons (separator : Char) (front rest : List Char) :
    pieces separator (String.ofList (front ++ separator :: rest)) =
      pieces separator (String.ofList front) ++ pieces separator (String.ofList rest) := by
  simp only [pieces, String.toList_ofList, List.splitOn_append_cons_self, List.map_append]

theorem pieces_ne_nil (separator : Char) (s : String) : pieces separator s ≠ [] := by
  simp [pieces, List.splitOn_ne_nil]

/-- The pieces of a text, joined again. -/
theorem intercalate_pieces (separator : Char) (s : String) :
    (String.singleton separator).intercalate (pieces separator s) = s := by
  apply String.toList_injective
  rw [String.toList_intercalate, pieces, List.map_map]
  have hsame : String.toList ∘ String.ofList = id := funext fun cs => String.toList_ofList
  rw [hsame, List.map_id, String.toList_singleton]
  exact List.intercalate_splitOn separator

theorem pieces_injective {separator : Char} {s t : String}
    (h : pieces separator s = pieces separator t) : s = t := by
  rw [← intercalate_pieces separator s, h, intercalate_pieces]

theorem intercalate_cons_cons (separator : Char) (first second : List Char)
    (rest : List (List Char)) : [separator].intercalate (first :: second :: rest) =
      first ++ separator :: [separator].intercalate (second :: rest) := by
  simp [List.intercalate]

/-- What follows the first piece of a text is nothing, or the separator comes first. -/
theorem exists_intercalate_cons (separator : Char) (first : List Char) (rest : List (List Char)) :
    ∃ back, [separator].intercalate (first :: rest) = first ++ back ∧
      (back = [] ∨ back.head? = some separator) := by
  cases rest with
  | nil => exact ⟨[], by simp [List.intercalate], Or.inl rfl⟩
  | cons second rest => exact ⟨_, intercalate_cons_cons separator first second rest, Or.inr rfl⟩

/-- Neighbouring pieces have the separator between them, and after them comes the separator again or
the end. -/
theorem exists_of_infix_splitOn {separator : Char} {first second : List Char}
    (h : [first, second] <:+: cs.splitOn separator) : ∃ front back,
      cs = front ++ first ++ separator :: (second ++ back) ∧
        (back = [] ∨ back.head? = some separator) := by
  obtain ⟨before, after, hpieces⟩ := h
  have hcs : [separator].intercalate (cs.splitOn separator) = cs :=
    List.intercalate_splitOn separator
  rw [← hcs, ← hpieces]
  clear hpieces
  -- The induction is on the pieces in front, which only make the front longer.
  induction before with
  | nil =>
    obtain ⟨back, hback, hseparator⟩ := exists_intercalate_cons separator second after
    refine ⟨[], back, ?_, hseparator⟩
    rw [← hback]
    exact intercalate_cons_cons separator first second after
  | cons piece before ih =>
    obtain ⟨front, back, hrest, hseparator⟩ := ih
    obtain ⟨next, pieces, hnext⟩ : ∃ next pieces, before ++ [first, second] ++ after =
        next :: pieces := by
      cases before with
      | nil => exact ⟨_, _, rfl⟩
      | cons next rest => exact ⟨_, _, rfl⟩
    refine ⟨piece ++ separator :: front, back, ?_, hseparator⟩
    rw [hnext] at hrest
    rw [List.cons_append, List.cons_append, hnext, intercalate_cons_cons, hrest]
    simp

end ThemeLocales.Text
