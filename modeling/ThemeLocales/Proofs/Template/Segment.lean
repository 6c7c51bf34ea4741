import ThemeLocales.Proofs.Text.Search
import ThemeLocales.Template.Segment

/-!
# What segments say

A segment that spells a key ends in it, between two equal quotes, and a filter call begins with the
filter's letter. The other way round, a quoted literal is read as its key (`keyLiteral?_quoted`) and
a quoted argument as its default (`filterDefault_filterCall`).
-/

set_option autoImplicit false

namespace ThemeLocales.Template

open Text

variable {cs : List Char} {quote : Char}

theorem isQuote_iff {c : Char} : isQuote c = true ↔ c = '"' ∨ c = '\'' := by
  simp [isQuote]

/-- A quote is none of the other characters that a scan looks for. -/
theorem ne_of_isQuote (h : isQuote quote = true) {c : Char} (hc : isQuote c = false) :
    quote ≠ c := by
  rintro rfl
  rw [h] at hc
  cases hc

theorem isBlank_of_isQuote (h : isQuote quote = true) : isBlank quote = false := by
  rcases isQuote_iff.1 h with rfl | rfl <;> decide

/-- A text in quotes. -/
def quotedWith (quote : Char) (cs : List Char) : List Char :=
  quote :: (cs ++ [quote])

theorem getLast?_append_quotedWith (front : List Char) (quote : Char) (cs : List Char) :
    (front ++ quotedWith quote cs).getLast? = some quote := by
  rw [quotedWith, ← List.cons_append, ← List.append_assoc, List.getLast?_concat]

theorem tight_quotedWith (h : isQuote quote = true) (cs : List Char) :
    Tight (quotedWith quote cs) :=
  .of_ends rfl (getLast?_append_quotedWith [] quote cs) (isBlank_of_isQuote h)
    (isBlank_of_isQuote h)

/-! ## Keys -/

/-- A character that a key may have. -/
def isKeyCharacter (c : Char) : Bool :=
  !isQuote c && c != '\\'

theorem isKeyCharacter_iff {c : Char} :
    isKeyCharacter c = true ↔ isQuote c = false ∧ c ≠ '\\' := by
  simp [isKeyCharacter]

/-- A segment that spells a key ends in the key between two equal quotes. -/
theorem exists_of_keyLiteral? {segment key : String} (htight : Tight segment.toList)
    (h : keyLiteral? segment = some key) : ∃ front quote, isQuote quote = true ∧
      segment.toList = front ++ quotedWith quote key.toList ∧
        ∀ c ∈ key.toList, isKeyCharacter c = true := by
  unfold keyLiteral? at h
  rw [htight.withoutFinalNewline] at h
  -- The literal is looked for from the end, so its closing quote comes first.
  cases hreverse : segment.toList.reverse with
  | nil => simp [hreverse] at h
  | cons quote before =>
    simp only [hreverse] at h
    change (if isQuote quote = true then
      if (before.drop (before.takeWhile isKeyCharacter).length).head? = some quote then
        some (String.ofList (before.takeWhile isKeyCharacter).reverse) else none
      else none) = some key at h
    split_ifs at h with hquote hopen
    cases h
    obtain ⟨front, hfront⟩ : ∃ front, before.drop (before.takeWhile isKeyCharacter).length =
        quote :: front := by
      cases hdrop : before.drop (before.takeWhile isKeyCharacter).length with
      | nil => simp [hdrop] at hopen
      | cons c front => exact ⟨front, by simpa [hdrop] using hopen⟩
    have hbefore : before = before.takeWhile isKeyCharacter ++ quote :: front := by
      rw [← hfront]
      exact (List.prefix_iff_eq_append.1 (List.takeWhile_prefix isKeyCharacter)).symm
    refine ⟨front.reverse, quote, hquote, ?_, fun c hc => ?_⟩
    · rw [← List.reverse_reverse segment.toList, hreverse, String.toList_ofList]
      conv_lhs => rw [hbefore]
      simp [quotedWith]
    · rw [String.toList_ofList, List.mem_reverse] at hc
      exact List.mem_takeWhile_imp hc

/-- A text that ends in a quoted literal has no line feed at its end. -/
theorem withoutFinalNewline_append_quotedWith (h : isQuote quote = true) (front cs : List Char) :
    withoutFinalNewline (front ++ quotedWith quote cs) = front ++ quotedWith quote cs := by
  refine withoutFinalNewline_of_last fun hlast => ?_
  rw [getLast?_append_quotedWith, Option.some.injEq] at hlast
  exact ne_of_isQuote h (by decide) hlast

theorem reverse_append_quotedWith (front : List Char) (quote : Char) (cs : List Char) :
    (front ++ quotedWith quote cs).reverse = quote :: (cs.reverse ++ quote :: front.reverse) := by
  simp [quotedWith]

/-- A quoted literal is read as its key, whatever stands before it. -/
theorem keyLiteral?_quoted (front : List Char) (h : isQuote quote = true)
    (hcs : ∀ c ∈ cs, isKeyCharacter c = true) :
    keyLiteral? (String.ofList (front ++ quotedWith quote cs)) = some (String.ofList cs) := by
  have hstop : isKeyCharacter quote = false := by simp [isKeyCharacter, h]
  have hbody : (cs.reverse ++ quote :: front.reverse).takeWhile isKeyCharacter = cs.reverse := by
    rw [List.takeWhile_append_of_pos fun c hc => hcs c (List.mem_reverse.1 hc),
      List.takeWhile_cons_of_neg (by simp [hstop]), List.append_nil]
  unfold keyLiteral?
  rw [String.toList_ofList, withoutFinalNewline_append_quotedWith h, reverse_append_quotedWith]
  change (if isQuote quote = true then
    if ((cs.reverse ++ quote :: front.reverse).drop
        ((cs.reverse ++ quote :: front.reverse).takeWhile isKeyCharacter).length).head? =
          some quote then
      some (String.ofList
        ((cs.reverse ++ quote :: front.reverse).takeWhile isKeyCharacter).reverse) else none
    else none) = _
  rw [hbody]
  simp [h]

/-- A quoted literal on one line may be what a filter is for. -/
theorem endsInQuoted_quoted (front : List Char) (h : isQuote quote = true) (hcs : '\n' ∉ cs) :
    endsInQuoted (front ++ quotedWith quote cs) = true := by
  have hline : ∀ c ∈ cs.reverse, (c != '\n') = true := fun c hc =>
    bne_iff_ne.2 fun heq => hcs (heq ▸ List.mem_reverse.1 hc)
  have hquote : (quote != '\n') = true := bne_iff_ne.2 (ne_of_isQuote h (by decide))
  have htake : (cs.reverse ++ quote :: front.reverse).takeWhile (· != '\n') =
      cs.reverse ++ quote :: front.reverse.takeWhile (· != '\n') := by
    rw [List.takeWhile_append_of_pos hline, List.takeWhile_cons, if_pos hquote]
  unfold endsInQuoted
  rw [withoutFinalNewline_append_quotedWith h, reverse_append_quotedWith]
  simp only [htake]
  simp [h]

/-! ## Filter calls -/

/-- A filter call begins with the letter of the filter, and a blank or a colon follows, if
anything. -/
theorem exists_of_isFilterCall (h : isFilterCall cs = true) : ∃ rest, cs = 't' :: rest ∧
    ∀ c ∈ rest.head?, isBlank c = true ∨ c = ':' := by
  unfold isFilterCall at h
  split at h
  · exact ⟨[], rfl, by simp⟩
  · next c rest => exact ⟨c :: rest, rfl, by simpa using h⟩
  · cases h

/-- The call of the filter: its letter, and after a colon the default in quotes, if there is one. -/
def filterCall : Option (Char × List Char) → List Char → List Char
  | none, _ => ['t']
  | some (quote, text), blanks => 't' :: ':' :: (blanks ++ quotedWith quote text)

/-- The default that a call carries. -/
def calledDefault (default? : Option (Char × List Char)) : Document :=
  match default? with
  | none => .string ""
  | some (_, text) => .string (String.ofList text)

variable {default? : Option (Char × List Char)} {blanks : List Char}

theorem isFilterCall_filterCall : isFilterCall (filterCall default? blanks) = true := by
  cases default? with
  | none => rfl
  | some quoted =>
    obtain ⟨quote, text⟩ := quoted
    cases hrest : blanks ++ quotedWith quote text with
    | nil => simp [quotedWith] at hrest
    | cons c rest => simp [filterCall, hrest, isFilterCall]

theorem quotedInside?_quotedWith (h : isQuote quote = true) (cs : List Char) :
    quotedInside? (quotedWith quote cs) = some cs := by
  simp [quotedInside?, quotedWith, h]

/-- What follows the letter, the colon and blanks is the argument, if it stands on one line. -/
theorem argumentAt?_append {value : List Char} (hblanks : Blanks blanks) (h : Tight value)
    (hline : '\n' ∉ value) : argumentAt? ('t' :: ':' :: (blanks ++ value)) = some value := by
  have hstart : trimStart (blanks ++ value) = value := by
    rw [trimStart_append hblanks, trimStart_of_head h.head]
  have honeLine : value.contains '\n' = false := by simp [hline]
  have htrim : trim value = value := by
    rw [trim, trimStart_of_head h.head, trimEnd_of_last h.last]
  simp only [argumentAt?, after?, if_true, hstart, h.withoutFinalNewline, honeLine,
    Bool.false_eq_true, if_false, htrim]

/-- A quoted argument on one line is the default. -/
theorem filterDefault_filterCall (default? : Option (Char × List Char)) (hblanks : Blanks blanks)
    (h : ∀ quote text, default? = some (quote, text) → isQuote quote = true ∧ '\n' ∉ text) :
    filterDefault (String.ofList (filterCall default? blanks)) = calledDefault default? := by
  cases default? with
  | none => simp [filterCall, filterDefault, argument?, argumentAt?, after?, calledDefault]
  | some quoted =>
    obtain ⟨quote, text⟩ := quoted
    obtain ⟨hquote, hline⟩ := h quote text rfl
    have hne : '\n' ≠ quote := (ne_of_isQuote hquote (by decide)).symm
    have hargument := argumentAt?_append hblanks (tight_quotedWith hquote text)
      (by simp [quotedWith, hline, hne])
    rw [filterDefault, String.toList_ofList, filterCall, argument?, hargument]
    simp only [literalDefault, quotedInside?_quotedWith hquote, calledDefault]

end ThemeLocales.Template
