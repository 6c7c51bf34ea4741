import ThemeLocales.Proofs.Assoc
import ThemeLocales.Proofs.Template.Region
import ThemeLocales.Proofs.Template.Segment
import ThemeLocales.Template.KeyScan

/-!
# A scan misses no key that is written well

A template that is written well is made of fillers, in which no region begins, and of occurrences of
keys between them. Its scan yields the keys in order of their first occurrence, each with the
default that it has there (`scanKeys_template`). Two facts carry this: the occurrences are the
regions of the template (`regionsOf_template`), and the scan of a region that is an occurrence adds
its key (`scanRegion_inner`).
-/

set_option autoImplicit false

namespace ThemeLocales.Template

open Text

/-! ## The table of a run -/

/-- The table of keys that are added one after the other. -/
def addKeys (bindings : List (String × Document)) : KeyTable :=
  bindings.foldl (fun table binding => addKey table binding.1 binding.2) []

theorem addKeys_concat (bindings : List (String × Document)) (binding : String × Document) :
    addKeys (bindings ++ [binding]) = addKey (addKeys bindings) binding.1 binding.2 := by
  simp [addKeys]

/-- The keys stand in order of their first occurrence. -/
theorem keys_addKeys (bindings : List (String × Document)) :
    Assoc.keys (addKeys bindings) = (bindings.map Prod.fst).eraseDups := by
  induction bindings using List.reverseRecOn with
  | nil => rfl
  | append_singleton bindings binding ih =>
    rw [addKeys_concat, addKey_eq, ih, List.map_append, List.map_singleton, Assoc.eraseDups_concat]
    simp only [List.mem_eraseDups]
    split
    · exact ih
    · rw [Assoc.keys, List.map_append, ← Assoc.keys, ih, List.map_singleton]

/-- The first occurrence of a key decides its value. -/
theorem get?_addKeys (key : String) (bindings : List (String × Document)) :
    Assoc.get? key (addKeys bindings) = Assoc.get? key bindings := by
  induction bindings using List.reverseRecOn with
  | nil => rfl
  | append_singleton bindings binding ih =>
    obtain ⟨other, value⟩ := binding
    rw [addKeys_concat, addKey_eq, Assoc.get?_append, ← ih]
    split
    · next h =>
      by_cases hkey : other = key
      · subst hkey
        obtain ⟨found, hfound⟩ := Option.isSome_iff_exists.1 (Assoc.contains_iff.2 h)
        rw [hfound, Option.some_or]
      · simp [Assoc.get?, hkey]
    · exact Assoc.get?_append key _ _

/-! ## Templates as they are written -/

/-- A key as a template has it: in quotes between marks, piped into the filter, with blanks
wherever they may be. -/
structure Occurrence where
  delimiters : Delimiters
  quote : Char
  key : List Char
  /-- The quote and the text of the default, if the occurrence has one. -/
  default? : Option (Char × List Char)
  front : List Char
  afterKey : List Char
  beforeCall : List Char
  beforeDefault : List Char
  back : List Char

namespace Occurrence

/-- What stands between the marks, without the blanks at both ends. -/
def inner (o : Occurrence) : List Char :=
  quotedWith o.quote o.key ++ o.afterKey ++
    '|' :: (o.beforeCall ++ filterCall o.default? o.beforeDefault)

/-- The occurrence as it stands in the template. -/
def written (o : Occurrence) : List Char :=
  o.delimiters.opening ++ o.front ++ o.inner ++ o.back ++ o.delimiters.closing

/-- The key with the default that it has here. -/
def binding (o : Occurrence) : String × Document :=
  (String.ofList o.key, calledDefault o.default?)

/-- A text on one line that ends neither a segment nor a region. -/
structure Plain (cs : List Char) : Prop where
  bar : '|' ∉ cs
  line : '\n' ∉ cs
  braces : Lacks '}' '}' cs
  percents : Lacks '%' '}' cs

instance (cs : List Char) : Decidable (Plain cs) :=
  decidable_of_iff ('|' ∉ cs ∧ '\n' ∉ cs ∧ Lacks '}' '}' cs ∧ Lacks '%' '}' cs)
    ⟨fun ⟨hbar, hline, hbraces, hpercents⟩ => ⟨hbar, hline, hbraces, hpercents⟩,
      fun h => ⟨h.bar, h.line, h.braces, h.percents⟩⟩

theorem Plain.lacks {cs : List Char} (h : Plain cs) (d : Delimiters) :
    Lacks d.closingSign '}' cs := by
  cases d
  · exact h.braces
  · exact h.percents

/-- An occurrence has a key of characters that a key may have, any default in quotes, and
blanks. -/
structure WellFormed (o : Occurrence) : Prop where
  quote : isQuote o.quote = true
  key : ∀ c ∈ o.key, isKeyCharacter c = true
  plain : Plain o.key
  default : ∀ quoted ∈ o.default?, isQuote quoted.1 = true ∧ Plain quoted.2
  front : Blanks o.front
  afterKey : Blanks o.afterKey
  beforeCall : Blanks o.beforeCall
  beforeDefault : Blanks o.beforeDefault
  back : Blanks o.back

variable {o : Occurrence}

theorem isBlank_closingSign (d : Delimiters) : isBlank d.closingSign = false := by
  cases d <;> decide

theorem isQuote_closingSign (d : Delimiters) : isQuote d.closingSign = false := by
  cases d <;> decide

/-- Blanks before a text bring no closing mark into it. -/
theorem lacks_blanks_append {blanks cs : List Char} (h : Blanks blanks) (d : Delimiters)
    (hcs : Lacks d.closingSign '}' cs) : Lacks d.closingSign '}' (blanks ++ cs) := by
  refine lacks_append.2 ⟨lacks_of_not_mem (Or.inr fun hmem => ?_), hcs, ?_⟩
  · exact absurd (h _ hmem) (by decide)
  · rintro a ha - - ⟨rfl, -⟩
    have hblank := h _ (List.mem_of_getLast? ha)
    rw [isBlank_closingSign] at hblank
    cases hblank

/-- A quoted text brings none either, if it has none in it. -/
theorem lacks_quotedWith_append {quote : Char} {text cs : List Char} (h : isQuote quote = true)
    (d : Delimiters) (htext : Lacks d.closingSign '}' text) (hcs : Lacks d.closingSign '}' cs) :
    Lacks d.closingSign '}' (quotedWith quote text ++ cs) := by
  have hsign := ne_of_isQuote h (isQuote_closingSign d)
  have hbrace : quote ≠ '}' := ne_of_isQuote h (by decide)
  rw [quotedWith, List.cons_append, List.append_assoc, List.singleton_append, lacks_cons hsign,
    lacks_append_cons hsign hbrace]
  exact ⟨htext, hcs⟩

theorem lacks_filterCall_append (h : o.WellFormed) (d : Delimiters) {cs : List Char}
    (hcs : Lacks d.closingSign '}' cs) :
    Lacks d.closingSign '}' (filterCall o.default? o.beforeDefault ++ cs) := by
  have hletter : 't' ≠ d.closingSign := by cases d <;> decide
  have hcolon : ':' ≠ d.closingSign := by cases d <;> decide
  cases hdefault : o.default? with
  | none => exact (lacks_cons hletter).2 hcs
  | some quoted =>
    obtain ⟨quote, text⟩ := quoted
    obtain ⟨hquote, hplain⟩ := h.default (quote, text) hdefault
    rw [filterCall, List.cons_append, List.cons_append, lacks_cons hletter, lacks_cons hcolon,
      List.append_assoc]
    exact lacks_blanks_append h.beforeDefault d
      (lacks_quotedWith_append hquote d (hplain.lacks d) hcs)

/-- An occurrence with blanks behind it brings no closing mark into a text. -/
theorem lacks_inner_append (h : o.WellFormed) (d : Delimiters) {cs : List Char}
    (hcs : Lacks d.closingSign '}' cs) : Lacks d.closingSign '}' (o.inner ++ o.back ++ cs) := by
  -- from the end backwards, piece by piece
  have hbar : '|' ≠ d.closingSign := by cases d <;> decide
  have hend := lacks_blanks_append h.back d hcs
  have hcall := lacks_blanks_append h.beforeCall d (lacks_filterCall_append h d hend)
  have hkey := lacks_quotedWith_append h.quote d (h.plain.lacks d)
    (lacks_blanks_append h.afterKey d ((lacks_cons hbar).2 hcall))
  simpa only [inner, List.append_assoc, List.cons_append] using hkey

/-- No closing mark begins before the end of an occurrence. -/
theorem lacks_inner (h : o.WellFormed) (d : Delimiters) :
    Lacks d.closingSign '}' (o.inner ++ o.back ++ [d.closingSign]) :=
  lacks_inner_append h d (lacks_iff.2 (.singleton d.closingSign))

/-- A call ends in the letter of the filter or in a quote. -/
theorem exists_getLast?_filterCall (h : o.WellFormed) : ∃ c,
    (filterCall o.default? o.beforeDefault).getLast? = some c ∧ isBlank c = false ∧ c ≠ '-' := by
  cases hdefault : o.default? with
  | none => exact ⟨'t', rfl, by decide, by decide⟩
  | some quoted =>
    obtain ⟨quote, text⟩ := quoted
    have hquote := (h.default (quote, text) hdefault).1
    have hconcat : filterCall (some (quote, text)) o.beforeDefault =
        't' :: ':' :: (o.beforeDefault ++ quote :: text) ++ [quote] := by
      simp [filterCall, quotedWith]
    exact ⟨quote, by rw [hconcat, List.getLast?_concat], isBlank_of_isQuote hquote,
      ne_of_isQuote hquote (by decide)⟩

theorem tight_filterCall (h : o.WellFormed) : Tight (filterCall o.default? o.beforeDefault) := by
  obtain ⟨last, hlast, hblank, -⟩ := exists_getLast?_filterCall h
  have hhead : (filterCall o.default? o.beforeDefault).head? = some 't' := by
    cases o.default? <;> rfl
  exact .of_ends hhead hlast (by decide) hblank

/-- Between its marks an occurrence begins with a quote, and it ends as its call ends. -/
theorem inner_inner (h : o.WellFormed) : Inner o.inner := by
  obtain ⟨last, hlast, hblank, hdash⟩ := exists_getLast?_filterCall h
  have hhead : o.inner.head? = some o.quote := rfl
  have hlast : o.inner.getLast? = some last := by
    rw [inner, List.getLast?_append, List.getLast?_cons, List.getLast?_append, hlast]
    rfl
  refine ⟨.of_ends hhead hlast (isBlank_of_isQuote h.quote) hblank,
    List.ne_nil_of_mem (List.mem_of_head? hhead), ?_, ?_⟩
  · rw [hhead, ne_eq, Option.some.injEq]
    exact ne_of_isQuote h.quote (by decide)
  · rw [hlast, ne_eq, Option.some.injEq]
    exact hdash

theorem bar_not_mem_quotedWith {quote : Char} {cs : List Char} (h : isQuote quote = true)
    (hcs : '|' ∉ cs) : '|' ∉ quotedWith quote cs := by
  have hne : '|' ≠ quote := (ne_of_isQuote h (by decide)).symm
  simp [quotedWith, hne, hcs]

theorem bar_not_mem_blanks {cs : List Char} (h : Blanks cs) : '|' ∉ cs :=
  fun hmem => absurd (h _ hmem) (by decide)

theorem bar_not_mem_filterCall (h : o.WellFormed) :
    '|' ∉ filterCall o.default? o.beforeDefault := by
  cases hdefault : o.default? with
  | none => simp [filterCall]
  | some quoted =>
    obtain ⟨quote, text⟩ := quoted
    obtain ⟨hquote, hplain⟩ := h.default (quote, text) hdefault
    simp [filterCall, bar_not_mem_blanks h.beforeDefault, bar_not_mem_quotedWith hquote hplain.bar]

/-- With something around it, an occurrence has two segments: the first ends in the quoted key, and
the second begins with the call. -/
theorem segments_around (h : o.WellFormed) {lead trail : List Char} (hlead : '|' ∉ lead)
    (htrail : '|' ∉ trail) (hfirst : Tight (lead ++ quotedWith o.quote o.key))
    (hsecond : Tight (filterCall o.default? o.beforeDefault ++ trail)) :
    segments (String.ofList (lead ++ o.inner ++ trail)) =
      [String.ofList (lead ++ quotedWith o.quote o.key),
        String.ofList (filterCall o.default? o.beforeDefault ++ trail)] := by
  have hkey : '|' ∉ lead ++ quotedWith o.quote o.key ++ o.afterKey := by
    simp [hlead, bar_not_mem_quotedWith h.quote h.plain.bar, bar_not_mem_blanks h.afterKey]
  have hcall : '|' ∉ o.beforeCall ++ (filterCall o.default? o.beforeDefault ++ trail) := by
    simp [htrail, bar_not_mem_blanks h.beforeCall, bar_not_mem_filterCall h]
  have hwhole : lead ++ o.inner ++ trail = lead ++ quotedWith o.quote o.key ++ o.afterKey ++
      '|' :: (o.beforeCall ++ (filterCall o.default? o.beforeDefault ++ trail)) := by
    simp [inner]
  -- the bar before the call is the only one
  have hsplit : (lead ++ o.inner ++ trail).splitOn '|' =
      [lead ++ quotedWith o.quote o.key ++ o.afterKey,
        o.beforeCall ++ (filterCall o.default? o.beforeDefault ++ trail)] := by
    rw [hwhole, splitOn_append_cons hkey, splitOn_of_not_mem hcall]
  have hnone : Blanks [] := by simp [Blanks]
  have htrim := trim_of_tight hnone hfirst h.afterKey
  have htrim' := trim_of_tight h.beforeCall hsecond hnone
  rw [List.nil_append] at htrim
  rw [List.append_nil] at htrim'
  simp only [segments, pieces, String.toList_ofList, hsplit, List.map_cons, List.map_nil, trimmed,
    htrim, htrim']

/-- The scan of an occurrence with something around it adds its key, with the default of what the
call has become. -/
theorem scanRegion_around (h : o.WellFormed) {lead trail : List Char} (hlead : '|' ∉ lead)
    (htrail : '|' ∉ trail) (hfirst : Tight (lead ++ quotedWith o.quote o.key))
    (hsecond : Tight (filterCall o.default? o.beforeDefault ++ trail))
    (hcall : isFilterCall (filterCall o.default? o.beforeDefault ++ trail) = true)
    (table : KeyTable) :
    scanRegion table (String.ofList (lead ++ o.inner ++ trail)) =
      addKey table (String.ofList o.key)
        (filterDefault (String.ofList (filterCall o.default? o.beforeDefault ++ trail))) := by
  have hquoted := endsInQuoted_quoted lead h.quote h.plain.line
  have hkey := keyLiteral?_quoted lead h.quote h.key
  have hfilter : isTranslationFilter
      (String.ofList (filterCall o.default? o.beforeDefault ++ trail))
      (String.ofList (lead ++ quotedWith o.quote o.key)) = true := by
    rw [isTranslationFilter, String.toList_ofList, String.toList_ofList, hcall, hquoted,
      Bool.and_self]
  rw [scanRegion, segments_around h hlead htrail hfirst hsecond]
  simp only [List.foldl_cons, List.foldl_nil, scanSegment, hfilter, if_true, hkey]

/-- The scan of an occurrence adds its key with its default. -/
theorem scanRegion_inner (h : o.WellFormed) (table : KeyTable) :
    scanRegion table (String.ofList o.inner) = addKey table o.binding.1 o.binding.2 := by
  have hdefault := filterDefault_filterCall o.default? h.beforeDefault
    fun quote text hsome => (h.default (quote, text) hsome).imp_right Plain.line
  have hcall : filterCall o.default? o.beforeDefault ++ [] =
      filterCall o.default? o.beforeDefault := List.append_nil _
  have hscan := @scanRegion_around o h [] [] (by simp) (by simp) (tight_quotedWith h.quote o.key)
    (hcall.symm ▸ tight_filterCall h) (hcall.symm ▸ isFilterCall_filterCall) table
  rw [hcall, hdefault, List.nil_append, List.append_nil] at hscan
  exact hscan

end Occurrence

/-- A template of occurrences with a filler before each of them and one at the end. -/
def template (filler : List Char) (parts : List (Occurrence × List Char)) : List Char :=
  filler ++ parts.flatMap fun part => part.1.written ++ part.2

/-- The regions of a template are its occurrences. -/
theorem regionsOf_template {filler : List Char} {parts : List (Occurrence × List Char)}
    (hfiller : Filler filler) (hparts : ∀ part ∈ parts, part.1.WellFormed ∧ Filler part.2) :
    regionsOf (template filler parts) = parts.map fun part => part.1.inner := by
  induction parts generalizing filler with
  | nil => rw [template, regionsOf_append hfiller, List.flatMap_nil, regionsOf_nil, List.map_nil]
  | cons part parts ih =>
    obtain ⟨occurrence, next⟩ := part
    obtain ⟨hwell, hnext⟩ := hparts (occurrence, next) List.mem_cons_self
    have hrest := ih hnext fun part hpart => hparts part (List.mem_cons_of_mem _ hpart)
    have hregion := regionAt?_append occurrence.delimiters (template next parts) hwell.front
      hwell.back (Occurrence.inner_inner hwell) (Occurrence.lacks_inner hwell _)
    rw [template, regionsOf_append hfiller, List.flatMap_cons, List.append_assoc, ← template,
      Occurrence.written, regionsOf_of_regionAt? hregion, hrest, List.map_cons]

/-- The scan of a template finds every key, in order of first occurrence, and each with the default
of its first occurrence. -/
theorem scanKeys_template {filler : List Char} {parts : List (Occurrence × List Char)}
    (hfiller : Filler filler) (hparts : ∀ part ∈ parts, part.1.WellFormed ∧ Filler part.2) :
    Assoc.keys (scanKeys (String.ofList (template filler parts))) =
        (parts.map fun part => part.1.binding.1).eraseDups ∧
      ∀ key, Assoc.get? key (scanKeys (String.ofList (template filler parts))) =
        Assoc.get? key (parts.map fun part => part.1.binding) := by
  have hbar : ∀ region ∈ parts.map (String.ofList ∘ fun part => part.1.inner),
      region.toList.contains '|' = true := by
    intro region hregion
    obtain ⟨part, -, rfl⟩ := List.mem_map.1 hregion
    simp [Occurrence.inner]
  have hscan : scanKeys (String.ofList (template filler parts)) =
      addKeys (parts.map fun part => part.1.binding) := by
    rw [scanKeys, regions, String.toList_ofList, regionsOf_template hfiller hparts, List.map_map,
      List.filter_eq_self.2 hbar, List.foldl_map, addKeys, List.foldl_map]
    exact List.foldl_ext _ _ _ fun table part hpart =>
      Occurrence.scanRegion_inner (hparts part hpart).1 table
  rw [hscan, keys_addKeys, List.map_map]
  exact ⟨rfl, fun key => get?_addKeys key _⟩

/-- A key that occurs twice, in two kinds of marks, and between the two a filler with a brace. -/
def twice : List (Occurrence × List Char) :=
  [(⟨.braces, '\'', ['a'], some ('"', ['b']), [' '], [' '], [' '], [' '], [' ']⟩,
      [' ', '\x7b', ' ']),
    (⟨.percents, '"', ['a'], none, [' '], [], [], [], [' ']⟩, [])]

theorem scanKeys_template_twice :
    Assoc.keys (scanKeys (String.ofList (template [] twice))) = ["a"] ∧
      Assoc.get? "a" (scanKeys (String.ofList (template [] twice))) = some (.string "b") := by
  have hparts : ∀ part ∈ twice, part.1.WellFormed ∧ Filler part.2 := by
    have hkey : ∀ c ∈ ['a'], isKeyCharacter c = true := List.forall_mem_singleton.2 (by decide)
    refine List.forall_mem_cons.2 ⟨⟨?_, by decide⟩, List.forall_mem_singleton.2 ⟨?_, by decide⟩⟩
    · exact ⟨by decide, hkey, by decide, by decide, by decide, by decide, by decide, by decide,
        by decide⟩
    · exact ⟨by decide, hkey, by decide, by decide, by decide, by decide, by decide, by decide,
        by decide⟩
  obtain ⟨hkeys, hfound⟩ := scanKeys_template (by decide : Filler []) hparts
  exact ⟨hkeys.trans (by decide), (hfound "a").trans rfl⟩

end ThemeLocales.Template
