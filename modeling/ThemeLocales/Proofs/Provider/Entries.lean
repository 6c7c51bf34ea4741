import ThemeLocales.Proofs.Provider.Translate

/-!
# Answers with several entries

The results of an answer are a list, with an entry for each part of the text that was sent, such as
a line. Of these entries only the first is read. So what is returned for a whole text is the
translation of its first part, and this is kept in the cache (`translate_entries`), where every
later request for the text finds it (`Kept.runIn_cached`).

All entries of an answer are in `entryTexts?`, and `InOrder` says of a text that it has all of them.
The first one alone has them all just when there is no other, because none of them is empty
(`inOrder_first_iff`).
-/

set_option autoImplicit false

namespace ThemeLocales.Provider.Baidu

open Operation Project

/-! ## Texts that hold others -/

/-- Some texts occur in another one, each behind the one before it. -/
def InOrder : List String → List Char → Prop
  | [], _ => True
  | s :: rest, cs => ∃ front back, cs = front ++ s.toList ++ back ∧ InOrder rest back

/-- Texts that occur one behind the other are together no longer than the whole. -/
theorem InOrder.length_le {texts : List String} {cs : List Char} (h : InOrder texts cs) :
    (texts.map String.length).sum ≤ cs.length := by
  induction texts generalizing cs with
  | nil => exact Nat.zero_le _
  | cons s rest ih =>
    obtain ⟨front, back, rfl, hrest⟩ := h
    have hback := ih hrest
    rw [List.map_cons, List.sum_cons, List.length_append, List.length_append,
      String.length_toList]
    omega

/-- In the first of some texts there is room for no other that is not empty. -/
theorem inOrder_first_iff {first : String} {rest : List String} (h : ∀ s ∈ rest, s ≠ "") :
    InOrder (first :: rest) first.toList ↔ rest = [] := by
  constructor
  · intro horder
    -- all texts together are no longer than the first, which leaves nothing for a second one
    have hlength := horder.length_le
    rw [List.map_cons, List.sum_cons, String.length_toList] at hlength
    cases rest with
    | nil => rfl
    | cons second more =>
      have hpos : second.length ≠ 0 := by
        intro hzero
        exact h second List.mem_cons_self (String.length_eq_zero_iff.1 hzero)
      rw [List.map_cons, List.sum_cons] at hlength
      omega
  · rintro rfl
    exact ⟨[], [], by simp, trivial⟩

/-! ## The entries of an answer -/

/-- The translation in an entry of the results, if it has one that is a text. -/
def entryText? : Document → Option String
  | .map es =>
    match Assoc.get? "dst" es with
    | some (.string s) => if s = "" then none else some s
    | _ => none
  | _ => none

/-- The translations in the entries of a successful answer, if each entry has one. -/
def entryTexts? : WebOutcome → Option (List String)
  | .data body =>
    if reportsError body then none
    else match Document.orNull (body.get? "trans_result") with
      | .list items => items.mapM entryText?
      | _ => none
  | _ => none

theorem entryText?_eq_some_iff {item : Document} {s : String} : entryText? item = some s ↔
    s ≠ "" ∧ ∃ es, item = .map es ∧ Assoc.get? "dst" es = some (.string s) := by
  constructor
  · intro h
    unfold entryText? at h
    split at h
    · next es =>
      split at h
      · next found hfound =>
        split_ifs at h with hempty
        obtain rfl := Option.some.inj h
        exact ⟨hempty, es, rfl, hfound⟩
      · cases h
    · cases h
  · rintro ⟨hs, es, rfl, hdst⟩
    simp only [entryText?, hdst, if_neg hs]

/-- Each of the translations is that of the entry in its place. -/
theorem forall₂_of_mapM {items : List Document} {texts : List String}
    (h : items.mapM entryText? = some texts) :
    List.Forall₂ (fun item s => entryText? item = some s) items texts := by
  induction items generalizing texts with
  | nil =>
    obtain rfl : [] = texts := Option.some.inj h
    exact .nil
  | cons item items ih =>
    rw [List.mapM_cons] at h
    obtain ⟨s, hs, h⟩ := Option.bind_eq_some_iff.1 h
    obtain ⟨rest, hrest, h⟩ := Option.bind_eq_some_iff.1 h
    obtain rfl : s :: rest = texts := Option.some.inj h
    exact .cons hs (ih hrest)

/-- None of the translations is empty. -/
theorem ne_empty_of_forall₂ {items : List Document} {texts : List String}
    (h : List.Forall₂ (fun item s => entryText? item = some s) items texts) :
    ∀ s ∈ texts, s ≠ "" := by
  induction h with
  | nil =>
    intro s hs
    cases hs
  | cons hitem _ ih =>
    intro s hs
    rcases List.mem_cons.1 hs with rfl | hs
    · exact (entryText?_eq_some_iff.1 hitem).1
    · exact ih s hs

/-- An answer with entries is a document with results and no error. -/
theorem exists_of_entryTexts? {o : WebOutcome} {texts : List String}
    (h : entryTexts? o = some texts) : ∃ items, items.mapM entryText? = some texts ∧
      verdict o = resultsVerdict (.list items) := by
  cases o with
  | failed kind message => cases h
  | broken e => cases h
  | data body =>
    rw [entryTexts?] at h
    split_ifs at h with hreports
    cases hresults : Document.orNull (body.get? "trans_result") with
    | list items =>
      rw [hresults] at h
      refine ⟨items, h, ?_⟩
      rw [verdict, bodyVerdict_of_results (Bool.eq_false_iff.2 hreports), hresults]
    | _ =>
      rw [hresults] at h
      cases h

/-- Of the entries the verdict has the first one. -/
theorem verdict_of_entryTexts? {o : WebOutcome} {first : String} {rest : List String}
    (h : entryTexts? o = some (first :: rest)) : verdict o = .translated (.string first) := by
  obtain ⟨items, hitems, hverdict⟩ := exists_of_entryTexts? h
  cases forall₂_of_mapM hitems with
  | cons hitem _ =>
    obtain ⟨hfirst, es, rfl, hdst⟩ := entryText?_eq_some_iff.1 hitem
    have hpresent : (Document.string first).isPresent = true := decide_eq_true hfirst
    rw [hverdict, resultsVerdict_first, hdst, Option.getD_some, if_pos hpresent]

/-! ## Translating with such an answer -/

variable {b : Baidu} {t : Task} {map : LanguageMap} {w : World}

/-- The cache of a client, if it has one, has some translation for a task, in memory and in its
file. -/
def Kept (b : Baidu) (t : Task) (s : String) (w : World) : Prop :=
  ∀ path, b.cacheFile = some path →
    w.cache = some (Cache.imageAt w.disk path) ∧
      Cache.lookup (Cache.membersAt w.disk path) t.text t.source t.target =
        .ok (some (.ofText t.source t.target t.text (.string s)))

/-- Every later request for the task is answered with it. -/
theorem Kept.runIn_cached {s path : String} (h : b.Kept t s w) (hpath : b.cacheFile = some path) :
    (b.cached t.text t.source t.target).runIn w =
      (.ok (some (.ofText t.source t.target t.text (.string s))), w) := by
  obtain ⟨himage, hlookup⟩ := h path hpath
  rw [cached, hpath]
  simp only [Cache.get]
  rw [runIn_bind_of_ok (Cache.runIn_load_of_some himage), ← Cache.membersAt, hlookup]
  rfl

/-- A translation is kept by the cache, unless the disk denies the file. -/
theorem exists_runIn_keep_kept {s : String} (hs : s ≠ "") (h : b.Uncached t w)
    {calls : List WebCall} {delays : List Document} {w₁ : World}
    (hlogs : LogsTo ((b.opened w).exchanged calls delays) w₁) :
    ∃ outcome w₂, (b.keep t (.string s)).runIn w₁ = (outcome, w₂) ∧
      ((outcome = .ok (.ofText t.source t.target t.text (.string s)) ∧ b.Kept t s w₂) ∨
        ∃ refusal, outcome = .error (.disk refusal) ∧ b.Denied w₂.disk refusal) := by
  cases hcache : b.cacheFile with
  | none =>
    refine ⟨.ok (.ofText t.source t.target t.text (.string s)), w₁, ?_, .inl ⟨rfl, ?_⟩⟩
    · rw [keep, hcache]
      rfl
    · intro path hpath
      rw [hcache] at hpath
      cases hpath
  | some path =>
    obtain ⟨result, d, hkeep, hended⟩ := exists_runIn_keep_of_file hs h hcache hlogs
    refine ⟨_, _, hkeep, ?_⟩
    cases hended with
    | refused refusal hdenies _ => exact .inr ⟨refusal, rfl, path, hcache, hdenies⟩
    | written hread =>
      refine .inl ⟨rfl, ?_⟩
      intro other hother
      obtain rfl := Option.some.inj (hcache.symm.trans hother)
      -- the file was written, and what is read back are the members that are in memory
      have himage := Cache.imageAt_of_holds
        (Cache.holds_of_read (Cache.storable_membersAt w.disk path) hread)
      refine ⟨congrArg some himage.symm, ?_⟩
      simp only [Cache.membersAt, himage]
      exact Cache.lookup_insert (r := t.stored s) _ hs

/-- When the attempts end with a text, it is returned for the whole task and kept. -/
theorem exists_runIn_translate_of_text {s : String} (hs : s ≠ "") (ht : t.Sends map)
    (hcache : b.Uncached t w) (hasked : asked (b.script t w) ≤ 1025)
    (hverdict : finalVerdict (b.script t w) = .translated (.string s)) :
    ∃ outcome w₁, (b.translate t.text t.source t.target map).runIn w = (outcome, w₁) ∧
      ((outcome = .ok (.ofText t.source t.target t.text (.string s)) ∧ b.Kept t s w₁) ∨
        ∃ refusal, outcome = .error (.disk refusal) ∧ b.Denied w₁.disk refusal) := by
  obtain ⟨w₁, hlogs, hconcludes⟩ := makes_translate ht hcache
  rw [if_pos hasked, hverdict] at hconcludes
  obtain ⟨outcome, w₂, hkeep, hended⟩ := exists_runIn_keep_kept hs hcache hlogs
  refine ⟨outcome, w₂, ?_, hended⟩
  rw [← hkeep]
  generalize (b.translate t.text t.source t.target map).runIn w = result at hconcludes ⊢
  cases hconcludes with
  | kept => rfl

theorem finalVerdict_of_find? {outcomes : List WebOutcome} {o : WebOutcome}
    (h : outcomes.find? (fun o => !isTransient o) = some o) :
    finalVerdict outcomes = verdict o := by
  rw [finalVerdict, h]
  rfl

/-- When the answer that ends the attempts has entries, the first of them is the translation that is
returned and kept. It holds all entries, in their order, just when there is no other one. -/
theorem translate_entries {o : WebOutcome} {first : String} {rest : List String}
    (ht : t.Sends map) (hcache : b.Uncached t w) (hasked : asked (b.script t w) ≤ 1025)
    (hanswer : (b.script t w).find? (fun o => !isTransient o) = some o)
    (htexts : entryTexts? o = some (first :: rest)) :
    ∃ outcome w₁, (b.translate t.text t.source t.target map).runIn w = (outcome, w₁) ∧
      ((outcome = .ok (.ofText t.source t.target t.text (.string first)) ∧ b.Kept t first w₁) ∨
        ∃ refusal, outcome = .error (.disk refusal) ∧ b.Denied w₁.disk refusal) ∧
      (InOrder (first :: rest) first.toList ↔ rest = []) := by
  obtain ⟨items, hitems, -⟩ := exists_of_entryTexts? htexts
  have hnonempty := ne_empty_of_forall₂ (forall₂_of_mapM hitems)
  have hverdict : finalVerdict (b.script t w) = .translated (.string first) := by
    rw [finalVerdict_of_find? hanswer, verdict_of_entryTexts? htexts]
  obtain ⟨outcome, w₁, hrun, hended⟩ := exists_runIn_translate_of_text
    (hnonempty first List.mem_cons_self) ht hcache hasked hverdict
  refine ⟨outcome, w₁, hrun, hended, ?_⟩
  apply inOrder_first_iff
  intro s hs
  exact hnonempty s (List.mem_cons_of_mem _ hs)

/-! ### A text of two lines -/

/-- An answer with an entry for each of two lines. -/
def twoLines : WebOutcome :=
  withResults (.list [.map [("src", .string "Hello"), ("dst", .string "Bonjour")],
    .map [("src", .string "World"), ("dst", .string "Monde")]])

theorem entryTexts?_twoLines : entryTexts? twoLines = some ["Bonjour", "Monde"] := by
  decide +kernel

theorem settled_twoLines : isTransient twoLines = false := by
  rw [isTransient, verdict_of_entryTexts? entryTexts?_twoLines]

theorem sends_twoLines : (english "Hello\nWorld").Sends [] :=
  sends_english (by decide)

theorem find?_script_of_settled {cacheFile : Option String} {o : WebOutcome}
    (h : isTransient o = false) : ((client 3 cacheFile).script t (answering [o])).find?
      (fun o => !isTransient o) = some o := by
  apply List.find?_cons_of_pos
  change (!isTransient o) = true
  rw [h]
  rfl

/-- Of two lines, the first is returned and kept, and it does not hold both. -/
theorem translate_entries_twoLines : ∃ outcome w₁,
    ((client 3 (some "c.json")).translate "Hello\nWorld" "en" "fr" []).runIn
        (answering [twoLines]) = (outcome, w₁) ∧
      ((outcome = .ok (.ofText "en" "fr" "Hello\nWorld" (.string "Bonjour")) ∧
          (client 3 (some "c.json")).Kept (english "Hello\nWorld") "Bonjour" w₁) ∨
        ∃ refusal, outcome = .error (.disk refusal) ∧
          (client 3 (some "c.json")).Denied w₁.disk refusal) ∧
      (InOrder ["Bonjour", "Monde"] "Bonjour".toList ↔ ["Monde"] = []) := by
  have hasked := asked_script_le (some "c.json") (english "Hello\nWorld") (answering [twoLines])
  have hcache := uncached_answering "Hello\nWorld" 3 [twoLines]
  obtain ⟨outcome, w₁, hrun, hended, horder⟩ := translate_entries sends_twoLines hcache hasked
    (find?_script_of_settled settled_twoLines) entryTexts?_twoLines
  exact ⟨outcome, w₁, hrun, hended, horder⟩

/-- The translation of a text of two lines lacks the second one. -/
theorem translate_drops_line :
    entryTexts? twoLines = some ["Bonjour", "Monde"] ∧
      (∃ w₁, ((client 3 none).translate "Hello\nWorld" "en" "fr" []).runIn
        (answering [twoLines]) =
          (.ok (.ofText "en" "fr" "Hello\nWorld" (.string "Bonjour")), w₁)) ∧
      ¬InOrder ["Bonjour", "Monde"] "Bonjour".toList := by
  refine ⟨entryTexts?_twoLines, ?_, ?_⟩
  · have hverdict : finalVerdict ((client 3 none).script (english "Hello\nWorld")
        (answering [twoLines])) = .translated (.string "Bonjour") := by
      rw [finalVerdict_of_find? (find?_script_of_settled settled_twoLines),
        verdict_of_entryTexts? entryTexts?_twoLines]
    obtain ⟨outcome, w₁, hrun, hended⟩ := exists_runIn_translate_of_text (by decide)
      sends_twoLines (uncached_of_no_file rfl) (asked_script_le none _ _) hverdict
    rcases hended with ⟨rfl, -⟩ | ⟨refusal, -, path, hpath, -⟩
    · exact ⟨w₁, hrun⟩
    · -- without a cache there is no file that the disk could deny
      cases hpath
  · intro horder
    have hrest := (inOrder_first_iff (by decide)).1 horder
    cases hrest

end ThemeLocales.Provider.Baidu
