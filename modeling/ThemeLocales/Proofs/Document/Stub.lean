import ThemeLocales.Proofs.Document.Walk

/-!
# Filling a target that has stubs

Extraction gives a target the structure of the main document and leaves a stub, an empty text, for
every translation that is missing. A fill of that target hands over the same texts in the same order
and comes to the same result as a fill of the target without stubs (`fill_stubs`).

A fill looks at the target only where the source has a leaf, and there only for a finished
translation (`fill_congr`). The merge keeps every number and all content at the place of a leaf, and
a finished translation is one of them; what it keeps beside these, a truth value or a container, the
fill does not count as finished before the merge or after it (`finished?_settle`).
-/

set_option autoImplicit false

namespace ThemeLocales.Document

/-! ## What a fill sees of the target -/

/-- A finished translation, if a value is one. -/
def finished? (d : Document) : Option Document :=
  if d.isTranslated then some d else none

theorem finished?_of_isTranslated {d : Document} (h : d.isTranslated = true) :
    d.finished? = some d :=
  if_pos h

theorem finished?_of_not_isTranslated {d : Document} (h : d.isTranslated = false) :
    d.finished? = none := by
  simp [finished?, h]

theorem isSome_finished? (d : Document) : d.finished?.isSome = d.isTranslated := by
  cases h : d.isTranslated with
  | true => rw [finished?_of_isTranslated h]; rfl
  | false => rw [finished?_of_not_isTranslated h]; rfl

/-- Two targets have the same finished translations at the leaves of a source. -/
def SameFinished (source target other : Document) : Prop :=
  ∀ leaf ∈ leaves source,
    (target.valueAt leaf.1).finished? = (other.valueAt leaf.1).finished?

variable {source target other : Document}

/-- Targets with the same finished translations have the same open texts. -/
theorem openTexts_congr (h : SameFinished source target other) :
    openTexts source target = openTexts source other := by
  apply List.filterMap_congr
  intro leaf hleaf
  have hseen : (target.valueAt leaf.1).isTranslated = (other.valueAt leaf.1).isTranslated := by
    rw [← isSome_finished?, ← isSome_finished?, h leaf hleaf]
  rw [openText?, openText?, hseen]

theorem pending_congr (h : SameFinished source target other) :
    pending source target = pending source other := by
  rw [← length_openTexts, ← length_openTexts, openTexts_congr h]

section Fill

variable {m : Type → Type} [Monad m]

/-- At a scalar of the source, a fill looks for a finished translation and at nothing else. -/
theorem fill_scalar_congr (translate : String → m Document) {d : Document} (hd : d.kind = .scalar)
    (h : target.finished? = other.finished?) :
    fill translate d target = fill translate d other := by
  cases d with
  | string s =>
    rw [fill, fill]
    cases ht : target.isTranslated with
    | true =>
      rw [finished?_of_isTranslated ht] at h
      have ho : other.isTranslated = true := by rw [← isSome_finished?, ← h]; rfl
      rw [finished?_of_isTranslated ho, Option.some.injEq] at h
      rw [← h, ht]
    | false =>
      have ho : other.isTranslated = false := by rw [← isSome_finished?, ← h, isSome_finished?, ht]
      rw [ho]
      rfl
  | list => simp [kind] at hd
  | map => simp [kind] at hd
  | _ => rfl

/-- The items that are left and the index of the first go together. -/
theorem fillItems_congr (translate : String → m Document) {ds : List Document}
    (ih : ∀ d ∈ ds, ∀ target other, SameFinished d target other →
      fill translate d target = fill translate d other) {i : Nat}
    (h : ∀ leaf ∈ leavesItems i ds,
      (target.valueAt leaf.1).finished? = (other.valueAt leaf.1).finished?) :
    fillItems translate ds (target.items.drop i) = fillItems translate ds (other.items.drop i) := by
  induction ds generalizing i with
  | nil => rfl
  | cons d ds ihs =>
    obtain ⟨ihd, ihds⟩ := List.forall_mem_cons.1 ih
    rw [leavesItems, List.forall_mem_append, List.forall_mem_map] at h
    obtain ⟨hfirst, hrest⟩ := h
    rw [fillItems, fillItems, orNull_head?_drop, orNull_head?_drop, List.tail_drop,
      List.tail_drop, ihd (target.child (.index i)) (other.child (.index i)) hfirst,
      ihs ihds hrest]

theorem fillEntries_congr (translate : String → m Document) {es : List (String × Document)}
    (ih : ∀ e ∈ es, ∀ target other, SameFinished e.2 target other →
      fill translate e.2 target = fill translate e.2 other)
    (h : ∀ leaf ∈ leavesEntries es,
      (target.valueAt leaf.1).finished? = (other.valueAt leaf.1).finished?) :
    fillEntries translate es target.entries = fillEntries translate es other.entries := by
  induction es with
  | nil => rfl
  | cons e es ihs =>
    obtain ⟨key, d⟩ := e
    obtain ⟨ihd, ihes⟩ := List.forall_mem_cons.1 ih
    rw [leavesEntries, List.forall_mem_append, List.forall_mem_map] at h
    obtain ⟨hfirst, hrest⟩ := h
    have hd : fill translate d (orNull (Assoc.get? key target.entries)) =
        fill translate d (orNull (Assoc.get? key other.entries)) :=
      ihd (target.child (.key key)) (other.child (.key key)) hfirst
    rw [fillEntries, fillEntries, hd, ihs ihes hrest]

/-- A fill depends on the target only through its finished translations at leaves of the source. -/
theorem fill_congr (translate : String → m Document) (h : SameFinished source target other) :
    fill translate source target = fill translate source other := by
  induction source using structuralRec generalizing target other with
  | scalar d hd =>
    apply fill_scalar_congr translate hd
    apply h ([], d)
    rw [leaves_scalar hd]
    exact List.mem_singleton_self _
  | list ds ih =>
    rw [SameFinished, leaves] at h
    have hitems := fillItems_congr translate (fun d hd _ _ h => ih d hd h) h
    rw [List.drop_zero, List.drop_zero] at hitems
    rw [fill, fill, hitems]
  | map es ih =>
    rw [SameFinished, leaves] at h
    rw [fill, fill, fillEntries_congr translate (fun e he _ _ h => ih e he h) h]

end Fill

/-! ## What a merge puts there -/

/-- A leaf that is settled without the text of the update is a finished translation just when it was
one before. -/
theorem finished?_settle (u origin : Document) :
    (settle .structureOnly u origin).finished? = origin.finished? := by
  rcases settle_cases .structureOnly u origin with ⟨-, heq⟩ | ⟨hnot, heq | ⟨hpolicy, -⟩⟩
  · rw [heq]
  · -- what does not stay is no finished translation, and neither is the empty text
    have horigin : origin.isTranslated = false := by
      rw [Bool.eq_false_iff]
      exact fun ht => hnot (stays_of_isTranslated ht)
    rw [heq, finished?_of_not_isTranslated horigin]
    rfl
  · cases hpolicy

/-- At the leaves of a tree, a target has the same finished translations before and after the
structure of the tree is merged into it. -/
theorem sameFinished_merge {main : Document} (hmain : main.Tree) (target : Document) :
    SameFinished main (merge .structureOnly target main) target := by
  intro leaf hleaf
  obtain ⟨hscalar, path, hposition, hat⟩ := (mem_leaves_iff hmain).1 hleaf
  rw [hposition, valueAt_keys, valueAt_keys, at?_merge_of_at? .structureOnly hat, orNull,
    merge_scalar .structureOnly _ hscalar, finished?_settle]

/-- Writing stubs first does not change what is translated: a target into which the structure of the
main document was merged is filled as the target itself, by the same requests in the same order up
to the same failure, and as many texts are counted for it. -/
theorem fill_stubs {main : Document} (hmain : main.Tree) (target : Document) :
    (∀ {m : Type → Type} [Monad m] (translate : String → m Document),
      fill translate main (merge .structureOnly target main) = fill translate main target) ∧
    (∀ {ε : Type} (refusal? : String → Option ε) (answer : List String → String → Document),
      askedFill refusal? answer main (merge .structureOnly target main) =
        askedFill refusal? answer main target) ∧
    pending main (merge .structureOnly target main) = pending main target := by
  have hsame := sameFinished_merge hmain target
  refine ⟨fun translate => fill_congr translate hsame, fun refusal? answer => ?_,
    pending_congr hsame⟩
  rw [askedFill, askedFill, fill_congr (asked refusal? answer) hsame]

/-- A main document with four texts and a number. -/
def pageDocument : Document :=
  .map [("menu", .map [("home", .string "Home"), ("cart", .string "Cart")]),
    ("title", .string "Shop"), ("note", .string "Note"), ("rows", .int 3)]

/-- A target with a list in the place of the map, a zero, a truth value and a key of its own. -/
def pageTarget : Document :=
  .map [("title", .int 0), ("menu", .list [.string "Start"]), ("note", .bool true),
    ("old", .null)]

/-- The zero counts as a translation and the truth value does not, with stubs and without. When the
second text is refused, the third is not asked for. -/
theorem fill_stubs_page :
    merge .structureOnly pageTarget pageDocument =
        .map [("title", .int 0), ("menu", .map [("home", .string ""), ("cart", .string "")]),
          ("note", .bool true), ("old", .string ""), ("rows", .string "")] ∧
      askedFill (fun text => if text = "Cart" then some () else none)
          (fun _ text => .string (text ++ "!")) pageDocument
          (merge .structureOnly pageTarget pageDocument) = (.error (), ["Home", "Cart"]) ∧
      pending pageDocument (merge .structureOnly pageTarget pageDocument) = 3 := by
  have htree : pageDocument.Tree := by
    simp [pageDocument, tree_map_iff]
  obtain ⟨-, hasked, hpending⟩ := fill_stubs htree pageTarget
  exact ⟨rfl, (hasked _ _).trans rfl, hpending.trans rfl⟩

end ThemeLocales.Document
