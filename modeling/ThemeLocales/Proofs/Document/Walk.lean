import Mathlib.Data.List.TakeWhile
import ThemeLocales.Proofs.Document.Fill
import ThemeLocales.Proofs.Document.Leaf

/-!
# The texts that a walk hands over

The open texts of a source are those of its leaves that have content, and have no finished
translation at their position in the target; `openTexts` lists them in document order.

A fill hands over just these, one after the other: that is said once for every judgement on
computations that goes along sequences (`Traced.fill`). The case of a translation that writes down
what it is asked and refuses some texts is `askedFill_asks`: such a fill asks for the open texts up
to the first that is refused. They are as many as `pending` counts (`length_openTexts`).
-/

set_option autoImplicit false

namespace ThemeLocales.Document

/-! ## Open texts -/

/-- The text of a leaf that has content and has no finished translation in a target. -/
def openText? (target : Document) (leaf : Leaf) : Option String :=
  match leaf.2 with
  | .string s => if s = "" || (target.valueAt leaf.1).isTranslated then none else some s
  | _ => none

/-- The open texts of a source, given first, in document order. -/
def openTexts (source target : Document) : List String :=
  (leaves source).filterMap (openText? target)

/-- The open texts of items, the first of which has a given index. -/
def openItems (i : Nat) (ds : List Document) (target : Document) : List String :=
  (leavesItems i ds).filterMap (openText? target)

/-- The open texts of entries. -/
def openEntries (es : List (String × Document)) (target : Document) : List String :=
  (leavesEntries es).filterMap (openText? target)

theorem filterMap_openText?_under (step : Step) (target d : Document) :
    ((leaves d).map (Leaf.under step)).filterMap (openText? target) =
      openTexts d (target.child step) := by
  rw [List.filterMap_map]
  rfl

@[simp] theorem openItems_cons (i : Nat) (d : Document) (ds : List Document) (target : Document) :
    openItems i (d :: ds) target =
      openTexts d (target.child (.index i)) ++ openItems (i + 1) ds target := by
  rw [openItems, leavesItems, List.filterMap_append, filterMap_openText?_under]
  rfl

@[simp] theorem openEntries_cons (key : String) (d : Document) (es : List (String × Document))
    (target : Document) : openEntries ((key, d) :: es) target =
      openTexts d (target.child (.key key)) ++ openEntries es target := by
  rw [openEntries, leavesEntries, List.filterMap_append, filterMap_openText?_under]
  rfl

theorem openTexts_list (ds : List Document) (target : Document) :
    openTexts (.list ds) target = openItems 0 ds target := by
  rw [openTexts, leaves, openItems]

theorem openTexts_map (es : List (String × Document)) (target : Document) :
    openTexts (.map es) target = openEntries es target := by
  rw [openTexts, leaves, openEntries]

/-- The items of a target from an index on begin with what it has at the index. -/
theorem orNull_head?_drop (target : Document) (i : Nat) :
    orNull (target.items.drop i).head? = target.child (.index i) := by
  rw [List.head?_drop]
  rfl

/-- The items that are left and the index of the first go together. -/
theorem length_openItems {ds : List Document}
    (h : ∀ d ∈ ds, ∀ target, (openTexts d target).length = pending d target) (target : Document)
    (i : Nat) : (openItems i ds target).length = pendingItems ds (target.items.drop i) := by
  induction ds generalizing i with
  | nil => rfl
  | cons d ds ih =>
    obtain ⟨hd, hds⟩ := List.forall_mem_cons.1 h
    rw [openItems_cons, List.length_append, hd, ih hds, pendingItems, orNull_head?_drop,
      List.tail_drop]

theorem length_openEntries {es : List (String × Document)}
    (h : ∀ e ∈ es, ∀ target, (openTexts e.2 target).length = pending e.2 target)
    (target : Document) :
    (openEntries es target).length = pendingEntries es target.entries := by
  induction es with
  | nil => rfl
  | cons e es ih =>
    obtain ⟨key, d⟩ := e
    obtain ⟨hd, hes⟩ := List.forall_mem_cons.1 h
    rw [openEntries_cons, List.length_append, hd, ih hes, pendingEntries]
    rfl

/-- The count of a fill is the number of open texts. -/
theorem length_openTexts (source target : Document) :
    (openTexts source target).length = pending source target := by
  induction source using structuralRec generalizing target with
  | scalar d hd =>
    rw [openTexts, leaves_scalar hd]
    cases d with
    | string s =>
      simp only [List.filterMap_cons, List.filterMap_nil, openText?, valueAt_nil, pending]
      by_cases hs : s = "" <;> by_cases ht : target.isTranslated = true <;> simp [hs, ht]
    | list => simp [kind] at hd
    | map => simp [kind] at hd
    | _ => simp [openText?, pending]
  | list ds ih => rw [openTexts_list, length_openItems ih, pending, List.drop_zero]
  | map es ih => rw [openTexts_map, length_openEntries ih, pending]

/-! ## The walk -/

/-- A judgement on computations, of the texts that they hand over in order and of what they give,
that holds of pure results and goes along sequences. -/
structure Traced {m : Type → Type} [Monad m]
    (J : ∀ {α : Type}, m α → List String → (α → Prop) → Prop) : Prop where
  pure : ∀ {α : Type} {R : α → Prop} {a : α}, R a → J (Pure.pure a) [] R
  bind : ∀ {α β : Type} {x : m α} {f : α → m β} {texts more : List String} {R : α → Prop}
    {S : β → Prop}, J x texts R → (∀ a, R a → J (f a) more S) → J (x >>= f) (texts ++ more) S
  mono : ∀ {α : Type} {x : m α} {texts : List String} {R S : α → Prop}, J x texts R →
    (∀ a, R a → S a) → J x texts S

section Walk

variable {m : Type → Type} [Monad m]
  {J : ∀ {α : Type}, m α → List String → (α → Prop) → Prop} {A : String → Document → Prop}
  {translate : String → m Document}

/-- A computation that goes on with a pure step hands over the same texts. -/
theorem Traced.map (h : Traced J) {α β : Type} {x : m α} {f : α → β} {texts : List String}
    {R : α → Prop} {S : β → Prop} (hx : J x texts R) (hf : ∀ a, R a → S (f a)) :
    J (x >>= fun a => Pure.pure (f a)) texts S := by
  have hpure := h.bind hx fun a ha => h.pure (hf a ha)
  rwa [List.append_nil] at hpure

/-- At a scalar, a fill hands over a text that is open, and nothing else. -/
theorem Traced.fill_scalar (h : Traced J)
    (htranslate : ∀ s, s ≠ "" → J (translate s) [s] (A s)) {d : Document} (hd : d.kind = .scalar)
    (target : Document) :
    J (Document.fill translate d target) (openTexts d target) (Filled A d target) := by
  rw [openTexts, leaves_scalar hd]
  cases d with
  | string s =>
    rw [Document.fill]
    by_cases ht : target.isTranslated = true
    · simpa [openText?, ht] using h.pure (.kept ht)
    · have ht : target.isTranslated = false := by simpa using ht
      by_cases hs : s = ""
      · subst hs
        simpa [openText?, ht] using h.pure (.empty ht)
      · have hasked := h.mono (htranslate s hs) fun r hr => Filled.answered ht hs hr
        simpa [openText?, ht, hs] using hasked
  | list => simp [kind] at hd
  | map => simp [kind] at hd
  | _ => exact h.pure (.other rfl fun s h => by cases h)

theorem Traced.fillItems (h : Traced J) {ds : List Document}
    (hds : ∀ d ∈ ds, ∀ target,
      J (Document.fill translate d target) (openTexts d target) (Filled A d target))
    (target : Document) (i : Nat) :
    J (Document.fillItems translate ds (target.items.drop i)) (openItems i ds target)
      (FilledItems A ds (target.items.drop i)) := by
  induction ds generalizing i with
  | nil => exact h.pure .nil
  | cons d ds ih =>
    obtain ⟨hd, hds⟩ := List.forall_mem_cons.1 hds
    have hfirst := hd (target.child (.index i))
    have hrest := ih hds (i + 1)
    rw [← orNull_head?_drop] at hfirst
    rw [← List.tail_drop] at hrest
    rw [openItems_cons, Document.fillItems, ← orNull_head?_drop]
    exact h.bind hfirst fun r hr => h.map hrest fun rs hrs => .cons hr hrs

theorem Traced.fillEntries (h : Traced J) {es : List (String × Document)}
    (hes : ∀ e ∈ es, ∀ target,
      J (Document.fill translate e.2 target) (openTexts e.2 target) (Filled A e.2 target))
    (target : Document) :
    J (Document.fillEntries translate es target.entries) (openEntries es target)
      (FilledEntries A es target.entries) := by
  induction es with
  | nil => exact h.pure .nil
  | cons e es ih =>
    obtain ⟨key, d⟩ := e
    obtain ⟨hd, hes⟩ := List.forall_mem_cons.1 hes
    rw [openEntries_cons, Document.fillEntries]
    exact h.bind (hd (target.child (.key key))) fun r hr =>
      h.map (ih hes) fun rs hrs => .cons hr hrs

/-- A fill hands over the open texts, in document order, and fills the target. -/
theorem Traced.fill (h : Traced J) (htranslate : ∀ s, s ≠ "" → J (translate s) [s] (A s))
    (source target : Document) :
    J (Document.fill translate source target) (openTexts source target)
      (Filled A source target) := by
  induction source using structuralRec generalizing target with
  | scalar d hd => exact h.fill_scalar htranslate hd target
  | list ds ih =>
    rw [openTexts_list, Document.fill]
    exact h.map (h.fillItems ih target 0) fun rs hrs => .list hrs
  | map es ih =>
    rw [openTexts_map, Document.fill]
    exact h.map (h.fillEntries ih target) fun rs hrs => .map hrs

end Walk

/-! ## The filled document -/

section Filled

variable {A : String → Document → Prop}

/-- A finished translation at a text of the source stays. -/
theorem Filled.eq_of_isTranslated {s : String} {t r : Document} (h : Filled A (.string s) t r)
    (ht : t.isTranslated = true) : r = t := by
  cases h with
  | kept => rfl
  | empty hnot => simp [ht] at hnot
  | answered hnot => simp [ht] at hnot
  | other _ hne => exact absurd rfl (hne s)

/-- A scalar of the source that is no text is taken over, whatever the target has there. -/
theorem Filled.eq_of_not_string {d t r : Document} (h : Filled A d t r) (hd : d.kind = .scalar)
    (hne : ∀ s, d ≠ .string s) : r = d := by
  cases h with
  | kept => exact absurd rfl (hne _)
  | empty => exact absurd rfl (hne _)
  | answered => exact absurd rfl (hne _)
  | list => simp [kind] at hd
  | map => simp [kind] at hd
  | other => rfl

theorem skeletonItems_eq_of_forall₂ {ds rs : List Document}
    (h : List.Forall₂ (fun d r => skeleton r = skeleton d) ds rs) :
    skeletonItems rs = skeletonItems ds := by
  induction h with
  | nil => rfl
  | cons hd _ ih => rw [skeletonItems, skeletonItems, hd, ih]

theorem skeletonEntries_eq_of_forall₂ {es rs : List (String × Document)}
    (h : List.Forall₂ (fun e r => e.1 = r.1 ∧ skeleton r.2 = skeleton e.2) es rs) :
    skeletonEntries rs = skeletonEntries es := by
  induction h with
  | nil => rfl
  | @cons e r _ _ he _ ih =>
    obtain ⟨key, d⟩ := e
    obtain ⟨key', r⟩ := r
    obtain ⟨rfl, hd⟩ := he
    rw [skeletonEntries, skeletonEntries, hd, ih]

/-- With scalars for answers, a filled document has the containers of its source. -/
theorem Filled.skeleton {d t r : Document} (hA : ∀ s a, A s a → a.kind = .scalar)
    (h : Filled A d t r) : r.skeleton = d.skeleton := by
  induction d using structuralRec generalizing t r with
  | scalar d hd => rw [skeleton_scalar hd, skeleton_scalar (h.kind_of_scalar hd hA)]
  | list ds ih =>
    cases h with
    | list hds =>
      rw [Document.skeleton, Document.skeleton, skeletonItems_eq_of_forall₂
        (hds.forall₂ _ fun d hd t r h => ih d hd h)]
    | other hd => simp [kind] at hd
  | map es ih =>
    cases h with
    | map hes =>
      rw [Document.skeleton, Document.skeleton, skeletonEntries_eq_of_forall₂
        (hes.forall₂ (fun d r => r.skeleton = d.skeleton) fun e he t r h => ih e he h)]
    | other hd => simp [kind] at hd

/-- A leaf of a filled document fills what the target has at the position of a leaf. -/
structure Leaf.Fills (A : String → Document → Prop) (target : Document) (leaf filled : Leaf) :
    Prop where
  position : filled.1 = leaf.1
  scalar : leaf.2.kind = .scalar
  filled : Filled A leaf.2 (target.valueAt leaf.1) filled.2

theorem Leaf.Fills.under (step : Step) {t : Document} {xs ys : List Leaf}
    (h : List.Forall₂ (Leaf.Fills A (t.child step)) xs ys) :
    List.Forall₂ (Leaf.Fills A t) (xs.map (Leaf.under step)) (ys.map (Leaf.under step)) := by
  rw [List.forall₂_map_left_iff, List.forall₂_map_right_iff]
  refine h.imp fun leaf filled hfills => ⟨?_, hfills.scalar, hfills.filled⟩
  exact congrArg (List.cons step) hfills.position

/-- A filled leaf is at the position of the leaf. A finished translation stays there if the leaf is
a text, and any other leaf stays as it is. -/
structure Leaf.Kept (target : Document) (leaf filled : Leaf) : Prop where
  position : filled.1 = leaf.1
  translated : ∀ text, leaf.2 = .string text → (target.valueAt leaf.1).isTranslated = true →
    filled.2 = target.valueAt leaf.1
  other : (∀ text, leaf.2 ≠ .string text) → filled.2 = leaf.2

theorem Leaf.Fills.kept {t : Document} {leaf filled : Leaf} (h : Leaf.Fills A t leaf filled) :
    Leaf.Kept t leaf filled := by
  refine ⟨h.position, fun text htext ht => ?_, h.filled.eq_of_not_string h.scalar⟩
  have hfilled := h.filled
  rw [htext] at hfilled
  exact hfilled.eq_of_isTranslated ht

theorem FilledItems.leaves {ds rs : List Document} {t : Document} {i : Nat}
    (ih : ∀ d ∈ ds, ∀ t r, Filled A d t r → List.Forall₂ (Leaf.Fills A t) d.leaves r.leaves)
    (h : FilledItems A ds (t.items.drop i) rs) :
    List.Forall₂ (Leaf.Fills A t) (leavesItems i ds) (leavesItems i rs) := by
  induction ds generalizing i rs with
  | nil =>
    cases h
    exact .nil
  | cons d ds ihs =>
    obtain ⟨ihd, ihds⟩ := List.forall_mem_cons.1 ih
    cases h with
    | cons hd hds =>
      rw [orNull_head?_drop] at hd
      rw [List.tail_drop] at hds
      exact List.rel_append (Leaf.Fills.under (.index i) (ihd _ _ hd)) (ihs ihds hds)

theorem FilledEntries.leaves {es rs : List (String × Document)} {t : Document}
    (ih : ∀ e ∈ es, ∀ t r, Filled A e.2 t r → List.Forall₂ (Leaf.Fills A t) e.2.leaves r.leaves)
    (h : FilledEntries A es t.entries rs) :
    List.Forall₂ (Leaf.Fills A t) (leavesEntries es) (leavesEntries rs) := by
  induction es generalizing rs with
  | nil =>
    cases h
    exact .nil
  | cons e es ihs =>
    obtain ⟨ihd, ihes⟩ := List.forall_mem_cons.1 ih
    cases h with
    | @cons key d _ _ _ _ hd hes =>
      have hleaves : List.Forall₂ (Leaf.Fills A (t.child (.key key))) _ _ := ihd _ _ hd
      exact List.rel_append (Leaf.Fills.under (.key key) hleaves) (ihs ihes hes)

/-- With scalars for answers, the leaves of a filled document are the filled leaves of its
source. -/
theorem Filled.leaves {d t r : Document} (hA : ∀ s a, A s a → a.kind = .scalar)
    (h : Filled A d t r) : List.Forall₂ (Leaf.Fills A t) d.leaves r.leaves := by
  induction d using structuralRec generalizing t r with
  | scalar d hd =>
    rw [leaves_scalar hd, leaves_scalar (h.kind_of_scalar hd hA)]
    exact .cons ⟨rfl, hd, h⟩ .nil
  | list ds ih =>
    cases h with
    | list hds => exact FilledItems.leaves (i := 0) (fun d hd t r h => ih d hd h) hds
    | other hd => simp [kind] at hd
  | map es ih =>
    cases h with
    | map hes => exact FilledEntries.leaves (fun e he t r h => ih e he h) hes
    | other hd => simp [kind] at hd

end Filled

/-! ## A translation that refuses texts -/

section Asked

variable {ε : Type} {α : Type}

/-- A translation that writes down every text it is asked for. It refuses some texts, and its
answers may depend on what it was asked before. -/
def asked (refusal? : String → Option ε) (answer : List String → String → Document)
    (text : String) : ExceptT ε (StateM (List String)) Document := do
  let before ← get
  set (before ++ [text])
  match refusal? text with
  | some e => throw e
  | none => return answer before text

/-- The texts up to the first that is refused, and this one. -/
def upToRefusal (refusal? : String → Option ε) (texts : List String) : List String :=
  texts.takeWhile (fun text => (refusal? text).isNone) ++
    (texts.find? fun text => (refusal? text).isSome).toList

/-- A computation asks for the texts up to the first that is refused, and fails there. When none is
refused, it gives a result. -/
def Asks (refusal? : String → Option ε) (x : ExceptT ε (StateM (List String)) α)
    (texts : List String) (R : α → Prop) : Prop :=
  ∀ before, match texts.findSome? refusal? with
    | some e => x.run.run before = (.error e, before ++ upToRefusal refusal? texts)
    | none => ∃ a, x.run.run before = (.ok a, before ++ texts) ∧ R a

variable {refusal? : String → Option ε} {answer : List String → String → Document}

@[simp] theorem upToRefusal_nil (refusal? : String → Option ε) :
    upToRefusal refusal? [] = [] := rfl

theorem upToRefusal_cons (refusal? : String → Option ε) (text : String) (rest : List String) :
    upToRefusal refusal? (text :: rest) =
      text :: if (refusal? text).isSome then [] else upToRefusal refusal? rest := by
  cases htext : refusal? text <;> simp [upToRefusal, htext]

/-- Texts none of which is refused are all asked for, and then what comes after them. -/
theorem upToRefusal_append_of_none {texts : List String} (h : texts.findSome? refusal? = none)
    (more : List String) :
    upToRefusal refusal? (texts ++ more) = texts ++ upToRefusal refusal? more := by
  induction texts with
  | nil => rfl
  | cons text rest ih =>
    obtain ⟨htext, hrest⟩ := List.forall_mem_cons.1 (List.findSome?_eq_none_iff.1 h)
    rw [List.cons_append, upToRefusal_cons, ih (List.findSome?_eq_none_iff.2 hrest), htext]
    rfl

/-- Texts after one that is refused are not asked for. -/
theorem upToRefusal_append_of_some {texts : List String} {e : ε}
    (h : texts.findSome? refusal? = some e) (more : List String) :
    upToRefusal refusal? (texts ++ more) = upToRefusal refusal? texts := by
  induction texts with
  | nil => cases h
  | cons text rest ih =>
    rw [List.cons_append, upToRefusal_cons, upToRefusal_cons]
    cases htext : refusal? text with
    | some _ => rfl
    | none =>
      rw [List.findSome?_cons_of_isNone (by rw [htext]; rfl)] at h
      rw [ih h]

theorem upToRefusal_eq_self {texts : List String} (h : texts.findSome? refusal? = none) :
    upToRefusal refusal? texts = texts := by
  have hall := upToRefusal_append_of_none h []
  rwa [List.append_nil, upToRefusal_nil, List.append_nil] at hall

theorem traced_asks (refusal? : String → Option ε) : Traced (Asks refusal?) where
  pure := fun ha before => ⟨_, by simp; rfl, ha⟩
  bind := by
    intro α β x f texts more R S hx hf before
    have hx := hx before
    rw [List.findSome?_append]
    cases htexts : texts.findSome? refusal? with
    | some e =>
      -- The first computation fails, and nothing is asked for after it.
      simp only [htexts] at hx
      simp only [Option.some_or, upToRefusal_append_of_some htexts]
      change ExceptT.bindCont f (x.run.run before).1 (x.run.run before).2 = _
      rw [hx]
      rfl
    | none =>
      simp only [htexts] at hx
      obtain ⟨a, hrun, ha⟩ := hx
      have hf := hf a ha (before ++ texts)
      have hbind : (x >>= f).run.run before = (f a).run.run (before ++ texts) := by
        change ExceptT.bindCont f (x.run.run before).1 (x.run.run before).2 = _
        rw [hrun]
        rfl
      simp only [Option.none_or, upToRefusal_append_of_none htexts, hbind]
      simpa only [List.append_assoc] using hf
  mono := by
    intro α x texts R S hx hRS before
    have := hx before
    cases htexts : texts.findSome? refusal? with
    | some e => simpa only [htexts] using this
    | none =>
      simp only [htexts] at this
      obtain ⟨a, hrun, ha⟩ := this
      exact ⟨a, hrun, hRS a ha⟩

theorem asks_asked (answer : List String → String → Document) (text : String) :
    Asks refusal? (asked refusal? answer text) [text]
      fun a => ∃ before, a = answer before text := by
  intro before
  cases htext : refusal? text with
  | some e =>
    have hrun : (asked refusal? answer text).run.run before = (.error e, before ++ [text]) := by
      simp only [asked, htext]
      rfl
    simp [htext, hrun, upToRefusal]
  | none =>
    have hrun : (asked refusal? answer text).run.run before =
        (.ok (answer before text), before ++ [text]) := by
      simp only [asked, htext]
      rfl
    simp only [List.findSome?_cons_of_isNone (show (refusal? text).isNone by rw [htext]; rfl),
      List.findSome?_nil]
    exact ⟨_, hrun, before, rfl⟩

/-- The outcome of a fill with such a translation, and the texts that it asked for in order. -/
def askedFill (refusal? : String → Option ε) (answer : List String → String → Document)
    (source target : Document) : Except ε Document × List String :=
  (fill (asked refusal? answer) source target).run.run []

/-- A fill asks for the open texts of the source, in document order, up to the first that is
refused. When none is refused it asks as often as was counted, and gives a document with the
containers of the source. In it finished translations of texts stay as they are, and so do the
leaves of the source that are no texts. -/
theorem askedFill_asks (hanswer : ∀ before text, (answer before text).kind = .scalar)
    (source target : Document) :
    (askedFill refusal? answer source target).2 =
        upToRefusal refusal? (openTexts source target) ∧
      (∀ e, (openTexts source target).findSome? refusal? = some e →
        (askedFill refusal? answer source target).1 = .error e) ∧
      ((∀ text ∈ openTexts source target, refusal? text = none) →
        (askedFill refusal? answer source target).2.length = pending source target ∧
        ∃ result, (askedFill refusal? answer source target).1 = .ok result ∧
          result.skeleton = source.skeleton ∧
          List.Forall₂ (Leaf.Kept target) source.leaves result.leaves) := by
  have hfill := (traced_asks refusal?).fill (fun s _ => asks_asked answer s) source target []
  have hscalar : ∀ (s : String) a, (∃ before, a = answer before s) → a.kind = .scalar := by
    rintro s a ⟨before, rfl⟩
    exact hanswer before s
  simp only [List.nil_append] at hfill
  -- the walk stops at the first text that is refused, or answers them all
  cases htexts : (openTexts source target).findSome? refusal? with
  | some e =>
    simp only [htexts] at hfill
    refine ⟨congrArg Prod.snd hfill, fun e' he => ?_, fun hnone => ?_⟩
    · cases he
      exact congrArg Prod.fst hfill
    · rw [List.findSome?_eq_none_iff.2 hnone] at htexts
      cases htexts
  | none =>
    simp only [htexts] at hfill
    obtain ⟨result, hrun, hresult⟩ := hfill
    have hrun : askedFill refusal? answer source target = (.ok result, openTexts source target) :=
      hrun
    rw [hrun]
    refine ⟨(upToRefusal_eq_self htexts).symm, ?_, fun _ =>
      ⟨length_openTexts source target, result, rfl, hresult.skeleton hscalar,
        (hresult.leaves hscalar).imp fun _ _ hfills => hfills.kept⟩⟩
    intro e he
    cases he

/-- A number in the target stands for a translation, and a missing key for none. The second text
that is asked for is refused, and the third is not asked for. -/
theorem askedFill_asks_two :
    (askedFill (fun text => if text = "c" then some () else none)
      (fun _ text => .string (text ++ "!"))
      (.map [("items", .list [.string "a", .string "b"]), ("x", .string "c"), ("y", .string "d")])
      (.map [("items", .list [.int 0])])).2 = ["b", "c"] :=
  (askedFill_asks (fun _ _ => rfl) _ _).1.trans (by decide)

/-- A translation at a number of the source does not stay: the number is taken over. -/
theorem not_kept_number : ∃ result,
    (askedFill (fun _ => (none : Option Unit)) (fun _ text => .string text)
      (.map [("n", .int 5)]) (.map [("n", .string "cinq")])).1 = .ok result ∧
    ([.key "n"], .int 5) ∈ leaves (.map [("n", .int 5)]) ∧
    (valueAt (.map [("n", .string "cinq")]) [.key "n"]).isTranslated = true ∧
    result.valueAt [.key "n"] ≠ valueAt (.map [("n", .string "cinq")]) [.key "n"] :=
  ⟨.map [("n", .int 5)], rfl, List.mem_cons_self, rfl, nofun⟩

end Asked

end ThemeLocales.Document
