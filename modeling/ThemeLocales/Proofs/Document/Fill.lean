import ThemeLocales.Document.Fill
import ThemeLocales.Proofs.Document.Merge

/-!
# What a fill of a target can give

`Filled A source target result` says that a fill of the target along the source may give the result
when texts of the source may be answered as `A` has it. Where no answer is needed, the fill gives
that result without asking (`fill_eq_pure`), and a filled document that is filled again is one of
these (`Filled.again`).
-/

set_option autoImplicit false

namespace ThemeLocales.Document

variable {A B : String → Document → Prop}

mutual

/-- The results of filling a target, given second, along a source, given first. -/
inductive Filled (A : String → Document → Prop) : Document → Document → Document → Prop
  | kept {s : String} {t : Document} : t.isTranslated = true → Filled A (.string s) t t
  | empty {t : Document} : t.isTranslated = false → Filled A (.string "") t (.string "")
  | answered {s : String} {t r : Document} : t.isTranslated = false → s ≠ "" → A s r →
      Filled A (.string s) t r
  | list {ds rs : List Document} {t : Document} : FilledItems A ds t.items rs →
      Filled A (.list ds) t (.list rs)
  | map {es rs : List (String × Document)} {t : Document} : FilledEntries A es t.entries rs →
      Filled A (.map es) t (.map rs)
  | other {d t : Document} : d.kind = .scalar → (∀ s, d ≠ .string s) → Filled A d t d

/-- `Filled` for items in order. -/
inductive FilledItems (A : String → Document → Prop) :
    List Document → List Document → List Document → Prop
  | nil {ts : List Document} : FilledItems A [] ts []
  | cons {d r : Document} {ds ts rs : List Document} : Filled A d (orNull ts.head?) r →
      FilledItems A ds ts.tail rs → FilledItems A (d :: ds) ts (r :: rs)

/-- `Filled` for entries in order. -/
inductive FilledEntries (A : String → Document → Prop) : List (String × Document) →
    List (String × Document) → List (String × Document) → Prop
  | nil {ts : List (String × Document)} : FilledEntries A [] ts []
  | cons {key : String} {d r : Document} {es ts rs : List (String × Document)} :
      Filled A d (orNull (Assoc.get? key ts)) r → FilledEntries A es ts rs →
      FilledEntries A ((key, d) :: es) ts ((key, r) :: rs)

end

/-! ## Filling in general -/

theorem FilledItems.mono {ds : List Document}
    (ih : ∀ d ∈ ds, ∀ t r, Filled A d t r → Filled B d t r) :
    ∀ {ts rs : List Document}, FilledItems A ds ts rs → FilledItems B ds ts rs := by
  induction ds with
  | nil =>
    rintro ts rs ⟨⟩
    exact .nil
  | cons d ds ihs =>
    rintro ts rs (_ | ⟨hd, hds⟩)
    exact .cons (ih d List.mem_cons_self _ _ hd)
      (ihs (fun x hx => ih x (List.mem_cons_of_mem d hx)) hds)

theorem FilledEntries.mono {es : List (String × Document)}
    (ih : ∀ e ∈ es, ∀ t r, Filled A e.2 t r → Filled B e.2 t r) :
    ∀ {ts rs : List (String × Document)}, FilledEntries A es ts rs →
      FilledEntries B es ts rs := by
  induction es with
  | nil =>
    rintro ts rs ⟨⟩
    exact .nil
  | cons e es ihs =>
    rintro ts rs (_ | ⟨hd, hes⟩)
    exact .cons (ih _ List.mem_cons_self _ _ hd)
      (ihs (fun x hx => ih x (List.mem_cons_of_mem _ hx)) hes)

/-- More answers allow more results. -/
theorem Filled.mono (hA : ∀ s r, A s r → B s r) {d t r : Document} (h : Filled A d t r) :
    Filled B d t r := by
  induction d using structuralRec generalizing t r with
  | scalar d hd =>
    cases h with
    | kept ht => exact .kept ht
    | empty ht => exact .empty ht
    | answered ht hs hr => exact .answered ht hs (hA _ _ hr)
    | list => simp [kind] at hd
    | map => simp [kind] at hd
    | other hd hs => exact .other hd hs
  | list ds ih =>
    cases h with
    | list hds => exact .list (hds.mono fun d hd t r => ih d hd)
    | other hd => simp [kind] at hd
  | map es ih =>
    cases h with
    | map hes => exact .map (hes.mono fun e he t r => ih e he)
    | other hd => simp [kind] at hd

/-- The value at a key of a filled map is the filled value at the key. -/
theorem FilledEntries.get? {es ts rs : List (String × Document)} (h : FilledEntries A es ts rs)
    {key : String} {d : Document} (hd : Assoc.get? key es = some d) :
    ∃ r, Assoc.get? key rs = some r ∧ Filled A d (orNull (Assoc.get? key ts)) r := by
  induction es generalizing rs with
  | nil => simp at hd
  | cons e es ih =>
    obtain ⟨k, d'⟩ := e
    rcases h with _ | ⟨hd', hes⟩
    by_cases hk : k = key
    · subst hk
      simp only [Assoc.get?, if_true, Option.some.injEq] at hd ⊢
      subst hd
      exact ⟨_, rfl, hd'⟩
    · simp only [Assoc.get?, hk, if_false] at hd ⊢
      exact ih hes hd

theorem FilledEntries.keys {es ts rs : List (String × Document)} (h : FilledEntries A es ts rs) :
    rs.map Prod.fst = es.map Prod.fst := by
  induction es generalizing rs with
  | nil =>
    cases h
    rfl
  | cons e es ih =>
    rcases h with _ | ⟨_, hes⟩
    simp [ih hes]

theorem FilledItems.mem {ds ts rs : List Document} (h : FilledItems A ds ts rs) {r : Document}
    (hr : r ∈ rs) : ∃ d ∈ ds, ∃ t, (t = .null ∨ t ∈ ts) ∧ Filled A d t r := by
  induction ds generalizing ts rs with
  | nil =>
    cases h
    simp at hr
  | cons d ds ih =>
    rcases h with _ | ⟨hd, hds⟩
    rcases List.mem_cons.1 hr with rfl | hr
    · refine ⟨d, List.mem_cons_self, _, ?_, hd⟩
      cases ts with
      | nil => exact Or.inl rfl
      | cons t ts => exact Or.inr List.mem_cons_self
    · obtain ⟨x, hx, t, ht, hfilled⟩ := ih hds hr
      exact ⟨x, List.mem_cons_of_mem d hx, t, ht.imp_right List.mem_of_mem_tail, hfilled⟩

theorem FilledEntries.mem {es ts rs : List (String × Document)} (h : FilledEntries A es ts rs)
    {e : String × Document} (he : e ∈ rs) :
    ∃ d, (e.1, d) ∈ es ∧ Filled A d (orNull (Assoc.get? e.1 ts)) e.2 := by
  induction es generalizing rs with
  | nil =>
    cases h
    simp at he
  | cons f es ih =>
    rcases h with _ | ⟨hd, hes⟩
    rcases List.mem_cons.1 he with rfl | he
    · exact ⟨_, List.mem_cons_self, hd⟩
    · obtain ⟨d, hd, hfilled⟩ := ih hes he
      exact ⟨d, List.mem_cons_of_mem _ hd, hfilled⟩

/-- What a target has at a key, or null, is null or a part of it. -/
theorem orNull_get?_cases (key : String) (d : Document) :
    orNull (Assoc.get? key d.entries) = .null ∨ Part (orNull (Assoc.get? key d.entries)) d := by
  cases h : Assoc.get? key d.entries with
  | none => exact Or.inl rfl
  | some v => exact Or.inr (part_of_get? h)

/-- The ways in which a part comes into a filled document: a finished translation of the target, a
part of an answer, a leaf of the source that is no text with content, or a filled container. -/
inductive FilledPart (A : String → Document → Prop) (source target n : Document) : Prop
  | target : Part n target → n.isTranslated = true → FilledPart A source target n
  | answer {s : String} {a : Document} : A s a → Part n a → FilledPart A source target n
  | source : Part n source → n.kind = .scalar → (∀ s, n = .string s → s = "") →
      FilledPart A source target n
  | filled {x t : Document} : Part x source → x.kind ≠ .scalar → t = .null ∨ Part t target →
      Filled A x t n → FilledPart A source target n

theorem FilledPart.lift {source target x t n : Document} (h : FilledPart A x t n)
    (hx : Part x source) (ht : t = .null ∨ Part t target) : FilledPart A source target n := by
  have htrans : ∀ {y : Document}, Part y t → y = .null ∨ Part y target := by
    intro y hy
    rcases ht with rfl | ht
    · exact Or.inl (eq_of_part_scalar rfl hy)
    · exact Or.inr (hy.trans ht)
  cases h with
  | target hn htranslated =>
    rcases htrans hn with rfl | hn
    · simp [isTranslated, isNumber] at htranslated
    · exact .target hn htranslated
  | answer ha hn => exact .answer ha hn
  | source hn hscalar hempty => exact .source (hn.trans hx) hscalar hempty
  | filled hy hkind hz hfilled =>
    refine .filled (hy.trans hx) hkind ?_ hfilled
    rcases hz with hz | hz
    · exact Or.inl hz
    · exact htrans hz

theorem kind_of_isTranslated {d : Document} (h : d.isTranslated = true) : d.kind = .scalar := by
  cases d with
  | list => simp [isTranslated, isNumber] at h
  | map => simp [isTranslated, isNumber] at h
  | _ => rfl

theorem stays_of_isTranslated {d : Document} (h : d.isTranslated = true) : d.Stays := by
  cases d with
  | string s => exact Or.inr h
  | _ => exact Or.inl h

/-- With scalars for answers, a filled document has a scalar where its source has one. -/
theorem Filled.kind_of_scalar {d t r : Document} (h : Filled A d t r) (hd : d.kind = .scalar)
    (hA : ∀ s a, A s a → a.kind = .scalar) : r.kind = .scalar := by
  cases h with
  | kept ht => exact kind_of_isTranslated ht
  | empty => rfl
  | answered _ _ ha => exact hA _ _ ha
  | list => simp [kind] at hd
  | map => simp [kind] at hd
  | other => exact hd

/-- The origin of every part of a filled document. -/
theorem Filled.part {d t r n : Document} (h : Filled A d t r) (hn : Part n r) :
    FilledPart A d t n := by
  induction d using structuralRec generalizing t r n with
  | scalar d hd =>
    cases h with
    | kept ht =>
      obtain rfl := eq_of_part_scalar (kind_of_isTranslated ht) hn
      exact .target .self ht
    | empty =>
      obtain rfl := eq_of_part_scalar rfl hn
      exact .source .self rfl fun s hs => by cases hs; rfl
    | answered _ _ ha => exact .answer ha hn
    | list => simp [kind] at hd
    | map => simp [kind] at hd
    | other hd hs =>
      obtain rfl := eq_of_part_scalar hd hn
      exact .source .self hd fun s hns => absurd hns (hs s)
  | list ds ih =>
    have hlist := h
    cases h with
    | list hds =>
      rcases part_list_iff.1 hn with rfl | ⟨x, hx, hn⟩
      · exact .filled .self (by simp [kind]) (Or.inr .self) hlist
      · obtain ⟨d, hd, t', ht', hfilled⟩ := hds.mem hx
        exact (ih d hd hfilled hn).lift (.item hd .self) (ht'.imp_right part_item_of_mem)
    | other hd => simp [kind] at hd
  -- an entry that is filled was at its key before, with a target of its own or none
  | map es ih =>
    have hmap := h
    cases h with
    | map hes =>
      rcases part_map_iff.1 hn with rfl | ⟨e, he, hn⟩
      · exact .filled .self (by simp [kind]) (Or.inr .self) hmap
      · obtain ⟨d, hd, hfilled⟩ := hes.mem he
        exact (ih _ hd hfilled hn).lift (.value hd .self) (orNull_get?_cases e.1 t)
    | other hd => simp [kind] at hd

/-- A text of a filled document is empty, a text of the target, or a text of an answer. -/
theorem Filled.part_string {d t r : Document} {s : String} (h : Filled A d t r)
    (hs : Part (.string s) r) :
    s = "" ∨ Part (.string s) t ∨ ∃ s' a, A s' a ∧ Part (.string s) a := by
  cases h.part hs with
  | target ht _ => exact Or.inr (Or.inl ht)
  | answer ha hn => exact Or.inr (Or.inr ⟨_, _, ha, hn⟩)
  | source _ _ hempty => exact Or.inl (hempty s rfl)
  | filled _ hkind _ hfilled =>
    cases hfilled with
    | other hscalar => exact absurd hscalar hkind
    | _ => exact absurd rfl hkind

/-- Filling a storable target along a storable source with storable answers gives a storable
document. -/
theorem Filled.storable {d t r : Document} (h : Filled A d t r) (hd : d.Storable)
    (ht : t.Storable) (hA : ∀ s a, A s a → a.Storable) : r.Storable := by
  intro n hn
  cases h.part hn with
  | target hn _ => exact ht n hn
  | answer ha hn => exact hA _ _ ha n hn
  | source hn _ _ => exact hd n hn
  | @filled x t' hx hkind _ hfilled =>
    cases hfilled with
    | list _ => trivial
    | map hes =>
      change (List.map Prod.fst _).Nodup
      rw [hes.keys]
      exact (hd.part hx).fits
    | other hscalar => exact absurd hscalar hkind
    | _ => exact absurd rfl hkind

/-- A finished translation at the path of a text of the source stays. -/
theorem Filled.at? {path : List String} {d t r v : Document} {s : String} (h : Filled A d t r)
    (hs : at? path d = some (.string s)) (hv : at? path t = some v)
    (htranslated : v.isTranslated = true) : at? path r = some v := by
  induction path generalizing d t r with
  | nil =>
    cases hs
    cases hv
    cases h with
    | kept => rfl
    | empty ht => simp [htranslated] at ht
    | answered ht => simp [htranslated] at ht
    | other _ hne => exact absurd rfl (hne s)
  | cons key rest ih =>
    -- The source has a map here, and the fill goes on below one key of both documents.
    rw [at?_cons, Option.bind_eq_some_iff] at hs hv
    obtain ⟨d', hd', hs⟩ := hs
    obtain ⟨t', ht', hv⟩ := hv
    rw [eq_map_of_get? hd'] at h
    cases h with
    | map hes =>
      obtain ⟨r', hr', hfilled⟩ := hes.get? hd'
      have htarget : orNull (Assoc.get? key t.entries) = t' := by
        change orNull (t.get? key) = t'
        rw [ht']
        rfl
      rw [htarget] at hfilled
      rw [at?_cons, get?_map, hr']
      exact ih hfilled hs hv
    | other hd => simp [kind] at hd

/-! ## Filling again -/

theorem filledItems_self {ds rs : List Document}
    (h : List.Forall₂ (fun d r => Filled A d r r) ds rs) : FilledItems A ds rs rs := by
  induction h with
  | nil => exact .nil
  | cons hd _ ih => exact .cons hd ih

/-- Each entry of a map without repeated keys is found at its key, whatever entries come before. -/
theorem filledEntries_self (front : List (String × Document)) {es rs : List (String × Document)}
    (hkeys : ((front ++ rs).map Prod.fst).Nodup)
    (h : List.Forall₂ (fun e r => e.1 = r.1 ∧ Filled A e.2 r.2 r.2) es rs) :
    FilledEntries A es (front ++ rs) rs := by
  induction h generalizing front with
  | nil => exact .nil
  | @cons e r es rs he _ ih =>
    obtain ⟨key, d⟩ := e
    obtain ⟨key', r⟩ := r
    obtain ⟨rfl, hfilled⟩ := he
    have hget : Assoc.get? key (front ++ (key, r) :: rs) = some r :=
      Assoc.get?_of_mem hkeys (by simp)
    refine .cons ?_ ?_
    · rw [hget]
      exact hfilled
    · have := ih (front ++ [(key, r)]) (by simpa using hkeys)
      simpa using this

theorem FilledItems.forall₂ (R : Document → Document → Prop) {ds : List Document}
    (h : ∀ d ∈ ds, ∀ t r, Filled A d t r → R d r) :
    ∀ {ts rs : List Document}, FilledItems A ds ts rs → List.Forall₂ R ds rs := by
  induction ds with
  | nil =>
    rintro ts rs ⟨⟩
    exact .nil
  | cons d ds ih =>
    rintro ts rs (_ | ⟨hd, hds⟩)
    exact .cons (h d List.mem_cons_self _ _ hd)
      (ih (fun x hx => h x (List.mem_cons_of_mem d hx)) hds)

theorem FilledEntries.forall₂ (R : Document → Document → Prop) {es : List (String × Document)}
    (h : ∀ e ∈ es, ∀ t r, Filled A e.2 t r → R e.2 r) :
    ∀ {ts rs : List (String × Document)}, FilledEntries A es ts rs →
      List.Forall₂ (fun e r => e.1 = r.1 ∧ R e.2 r.2) es rs := by
  induction es with
  | nil =>
    rintro ts rs ⟨⟩
    exact .nil
  | cons e es ih =>
    rintro ts rs (_ | ⟨hd, hes⟩)
    exact .cons ⟨rfl, h _ List.mem_cons_self _ _ hd⟩
      (ih (fun x hx => h x (List.mem_cons_of_mem _ hx)) hes)

/-- A filled document, filled again along the same source, stays without an answer. -/
theorem Filled.again {d t r : Document} (h : Filled A d t r) (hd : d.WellFormed)
    (hA : ∀ s a, A s a → a.isTranslated = true) : Filled B d r r := by
  induction d using structuralRec generalizing t r with
  | scalar d hscalar =>
    -- every answer is translated, so a second filling keeps it
    cases h with
    | kept ht => exact .kept ht
    | empty => exact .empty rfl
    | answered _ _ ha => exact .kept (hA _ _ ha)
    | list => simp [kind] at hscalar
    | map => simp [kind] at hscalar
    | other hd hs => exact .other hd hs
  | list ds ih =>
    cases h with
    | list hds =>
      exact .list (filledItems_self (hds.forall₂ (fun d r => Filled B d r r)
        fun d hmem t r h => ih d hmem h (wellFormed_list_iff.1 hd d hmem)))
    | other hd => simp [kind] at hd
  | map es ih =>
    obtain ⟨hkeys, hvalues⟩ := wellFormed_map_iff.1 hd
    cases h with
    | map hes =>
      rw [← hes.keys] at hkeys
      exact .map (filledEntries_self [] hkeys (hes.forall₂ (fun d r => Filled B d r r)
        fun e hmem t r h => ih e hmem h (hvalues e hmem)))
    | other hd => simp [kind] at hd

/-! ## Filling with answers that have no effect -/

section Pure

variable {m : Type → Type} [Monad m] [LawfulMonad m] {translate : String → m Document}

/-- The answers that a translation gives without an effect. -/
def PureAnswer (translate : String → m Document) : String → Document → Prop :=
  fun s a => translate s = pure a

theorem fillItems_eq_pure {ds : List Document}
    (ih : ∀ d ∈ ds, ∀ t r, Filled (PureAnswer translate) d t r → fill translate d t = pure r) :
    ∀ {ts rs : List Document}, FilledItems (PureAnswer translate) ds ts rs →
      fillItems translate ds ts = pure rs := by
  induction ds with
  | nil =>
    rintro ts rs ⟨⟩
    rfl
  | cons d ds ihs =>
    rintro ts rs (_ | ⟨hd, hds⟩)
    rw [fillItems, ih d List.mem_cons_self _ _ hd, pure_bind,
      ihs (fun x hx => ih x (List.mem_cons_of_mem d hx)) hds, pure_bind]

theorem fillEntries_eq_pure {es : List (String × Document)}
    (ih : ∀ e ∈ es, ∀ t r, Filled (PureAnswer translate) e.2 t r →
      fill translate e.2 t = pure r) :
    ∀ {ts rs : List (String × Document)}, FilledEntries (PureAnswer translate) es ts rs →
      fillEntries translate es ts = pure rs := by
  induction es with
  | nil =>
    rintro ts rs ⟨⟩
    rfl
  | cons e es ihs =>
    rintro ts rs (_ | ⟨hd, hes⟩)
    rw [fillEntries, ih _ List.mem_cons_self _ _ hd, pure_bind,
      ihs (fun x hx => ih x (List.mem_cons_of_mem _ hx)) hes, pure_bind]

/-- A fill whose answers have no effect does nothing but give its result. -/
theorem fill_eq_pure_of_answers {d t r : Document} (h : Filled (PureAnswer translate) d t r) :
    fill translate d t = pure r := by
  induction d using structuralRec generalizing t r with
  | scalar d hd =>
    cases h with
    | kept ht => simp [fill, ht]
    | empty ht => simp [fill, ht]
    | @answered s _ r ht hs hr =>
      have hanswer : translate s = pure r := hr
      simpa [fill, ht, hs] using hanswer
    | list => simp [kind] at hd
    | map => simp [kind] at hd
    | other _ hne =>
      cases d with
      | string s => exact absurd rfl (hne s)
      | list => simp [kind] at hd
      | map => simp [kind] at hd
      | _ => rfl
  | list ds ih =>
    cases h with
    | list hds => rw [fill, fillItems_eq_pure (fun d hd t r h => ih d hd h) hds, pure_bind]
    | other hd => simp [kind] at hd
  | map es ih =>
    cases h with
    | map hes => rw [fill, fillEntries_eq_pure (fun e he t r h => ih e he h) hes, pure_bind]
    | other hd => simp [kind] at hd

/-- No answer is ever given. -/
def NoAnswer : String → Document → Prop :=
  fun _ _ => False

/-- A fill that needs no answer does nothing but give its result. -/
theorem fill_eq_pure {d t r : Document} (h : Filled NoAnswer d t r) :
    fill translate d t = pure r :=
  fill_eq_pure_of_answers (h.mono fun _ _ hnone => hnone.elim)

end Pure

end ThemeLocales.Document
