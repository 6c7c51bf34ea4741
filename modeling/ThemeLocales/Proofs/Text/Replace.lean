import ThemeLocales.Proofs.Text.Search

/-!
# Occurrences of a fragment, and their replacement

A search finds a fragment exactly when the fragment occurs (`cutAt?_eq_none_iff`), and it finds it
where it did when the text goes on (`cutAt?_append`). An occurrence cannot reach across a character
that the fragment does not have (`infix_of_infix_around`), so around a passage with two such
characters at its ends it stands on one side, inside or on the other side (`infix_of_infix_fenced`).
A replacement leaves a text alone in which the fragment does not occur, and it goes on behind the
first occurrence (`replaceAll_append`).
-/

set_option autoImplicit false

namespace ThemeLocales.Text

variable {fragment substitute cs front rest back : List Char} {c : Char}

/-! ## Where a fragment occurs -/

theorem after?_eq_some_iff : after? front cs = some rest ↔ cs = front ++ rest := by
  constructor
  · exact eq_append_of_after?
  · rintro rfl
    exact after?_append front rest

theorem after?_eq_none_iff : after? front cs = none ↔ ¬ front <+: cs := by
  rw [Option.eq_none_iff_forall_ne_some]
  constructor
  · rintro hnone ⟨rest, hrest⟩
    exact hnone rest (after?_eq_some_iff.2 hrest.symm)
  · intro hnot rest hsome
    exact hnot ⟨rest, (eq_append_of_after? hsome).symm⟩

/-- Nothing is cut exactly when the fragment does not occur. -/
theorem cutAt?_eq_none_iff : cutAt? fragment cs = none ↔ ¬ fragment <:+: cs := by
  induction cs with
  | nil =>
    rw [cutAt?, Option.map_eq_none_iff, after?_eq_none_iff, List.prefix_nil, List.infix_nil]
  | cons c cs ih =>
    rw [List.infix_cons_iff, not_or, ← ih, ← after?_eq_none_iff, cutAt?]
    cases after? fragment (c :: cs) with
    | some rest => simp
    | none => simp

theorem exists_cutAt? (h : fragment <:+: cs) :
    ∃ before rest, cutAt? fragment cs = some (before, rest) := by
  cases hcut : cutAt? fragment cs with
  | some found => exact ⟨found.1, found.2, rfl⟩
  | none => exact absurd h (cutAt?_eq_none_iff.1 hcut)

/-- A cut stays where it is when the text goes on. -/
theorem cutAt?_append (h : cutAt? fragment cs = some (front, rest)) (more : List Char) :
    cutAt? fragment (cs ++ more) = some (front, rest ++ more) := by
  induction cs generalizing front with
  | nil =>
    obtain ⟨found, hfound, heq⟩ := Option.map_eq_some_iff.1 h
    cases heq
    -- only the empty fragment is found in the empty text
    obtain ⟨rfl, rfl⟩ := List.append_eq_nil_iff.1 (eq_append_of_after? hfound).symm
    cases more <;> rfl
  | cons c cs ih =>
    rw [cutAt?] at h
    cases hfront : after? fragment (c :: cs) with
    | some found =>
      rw [hfront] at h
      cases h
      have hmore : after? fragment (c :: (cs ++ more)) = some (rest ++ more) := by
        rw [after?_eq_some_iff, ← List.append_assoc, ← eq_append_of_after? hfront, List.cons_append]
      rw [List.cons_append, cutAt?, hmore]
    | none =>
      rw [hfront] at h
      obtain ⟨⟨before, after⟩, hcut, heq⟩ := Option.map_eq_some_iff.1 h
      cases heq
      -- the fragment stands further behind, so it is not too long to be seen here
      have hlength : fragment.length ≤ (c :: cs).length := by
        rw [eq_append_of_cutAt? hcut]
        simp only [List.length_cons, List.length_append]
        omega
      have hmore : after? fragment (c :: (cs ++ more)) = none := by
        rw [after?_eq_none_iff] at hfront ⊢
        intro hprefix
        exact hfront (List.prefix_of_prefix_length_le hprefix (List.prefix_append _ more) hlength)
      rw [List.cons_append, cutAt?, hmore, ih hcut]
      rfl

/-- A fragment whose first character is missing in front occurs behind. -/
theorem infix_of_infix_append (hc : c ∉ front) (h : c :: fragment <:+: front ++ back) :
    c :: fragment <:+: back := by
  induction front with
  | nil => exact h
  | cons d front ih =>
    have hne : ¬ c = d := fun heq => hc (heq ▸ List.mem_cons_self)
    rw [List.cons_append, List.infix_cons_iff, List.cons_prefix_cons] at h
    rcases h with ⟨heq, -⟩ | h
    · exact absurd heq hne
    · exact ih (fun hmem => hc (List.mem_cons_of_mem d hmem)) h

/-- A fragment does not reach across a character that it does not have. -/
theorem infix_of_infix_around (hc : c ∉ fragment) (h : fragment <:+: front ++ c :: back) :
    fragment <:+: front ∨ fragment <:+: back := by
  -- What begins at the character is nothing.
  have hempty : ∀ ds, ds ⊆ fragment → ds <+: c :: back → ds = [] := by
    intro ds hds hprefix
    rcases List.prefix_cons_iff.1 hprefix with rfl | ⟨tail, rfl, -⟩
    · rfl
    · exact absurd (hds List.mem_cons_self) hc
  rcases List.infix_append_iff.1 h with hfront | hback | ⟨left, right, rfl, hleft, hright⟩
  · exact .inl hfront
  · rcases List.infix_cons_iff.1 hback with hprefix | hback
    · rw [hempty fragment (List.Subset.refl _) hprefix]
      exact .inl List.nil_infix
    · exact .inr hback
  · rw [hempty right (List.subset_append_right left right) hright, List.append_nil]
    exact .inl hleft.isInfix

/-- The first and the last character of a text are not in a fragment. -/
structure Fenced (fragment cs : List Char) : Prop where
  ne_nil : cs ≠ []
  head : ∀ c ∈ cs.head?, c ∉ fragment
  last : ∀ c ∈ cs.getLast?, c ∉ fragment

/-- Around a fenced text, a fragment occurs in front of it, in it or behind it. -/
theorem infix_of_infix_fenced (hcs : Fenced fragment cs) (h : fragment <:+: front ++ cs ++ back) :
    fragment <:+: front ∨ fragment <:+: cs ∨ fragment <:+: back := by
  obtain ⟨c, inside, rfl⟩ := List.exists_cons_of_ne_nil hcs.ne_nil
  have hc : c ∉ fragment := hcs.head c rfl
  rw [List.append_assoc, List.cons_append] at h
  rcases infix_of_infix_around hc h with hfront | hrest
  · exact .inl hfront
  rcases List.eq_nil_or_concat' inside with rfl | ⟨inside, d, rfl⟩
  · exact .inr (.inr hrest)
  · have hd : d ∉ fragment := hcs.last d (by rw [← List.cons_append, List.getLast?_concat]; rfl)
    rw [List.append_assoc, List.singleton_append] at hrest
    rcases infix_of_infix_around hd hrest with hinside | hback
    · refine .inr (.inl (hinside.trans ?_))
      exact (List.prefix_append inside [d]).isInfix.trans (List.suffix_cons c _).isInfix
    · exact .inr (.inr hback)

/-! ## Replacing a fragment -/

/-- Characters to skip are dropped. -/
theorem replaceFrom_skip (skip : Nat) (cs : List Char) :
    replaceFrom fragment substitute skip cs =
      replaceFrom fragment substitute 0 (cs.drop skip) := by
  induction skip generalizing cs with
  | zero => rfl
  | succ skip ih =>
    cases cs with
    | nil => rfl
    | cons c cs => exact ih cs

theorem replaceAll_of_not_infix (h : ¬ fragment <:+: cs) :
    replaceAll fragment substitute cs = cs := by
  have hne : fragment ≠ [] := fun hnil => h (hnil ▸ List.nil_infix)
  rw [replaceAll, if_neg (by simpa using hne)]
  induction cs with
  | nil => rfl
  | cons c cs ih =>
    rw [List.infix_cons_iff, not_or] at h
    rw [replaceFrom, after?_eq_none_iff.2 h.1]
    exact congrArg _ (ih h.2)

/-- The first occurrence is replaced, and the rest of the text for itself. -/
theorem replaceAll_append (hne : fragment ≠ [])
    (h : ∀ part, part ≠ [] → part <:+ front → ¬ fragment <+: part ++ (fragment ++ back)) :
    replaceAll fragment substitute (front ++ (fragment ++ back)) =
      front ++ (substitute ++ replaceAll fragment substitute back) := by
  simp only [replaceAll, if_neg (show ¬ fragment.isEmpty = true by simpa using hne)]
  induction front with
  | nil =>
    obtain ⟨c, tail, rfl⟩ := List.exists_cons_of_ne_nil hne
    have hfound : after? (c :: tail) (c :: (tail ++ back)) = some back :=
      after?_append (c :: tail) back
    rw [List.nil_append, List.nil_append, List.cons_append, replaceFrom, hfound]
    simp only [List.length_cons, Nat.add_sub_cancel, replaceFrom_skip tail.length,
      List.drop_left]
  | cons c front ih =>
    have hnot : ¬ fragment <+: c :: (front ++ (fragment ++ back)) :=
      h (c :: front) (List.cons_ne_nil c front) List.suffix_rfl
    have hrest := ih fun part hpart hsuffix =>
      h part hpart (hsuffix.trans (List.suffix_cons c front))
    rw [List.cons_append, replaceFrom, after?_eq_none_iff.2 hnot, hrest]
    rfl

end ThemeLocales.Text
