import ThemeLocales.Document.Basic

/-!
# Parts of a document

`Part n d` says that `n` stands somewhere in `d`: it is `d` itself, or part of an item or of a
value. What holds "everywhere in a document" is said of its parts: a document without lists is one
none of whose parts is a list, and a text leaf is a part that is a text. A document without lists in
which no map has a key twice is a tree.

`structuralRec` is the induction over documents that the later modules use, with one case for all
scalars.
-/

set_option autoImplicit false

namespace ThemeLocales.Document

variable {τ : Type}

/-- `n` stands somewhere in a document. -/
inductive Part (n : Document τ) : Document τ → Prop
  | self : Part n n
  | item {ds : List (Document τ)} {d : Document τ} : d ∈ ds → Part n d → Part n (.list ds)
  | value {es : List (τ × Document τ)} {e : τ × Document τ} :
      e ∈ es → Part n e.2 → Part n (.map es)

theorem Part.trans {a b c : Document τ} (hab : Part a b) (hbc : Part b c) : Part a c := by
  induction hbc with
  | self => exact hab
  | item hd _ ih => exact .item hd ih
  | value he _ ih => exact .value he ih

theorem part_list_iff {n : Document τ} {ds : List (Document τ)} :
    Part n (.list ds) ↔ n = .list ds ∨ ∃ d ∈ ds, Part n d := by
  constructor
  · rintro (_ | ⟨hd, h⟩)
    · exact Or.inl rfl
    · exact Or.inr ⟨_, hd, h⟩
  · rintro (rfl | ⟨d, hd, h⟩)
    · exact .self
    · exact .item hd h

theorem part_map_iff {n : Document τ} {es : List (τ × Document τ)} :
    Part n (.map es) ↔ n = .map es ∨ ∃ e ∈ es, Part n e.2 := by
  constructor
  · rintro (_ | _ | ⟨he, h⟩)
    · exact Or.inl rfl
    · exact Or.inr ⟨_, he, h⟩
  · rintro (rfl | ⟨e, he, h⟩)
    · exact .self
    · exact .value he h

/-- A scalar has no part but itself. -/
theorem eq_of_part_scalar {n d : Document τ} (hd : d.kind = .scalar) (h : Part n d) : n = d := by
  cases h with
  | self => rfl
  | item => simp [kind] at hd
  | value => simp [kind] at hd

/-- The values of a map are parts of it. -/
theorem part_of_get? {d v : Document} {key : String} (h : d.get? key = some v) : Part v d := by
  cases d with
  | map es => exact .value (Assoc.mem_of_get? h) .self
  | _ => simp [get?, entries] at h

/-- Induction over documents: scalars, lists from their items, maps from their values. -/
@[elab_as_elim]
theorem structuralRec {motive : Document τ → Prop}
    (scalar : ∀ d, d.kind = .scalar → motive d)
    (list : ∀ ds, (∀ d ∈ ds, motive d) → motive (.list ds))
    (map : ∀ es, (∀ e ∈ es, motive e.2) → motive (.map es)) (d : Document τ) : motive d :=
  @Document.rec τ motive (fun ds => ∀ d ∈ ds, motive d) (fun es => ∀ e ∈ es, motive e.2)
    (fun e => motive e.2)
    (scalar _ rfl) (fun _ => scalar _ rfl) (fun _ => scalar _ rfl) (fun _ => scalar _ rfl)
    (fun _ => scalar _ rfl) (fun ds ih => list ds ih) (fun es ih => map es ih)
    (fun _ h => absurd h List.not_mem_nil)
    (fun _ _ hd hds => List.forall_mem_cons.2 ⟨hd, hds⟩)
    (fun _ h => absurd h List.not_mem_nil)
    (fun _ _ he hes => List.forall_mem_cons.2 ⟨he, hes⟩)
    (fun _ _ h => h) d

theorem wellFormed_list_iff {ds : List Document} :
    (list ds).WellFormed ↔ ∀ d ∈ ds, d.WellFormed := by
  rw [WellFormed]
  induction ds with
  | nil => simp [WellFormedItems]
  | cons d ds ih => rw [WellFormedItems, ih, List.forall_mem_cons]

theorem wellFormed_map_iff {es : List (String × Document)} :
    (map es).WellFormed ↔ (es.map Prod.fst).Nodup ∧ ∀ e ∈ es, e.2.WellFormed := by
  have hvalues : WellFormedEntries es ↔ ∀ e ∈ es, e.2.WellFormed := by
    induction es with
    | nil => simp [WellFormedEntries]
    | cons e es ih => rw [WellFormedEntries, ih, List.forall_mem_cons]
  rw [WellFormed, hvalues]

/-- No list stands anywhere in the document. -/
def ListFree (d : Document) : Prop :=
  ∀ n, Part n d → n.kind ≠ .sequence

theorem ListFree.part {n d : Document} (hd : d.ListFree) (h : Part n d) : n.ListFree :=
  fun m hm => hd m (hm.trans h)

theorem listFree_of_scalar {d : Document} (hd : d.kind = .scalar) : d.ListFree := by
  intro n h
  rw [eq_of_part_scalar hd h, hd]
  decide

theorem listFree_map_iff {es : List (String × Document)} :
    (Document.map es).ListFree ↔ ∀ e ∈ es, e.2.ListFree := by
  constructor
  · exact fun h e he => h.part (.value he .self)
  · intro h n hn
    rcases part_map_iff.1 hn with rfl | ⟨e, he, hpart⟩
    · simp [kind]
    · exact h e he n hpart

/-- What a document without lists has at a key, or null, is without lists. -/
theorem ListFree.orNull_get? {d : Document} (hd : d.ListFree) (key : String) :
    (orNull (d.get? key)).ListFree := by
  cases h : d.get? key with
  | none => exact listFree_of_scalar rfl
  | some v => exact hd.part (part_of_get? h)

/-- A document of maps and scalars in which no map has a key twice. -/
structure Tree (d : Document) : Prop where
  keys : ∀ {es}, Part (map es) d → (es.map Prod.fst).Nodup
  listFree : d.ListFree

theorem tree_of_scalar {d : Document} (h : d.kind = .scalar) : d.Tree where
  keys hpart := by
    rw [← eq_of_part_scalar h hpart] at h
    cases h
  listFree := listFree_of_scalar h

@[simp] theorem tree_string (s : String) : (string s).Tree :=
  tree_of_scalar rfl

@[simp] theorem tree_int (n : Int) : (int n).Tree :=
  tree_of_scalar rfl

theorem tree_map_iff {es : List (String × Document)} :
    (map es).Tree ↔ (es.map Prod.fst).Nodup ∧ ∀ e ∈ es, e.2.Tree := by
  constructor
  · exact fun h => ⟨h.keys .self, fun e he =>
      ⟨fun hpart => h.keys (.value he hpart), listFree_map_iff.1 h.listFree e he⟩⟩
  · rintro ⟨hkeys, hvalues⟩
    refine ⟨fun hpart => ?_, listFree_map_iff.2 fun e he => (hvalues e he).listFree⟩
    rcases part_map_iff.1 hpart with heq | ⟨e, he, hpart⟩
    · cases heq
      exact hkeys
    · exact (hvalues e he).keys hpart

end ThemeLocales.Document
