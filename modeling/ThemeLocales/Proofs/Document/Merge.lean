import ThemeLocales.Document.Merge
import ThemeLocales.Document.Prune
import ThemeLocales.Proofs.Document.Path
import ThemeLocales.Proofs.Document.Storable

/-!
# Where the parts of a merged document come from

Every part of a merged document is the empty text, stands in what the existing document kept, is a
leaf that the update brought, or is itself the merge of two parts (`MergePart`). What merging
keeps of a document as a whole follows from that one list of cases. A part of a pruned document is a
part of the document, pruned.
-/

set_option autoImplicit false

namespace ThemeLocales.Document

/-- What merging keeps of an existing document as it is: a number or content. -/
def Stays (d : Document) : Prop :=
  d.isNumber = true ∨ d.isContent = true

theorem not_stays_null : ¬ null.Stays := by
  simp [Stays, isNumber, isContent]

/-- What is left where a leaf meets an existing value: the value if it stays, otherwise the empty
text or, if the update may bring content, its content. -/
theorem settle_cases (policy : Policy) (u origin : Document) :
    origin.Stays ∧ settle policy u origin = origin ∨
      ¬ origin.Stays ∧ (settle policy u origin = .string "" ∨
        policy = .preserve ∧ u.isContent = true ∧ settle policy u origin = u) := by
  by_cases hstays : origin.Stays
  · exact Or.inl ⟨hstays, settle_of_stays policy u hstays⟩
  · refine Or.inr ⟨hstays, ?_⟩
    have hnot : (origin.isNumber || origin.isContent) = false := by
      simpa [Stays, not_or] using hstays
    cases policy with
    | structureOnly => simp [settle, hnot]
    | preserve => by_cases hcontent : u.isContent = true <;> simp [settle, hnot, hcontent]

/-- The ways in which a part comes into a merged document. -/
inductive MergePart (policy : Policy) (origin update n : Document) : Prop
  | empty : n = .string "" → MergePart policy origin update n
  | kept {x : Document} : Part x origin → x.Stays → Part n x → MergePart policy origin update n
  | taken : policy = .preserve → Part n update → n.kind = .scalar → n.isContent = true →
      MergePart policy origin update n
  | merged {x y : Document} : x = .null ∨ Part x origin → Part y update → y.kind ≠ .scalar →
      n = merge policy x y → MergePart policy origin update n

/-- The ways of a part of a merge of parts are ways of the whole. -/
theorem MergePart.lift {policy : Policy} {origin update x y n : Document}
    (h : MergePart policy x y n) (hx : x = .null ∨ Part x origin) (hy : Part y update) :
    MergePart policy origin update n := by
  cases h with
  | empty h => exact .empty h
  | @kept z hz hstays hn =>
    rcases hx with rfl | hx
    · rw [eq_of_part_scalar rfl hz] at hstays
      exact absurd hstays not_stays_null
    · exact .kept (hz.trans hx) hstays hn
  | taken hpolicy hn hscalar hcontent => exact .taken hpolicy (hn.trans hy) hscalar hcontent
  | @merged x' y' hx' hy' hkind hn =>
    refine .merged (x := x') ?_ (hy'.trans hy) hkind hn
    rcases hx' with rfl | hx'
    · exact Or.inl rfl
    · rcases hx with rfl | hx
      · exact Or.inl (eq_of_part_scalar rfl hx')
      · exact Or.inr (hx'.trans hx)

theorem mem_applyEach {fs : List (Document → Document)} {ds : List Document} {d : Document}
    (h : d ∈ applyEach fs ds) : ∃ f ∈ fs, ∃ x, (x = .null ∨ x ∈ ds) ∧ d = f x := by
  induction fs generalizing ds with
  | nil => simp [applyEach] at h
  | cons f fs ih =>
    cases ds with
    | nil =>
      rcases List.mem_cons.1 h with rfl | h
      · exact ⟨f, List.mem_cons_self, .null, Or.inl rfl, rfl⟩
      · obtain ⟨g, hg, x, hx, hd⟩ := ih h
        exact ⟨g, List.mem_cons_of_mem f hg, x, hx, hd⟩
    | cons y ds =>
      rcases List.mem_cons.1 h with rfl | h
      · exact ⟨f, List.mem_cons_self, y, Or.inr List.mem_cons_self, rfl⟩
      · obtain ⟨g, hg, x, hx, hd⟩ := ih h
        exact ⟨g, List.mem_cons_of_mem f hg, x, hx.imp_right (List.mem_cons_of_mem y), hd⟩

theorem mem_sorted {ds : List Document} {d : Document} : d ∈ sorted ds ↔ d ∈ ds :=
  List.mem_mergeSort

/-- An item of a merged list is the merge of an item of the update. -/
theorem mem_merge_list {policy : Policy} {origin d : Document} {us : List Document}
    (h : d ∈ (merge policy origin (.list us)).items) :
    ∃ u ∈ us, ∃ x, (x = .null ∨ x ∈ origin.items) ∧ d = merge policy x u := by
  rw [merge_list] at h
  obtain ⟨f, hf, x, hx, hd⟩ := mem_applyEach h
  obtain ⟨u, hu, rfl⟩ := List.mem_map.1 hf
  exact ⟨u, mem_sorted.1 hu, x, hx.imp_right mem_sorted.1, hd⟩

theorem merge_map_eq_map (policy : Policy) (origin : Document) (es : List (String × Document)) :
    merge policy origin (.map es) = .map (merge policy origin (.map es)).entries := by
  rw [merge_map]
  rfl

/-- The keys of a merged map: the existing keys in their order, then the other keys of the update in
the order of the update. -/
theorem keys_merge_map (policy : Policy) (origin : Document) (es : List (String × Document)) :
    Assoc.keys (merge policy origin (.map es)).entries = Assoc.keys origin.entries ++
      (Assoc.keys es).filter fun key => key ∉ Assoc.keys origin.entries := by
  have hnew : ∀ key, (!Assoc.contains key origin.entries) =
      decide (key ∉ Assoc.keys origin.entries) := by
    intro key
    rw [Bool.eq_iff_iff, Bool.not_eq_true', ← Bool.not_eq_true, Assoc.contains_iff,
      decide_eq_true_eq]
    rfl
  rw [merge_map, entries, mergeEntries, Assoc.keys, List.map_append, List.map_map, List.map_map,
    List.filter_map, List.map_map]
  simp only [hnew, Assoc.keys, List.filter_map]
  rfl

/-- What the update of a map does to the value at a key; an update that is missing counts as
null. -/
theorem getD_merger (policy : Policy) (key : String) (es : List (String × Document))
    (v : Document) :
    ((Assoc.get? key (es.map fun e => (e.1, merger policy e.2))).getD (settle policy .null)) v =
      merge policy v (orNull (Assoc.get? key es)) := by
  rw [Assoc.get?_map fun _ u => merger policy u]
  cases Assoc.get? key es <;> rfl

/-- An entry of a merged map is the merge of the entries at its key; one that is missing counts as
null. -/
theorem mem_merge_map {policy : Policy} {origin : Document} {es : List (String × Document)}
    {e : String × Document} (h : e ∈ (merge policy origin (.map es)).entries) :
    ∃ x u, (x = .null ∨ (e.1, x) ∈ origin.entries) ∧ (u = .null ∨ (e.1, u) ∈ es) ∧
      e.2 = merge policy x u := by
  rw [merge_map] at h
  change e ∈ mergeEntries policy (es.map fun e => (e.1, merger policy e.2)) origin.entries at h
  rcases List.mem_append.1 h with h | h
  · obtain ⟨⟨key, x⟩, hx, rfl⟩ := List.mem_map.1 h
    refine ⟨x, orNull (Assoc.get? key es), Or.inr hx, ?_, ?_⟩
    · cases hkey : Assoc.get? key es with
      | none => exact Or.inl rfl
      | some u => exact Or.inr (Assoc.mem_of_get? hkey)
    · exact getD_merger policy key es x
  · obtain ⟨⟨key, f⟩, hf, rfl⟩ := List.mem_map.1 h
    obtain ⟨⟨key', u⟩, hu, hpair⟩ := List.mem_map.1 (List.mem_filter.1 hf).1
    obtain ⟨rfl, rfl⟩ := Prod.mk.inj hpair
    exact ⟨.null, u, Or.inl rfl, Or.inr hu, rfl⟩

theorem part_item_of_mem {d x : Document} (h : x ∈ d.items) : Part x d := by
  cases d with
  | list ds => exact .item h .self
  | _ => simp [items] at h

theorem part_value_of_mem {d : Document} {e : String × Document} (h : e ∈ d.entries) :
    Part e.2 d := by
  cases d with
  | map es => exact .value h .self
  | _ => simp [entries] at h

/-- Where a leaf meets an existing value, the value stays or gives place to a leaf. -/
theorem mergePart_settle {policy : Policy} {origin u n : Document} (hu : u.kind = .scalar)
    (h : Part n (settle policy u origin)) : MergePart policy origin u n := by
  rcases settle_cases policy u origin with ⟨hstays, heq⟩ | ⟨-, heq | ⟨rfl, hcontent, heq⟩⟩
  · rw [heq] at h
    exact .kept .self hstays h
  · rw [heq] at h
    exact .empty (eq_of_part_scalar rfl h)
  · rw [heq] at h
    obtain rfl := eq_of_part_scalar hu h
    exact .taken rfl .self hu hcontent

/-- The origin of every part of a merged document. -/
theorem mergePart_of_part {policy : Policy} {origin update n : Document}
    (h : Part n (merge policy origin update)) : MergePart policy origin update n := by
  induction update using structuralRec generalizing origin n with
  | scalar u hu =>
    rw [merge_scalar policy origin hu] at h
    exact mergePart_settle hu h
  | list us ih =>
    have hlist : merge policy origin (.list us) =
        .list (merge policy origin (.list us)).items := by
      rw [merge_list]
      rfl
    rw [hlist, part_list_iff, ← hlist] at h
    -- A part of a list is the list itself or a part of an item.
    rcases h with rfl | ⟨d, hd, hn⟩
    · exact .merged (Or.inr .self) .self (by simp [kind]) rfl
    · obtain ⟨u, hu, x, hx, rfl⟩ := mem_merge_list hd
      exact (ih u hu hn).lift (hx.imp_right part_item_of_mem) (.item hu .self)
  | map es ih =>
    have hmap := merge_map_eq_map policy origin es
    rw [hmap, part_map_iff, ← hmap] at h
    -- A part of a map is the map itself or a part of a value.
    rcases h with rfl | ⟨e, he, hn⟩
    · exact .merged (Or.inr .self) .self (by simp [kind]) rfl
    · obtain ⟨x, u, hx, hu, heq⟩ := mem_merge_map he
      rw [heq] at hn
      have hx' : x = .null ∨ Part x origin := hx.imp_right part_value_of_mem
      rcases hu with rfl | hu
      · -- the update has nothing at the key, so only the existing value counts
        rw [merge_scalar policy x rfl] at hn
        cases mergePart_settle rfl hn with
        | empty h => exact .empty h
        | @kept y hy hstays hpart =>
          rcases hx' with rfl | hx'
          · rw [eq_of_part_scalar rfl hy] at hstays
            exact absurd hstays not_stays_null
          · exact .kept (hy.trans hx') hstays hpart
        | taken _ hnull _ hcontent =>
          rw [eq_of_part_scalar rfl hnull] at hcontent
          simp [isContent] at hcontent
        | merged _ hy hkind _ => exact absurd (congrArg kind (eq_of_part_scalar rfl hy)) hkind
      · exact (ih (e.1, u) hu hn).lift hx' (.value hu .self)

/-! ## Texts -/

/-- Applying only the structure of an update brings none of its texts. -/
theorem part_string_merge_structureOnly {origin update : Document} {s : String}
    (h : Part (.string s) (merge .structureOnly origin update)) :
    s = "" ∨ Part (.string s) origin := by
  cases mergePart_of_part h with
  | empty h => exact Or.inl (by cases h; rfl)
  | kept hx _ hn => exact Or.inr (hn.trans hx)
  | taken hpolicy => cases hpolicy
  | @merged x y _ _ hkind heq =>
    cases y with
    | list us =>
      rw [merge_list] at heq
      cases heq
    | map es =>
      rw [merge_map] at heq
      cases heq
    | _ => exact absurd rfl hkind

/-! ## Storability -/

theorem nodup_keys_merge (policy : Policy) {origin : Document} {es : List (String × Document)}
    (horigin : (origin.entries.map Prod.fst).Nodup) (hes : (es.map Prod.fst).Nodup) :
    ((merge policy origin (.map es)).entries.map Prod.fst).Nodup := by
  change (Assoc.keys _).Nodup
  rw [keys_merge_map]
  apply List.Nodup.append horigin (hes.filter _)
  intro key hkey hnew
  rw [List.mem_filter, decide_eq_true_eq] at hnew
  exact hnew.2 hkey

theorem Storable.nodup_keys {d : Document} (h : d.Storable) : (d.entries.map Prod.fst).Nodup := by
  cases d with
  | map es => exact h.fits
  | _ => simp [entries]

/-- Merging storable documents gives a storable document. -/
theorem storable_merge {policy : Policy} {origin update : Document} (horigin : origin.Storable)
    (hupdate : update.Storable) : (merge policy origin update).Storable := by
  intro n hn
  cases mergePart_of_part hn with
  | empty h =>
    rw [h]
    trivial
  | kept hx _ hn => exact horigin n (hn.trans hx)
  | taken _ hn => exact hupdate n hn
  -- only maps are merged by entries, and their keys stay distinct
  | @merged x y hx hy hkind heq =>
    rw [heq]
    cases y with
    | list us =>
      rw [merge_list]
      trivial
    | map es =>
      have hx' : x.Storable := by
        rcases hx with rfl | hx
        · exact storable_null
        · exact horigin.part hx
      have := nodup_keys_merge policy hx'.nodup_keys (hupdate.part hy).fits
      rw [merge_map] at this ⊢
      exact this
    | _ => exact absurd rfl hkind

/-! ## Pruning -/

theorem mem_pruneItems {ds rs : List Document} {d : Document} (h : d ∈ pruneItems ds rs) :
    ∃ x ∈ ds, ∃ r, d = prune x r := by
  induction ds generalizing rs with
  | nil => simp [pruneItems] at h
  | cons x ds ih =>
    cases rs with
    | nil => simp [pruneItems] at h
    | cons r rs =>
      rcases List.mem_cons.1 h with rfl | h
      · exact ⟨x, List.mem_cons_self, r, rfl⟩
      · obtain ⟨y, hy, hd⟩ := ih h
        exact ⟨y, List.mem_cons_of_mem x hy, hd⟩

theorem mem_pruneEntries {es rs : List (String × Document)} {e : String × Document}
    (h : e ∈ pruneEntries es rs) :
    ∃ x, (e.1, x) ∈ es ∧ ∃ r, Assoc.get? e.1 rs = some r ∧ e.2 = prune x r := by
  induction es with
  | nil => simp [pruneEntries] at h
  | cons f es ih =>
    obtain ⟨key, x⟩ := f
    simp only [pruneEntries] at h
    have hrest : e ∈ pruneEntries es rs → ∃ y, (e.1, y) ∈ (key, x) :: es ∧
        ∃ r, Assoc.get? e.1 rs = some r ∧ e.2 = prune y r := fun h => by
      obtain ⟨y, hy, hd⟩ := ih h
      exact ⟨y, List.mem_cons_of_mem _ hy, hd⟩
    split at h
    · next r hr =>
      rcases List.mem_cons.1 h with rfl | h
      · exact ⟨x, List.mem_cons_self, r, hr, rfl⟩
      · exact hrest h
    · exact hrest h

/-- Every part of a pruned document is a part of the document, pruned. -/
theorem exists_prune_of_part {d r n : Document} (h : Part n (d.prune r)) :
    ∃ x r', Part x d ∧ n = prune x r' := by
  induction d using structuralRec generalizing r n with
  | scalar d hd =>
    rw [prune_scalar hd] at h
    exact ⟨n, .null, h, by rw [eq_of_part_scalar hd h, prune_scalar hd]⟩
  | list ds ih =>
    rw [prune, part_list_iff] at h
    rcases h with rfl | ⟨d, hd, hn⟩
    · exact ⟨_, r, .self, rfl⟩
    · obtain ⟨x, hx, r', rfl⟩ := mem_pruneItems hd
      obtain ⟨y, r'', hy, hn⟩ := ih x hx hn
      exact ⟨y, r'', .item hx hy, hn⟩
  | map es ih =>
    rw [prune, part_map_iff] at h
    rcases h with rfl | ⟨e, he, hn⟩
    · exact ⟨_, r, .self, rfl⟩
    · obtain ⟨x, hx, r', -, heq⟩ := mem_pruneEntries he
      rw [heq] at hn
      obtain ⟨y, r'', hy, hn⟩ := ih _ hx hn
      exact ⟨y, r'', .value hx hy, hn⟩

theorem kind_prune (d r : Document) : (d.prune r).kind = d.kind := by
  cases d <;> rfl

/-- The scalars of a pruned document stand in the document. -/
theorem part_of_part_prune {d r n : Document} (hn : n.kind = .scalar)
    (h : Part n (d.prune r)) : Part n d := by
  obtain ⟨x, r', hx, rfl⟩ := exists_prune_of_part h
  rw [kind_prune] at hn
  rwa [prune_scalar hn]

theorem keys_pruneEntries_sublist (es rs : List (String × Document)) :
    ((pruneEntries es rs).map Prod.fst).Sublist (es.map Prod.fst) := by
  induction es with
  | nil => exact .slnil
  | cons e es ih =>
    obtain ⟨key, d⟩ := e
    simp only [pruneEntries]
    split
    · exact ih.cons_cons key
    · exact ih.cons key

/-- Pruning a storable document gives a storable document. -/
theorem storable_prune {d : Document} (hd : d.Storable) (r : Document) :
    (d.prune r).Storable := by
  intro n hn
  obtain ⟨x, r', hx, rfl⟩ := exists_prune_of_part hn
  have hfits := hd x hx
  cases x with
  | map es => exact List.Nodup.sublist (keys_pruneEntries_sublist es _) hfits
  | list ds => trivial
  | _ => exact hfits

end ThemeLocales.Document
