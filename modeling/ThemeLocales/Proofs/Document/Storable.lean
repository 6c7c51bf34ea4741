import ThemeLocales.Number.Reading
import ThemeLocales.Proofs.Document.Part
import ThemeLocales.Proofs.Number.Rounding

/-!
# Documents that a file can hold

A document is storable when a file can hold it as it is: no map has a key twice, every integer is
short enough to be read again, and every double is one of the format.
-/

set_option autoImplicit false

namespace ThemeLocales.Document

variable {τ : Type}

/-- What the parts of a storable document satisfy by themselves. -/
def Fits : Document τ → Prop
  | int n => Binary64.digitCount n.natAbs ≤ Number.longestInteger
  | real x => x.Canonical
  | map es => (es.map Prod.fst).Nodup
  | _ => True

/-- A file can hold the document as it is. -/
def Storable (d : Document τ) : Prop :=
  ∀ n, Part n d → n.Fits

theorem Storable.part {n d : Document τ} (hd : d.Storable) (h : Part n d) : n.Storable :=
  fun m hm => hd m (hm.trans h)

theorem Storable.fits {d : Document τ} (hd : d.Storable) : d.Fits :=
  hd d .self

theorem storable_scalar_iff {d : Document τ} (hd : d.kind = .scalar) : d.Storable ↔ d.Fits :=
  ⟨Storable.fits, fun h _ hn => eq_of_part_scalar hd hn ▸ h⟩

@[simp] theorem storable_string (s : τ) : (string s).Storable :=
  (storable_scalar_iff rfl).2 trivial

@[simp] theorem storable_null : (null : Document τ).Storable :=
  (storable_scalar_iff rfl).2 trivial

@[simp] theorem storable_bool (b : Bool) : (bool b : Document τ).Storable :=
  (storable_scalar_iff rfl).2 trivial

theorem storable_int_iff {n : Int} :
    (int n : Document τ).Storable ↔ Binary64.digitCount n.natAbs ≤ Number.longestInteger :=
  storable_scalar_iff rfl

theorem storable_real_iff {x : Binary64} : (real x : Document τ).Storable ↔ x.Canonical :=
  storable_scalar_iff rfl

theorem storable_list_iff {ds : List (Document τ)} :
    (list ds).Storable ↔ ∀ d ∈ ds, d.Storable := by
  constructor
  · exact fun h d hd => h.part (.item hd .self)
  · intro h n hn
    rcases part_list_iff.1 hn with rfl | ⟨d, hd, hpart⟩
    · trivial
    · exact h d hd n hpart

theorem storable_map_iff {es : List (τ × Document τ)} :
    (map es).Storable ↔ (es.map Prod.fst).Nodup ∧ ∀ e ∈ es, e.2.Storable := by
  constructor
  · exact fun h => ⟨h.fits, fun e he => h.part (.value he .self)⟩
  · rintro ⟨hkeys, h⟩ n hn
    rcases part_map_iff.1 hn with rfl | ⟨e, he, hpart⟩
    · exact hkeys
    · exact h e he n hpart

/-- No map of a storable document has a key twice. -/
theorem Storable.wellFormed {d : Document} (hd : d.Storable) : d.WellFormed := by
  induction d using structuralRec with
  | scalar d hscalar =>
    cases d with
    | list => cases hscalar
    | map => cases hscalar
    | _ => trivial
  | list ds ih =>
    rw [wellFormed_list_iff]
    intro d hmem
    exact ih d hmem (storable_list_iff.1 hd d hmem)
  | map es ih =>
    obtain ⟨hkeys, hvalues⟩ := storable_map_iff.1 hd
    rw [wellFormed_map_iff]
    exact ⟨hkeys, fun e he => ih e he (hvalues e he)⟩

/-- Setting a key of a storable map to a storable value leaves it storable. -/
theorem storable_map_set [DecidableEq τ] {entries : List (τ × Document τ)} {value : Document τ}
    (hentries : (map entries).Storable) (hvalue : value.Storable) (key : τ) :
    (map (Assoc.set key value entries)).Storable := by
  rw [storable_map_iff] at hentries ⊢
  refine ⟨Assoc.nodup_keys_set value hentries.1, fun e he => ?_⟩
  rcases Assoc.eq_or_mem_of_mem_set he with rfl | he
  · exact hvalue
  · exact hentries.2 e he

theorem storable_list_append {items : List (Document τ)} {value : Document τ}
    (hitems : (list items).Storable) (hvalue : value.Storable) :
    (list (items ++ [value])).Storable := by
  rw [storable_list_iff] at hitems ⊢
  intro d hd
  rcases List.mem_append.1 hd with hd | hd
  · exact hitems d hd
  · rw [List.mem_singleton.1 hd]
    exact hvalue

end ThemeLocales.Document
