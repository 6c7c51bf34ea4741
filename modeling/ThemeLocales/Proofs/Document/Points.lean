import ThemeLocales.Document.Points
import ThemeLocales.Proofs.Document.Storable
import ThemeLocales.Proofs.Text.Units

/-!
# Strings as code points

Written as code points, a document of strings has paired surrogates only and shows itself
(`isPaired_toPoints`, `legible_toPoints`). Paired texts are told apart by what they show
(`nodup_ofPoints`), so what can be read of a document that a file can hold is such a document again
(`Storable.legible`).
-/

set_option autoImplicit false

namespace ThemeLocales

namespace Text

variable {ps ps' : Points}

theorem isPaired_points (s : String) : isPaired (points s) = true := by
  simp [isPaired, points, charAt?_toNat]

theorem ofPoints_points (s : String) : ofPoints (points s) = s := by
  have hchars : (points s).map (fun n => (charAt? n).getD '\uFFFD') = s.toList := by
    rw [points, List.map_map]
    exact (List.map_congr_left fun c _ => by simp [charAt?_toNat]).trans (List.map_id _)
  rw [ofPoints, hchars, String.ofList_toList]

theorem toNat_of_charAt? {n : ℕ} {c : Char} (h : charAt? n = some c) : c.toNat = n := by
  unfold charAt? at h
  split at h
  · next hvalid =>
    cases h
    rw [Char.ofNat, dif_pos hvalid]
    rfl
  · cases h

/-- A text without a surrogate that stands alone is the code points of what it shows. -/
theorem points_ofPoints (h : isPaired ps = true) : points (ofPoints ps) = ps := by
  rw [points, ofPoints, String.toList_ofList, List.map_map]
  refine (List.map_congr_left fun n hn => ?_).trans (List.map_id _)
  obtain ⟨c, hc⟩ := Option.isSome_iff_exists.1 (List.all_eq_true.1 h n hn)
  rw [Function.comp_apply, hc]
  exact toNat_of_charAt? hc

/-- So what they show tells such texts apart. -/
theorem nodup_ofPoints {found : List Points} (h : found.Nodup) :
    ((found.filter isPaired).map ofPoints).Nodup := by
  refine List.Nodup.map_on (fun s hs t ht heq => ?_) (h.filter _)
  rw [← points_ofPoints (List.mem_filter.1 hs).2, heq, points_ofPoints (List.mem_filter.1 ht).2]

end Text

namespace Document

open Text

/-! ## What is paired and what can be read -/

theorem isPairedItems_iff {ds : List (Document Points)} :
    isPairedItems ds = true ↔ ∀ d ∈ ds, d.isPaired = true := by
  induction ds with
  | nil => simp [isPairedItems]
  | cons d ds ih => rw [isPairedItems, Bool.and_eq_true, ih, List.forall_mem_cons]

theorem isPairedEntries_iff {es : List (Points × Document Points)} :
    isPairedEntries es = true ↔ ∀ e ∈ es, Text.isPaired e.1 = true ∧ e.2.isPaired = true := by
  induction es with
  | nil => simp [isPairedEntries]
  | cons e es ih =>
    rw [isPairedEntries, Bool.and_eq_true, Bool.and_eq_true, ih, List.forall_mem_cons]

theorem legible_list (ds : List (Document Points)) :
    legible (.list ds) = .list (ds.map legible) := by
  have hitems : legibleItems ds = ds.map legible := by
    induction ds with
    | nil => rfl
    | cons d ds ih => rw [legibleItems, ih, List.map_cons]
  rw [legible, hitems]

theorem legible_map (es : List (Points × Document Points)) :
    legible (.map es) = .map (named es ((es.filter fun e => Text.isPaired e.1).map fun e =>
      (ofPoints e.1, legible e.2))) := by
  have hentries : legibleEntries es = (es.filter fun e => Text.isPaired e.1).map fun e =>
      (ofPoints e.1, legible e.2) := by
    induction es with
    | nil => rfl
    | cons e es ih =>
      obtain ⟨key, d⟩ := e
      by_cases h : Text.isPaired key = true <;> simp [legibleEntries, h, ih]
  rw [legible, hentries]

theorem storable_named (es : List (Points × Document Points)) {read : List (String × Document)}
    (h : (Document.map read).Storable) : (Document.map (named es read)).Storable := by
  unfold named
  split
  · simp [storable_map_iff]
  · exact h

/-- Where all entries can be read, they are all there is. -/
theorem named_map (es : List (Points × Document Points))
    (f : Points × Document Points → String × Document) : named es (es.map f) = es.map f := by
  cases es <;> rfl

/-- What can be read of a document that a file can hold, a file can hold. -/
theorem Storable.legible {d : Document Points} (h : d.Storable) : d.legible.Storable := by
  induction d using structuralRec with
  | scalar d hscalar =>
    cases d with
    | int n => exact storable_int_iff.2 h.fits
    | real x => exact storable_real_iff.2 h.fits
    | list => cases hscalar
    | map => cases hscalar
    | _ => simp [Document.legible]
  | list ds ih =>
    rw [legible_list, storable_list_iff]
    intro d hd
    obtain ⟨d', hd', rfl⟩ := List.mem_map.1 hd
    exact ih d' hd' (storable_list_iff.1 h d' hd')
  | map es ih =>
    obtain ⟨hkeys, hvalues⟩ := storable_map_iff.1 h
    rw [legible_map]
    refine storable_named es (storable_map_iff.2 ⟨?_, fun e he => ?_⟩)
    · have hshown := nodup_ofPoints hkeys
      rw [List.filter_map, List.map_map] at hshown
      rwa [List.map_map]
    obtain ⟨e', he', rfl⟩ := List.mem_map.1 he
    exact ih e' (List.mem_filter.1 he').1 (hvalues e' (List.mem_filter.1 he').1)

/-! ## Documents of strings -/

mutual

/-- A document of strings, written as code points. -/
def toPoints : Document → Document Points
  | .null => .null
  | .bool b => .bool b
  | .int n => .int n
  | .real x => .real x
  | .string s => .string (points s)
  | .list ds => .list (toPointsItems ds)
  | .map es => .map (toPointsEntries es)

/-- Items of strings, written as code points. -/
def toPointsItems : List Document → List (Document Points)
  | [] => []
  | d :: ds => toPoints d :: toPointsItems ds

/-- Entries of strings, written as code points. -/
def toPointsEntries : List (String × Document) → List (Points × Document Points)
  | [] => []
  | (key, d) :: es => (points key, toPoints d) :: toPointsEntries es

end

theorem toPoints_list (ds : List Document) : toPoints (.list ds) = .list (ds.map toPoints) := by
  have hitems : toPointsItems ds = ds.map toPoints := by
    induction ds with
    | nil => rfl
    | cons d ds ih => rw [toPointsItems, ih, List.map_cons]
  rw [toPoints, hitems]

theorem toPoints_map (es : List (String × Document)) :
    toPoints (.map es) = .map (es.map fun e => (points e.1, toPoints e.2)) := by
  have hentries : toPointsEntries es = es.map fun e => (points e.1, toPoints e.2) := by
    induction es with
    | nil => rfl
    | cons e es ih => rw [toPointsEntries, ih, List.map_cons]
  rw [toPoints, hentries]

/-- No surrogate stands alone in strings. -/
theorem isPaired_toPoints (d : Document) : d.toPoints.isPaired = true := by
  induction d using structuralRec with
  | scalar d hscalar =>
    cases d with
    | string s => exact isPaired_points s
    | list => cases hscalar
    | map => cases hscalar
    | _ => rfl
  | list ds ih =>
    rw [toPoints_list, isPaired, isPairedItems_iff]
    intro d hd
    obtain ⟨d', hd', rfl⟩ := List.mem_map.1 hd
    exact ih d' hd'
  | map es ih =>
    rw [toPoints_map, isPaired, isPairedEntries_iff]
    intro e he
    obtain ⟨e', he', rfl⟩ := List.mem_map.1 he
    exact ⟨isPaired_points e'.1, ih e' he'⟩

/-- All of a document of strings can be read. -/
theorem legible_toPoints (d : Document) : d.toPoints.legible = d := by
  induction d using structuralRec with
  | scalar d hscalar =>
    cases d with
    | string s => simp [toPoints, Document.legible, ofPoints_points]
    | list => cases hscalar
    | map => cases hscalar
    | _ => rfl
  | list ds ih =>
    rw [toPoints_list, legible_list, List.map_map]
    exact congrArg _ ((List.map_congr_left ih).trans (List.map_id ds))
  | map es ih =>
    have hpaired : (es.map fun e => (points e.1, toPoints e.2)).filter
        (fun e => Text.isPaired e.1) = es.map fun e => (points e.1, toPoints e.2) := by
      rw [List.filter_eq_self]
      intro e he
      obtain ⟨e', -, rfl⟩ := List.mem_map.1 he
      exact isPaired_points e'.1
    rw [toPoints_map, legible_map, hpaired, named_map, List.map_map]
    refine congrArg _ ((List.map_congr_left fun e he => ?_).trans (List.map_id es))
    rw [Function.comp_apply, ofPoints_points, ih e he]
    rfl

end Document

end ThemeLocales
