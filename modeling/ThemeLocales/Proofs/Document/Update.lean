import ThemeLocales.Proofs.Assoc
import ThemeLocales.Proofs.Document.Flatten

/-!
# The laws of an update

Assigning at a dotted key is a lawful update of a map: what was assigned is found, the second of two
assignments at one key wins, and keys none of which lies below the other do not see each other's
assignments (`lawful_setDotted`). All of it holds whatever stands on the way: the first of two
assignments may have put a map in the place of a scalar or a list, and the second then goes on from
that map.

Two assignments append the keys they create in the order in which they are made, so they commute
only up to the order of the keys of maps, which is the relation `Reordered`.
-/

set_option autoImplicit false

namespace ThemeLocales.Document

variable {es fs : List (String × Document)} {path other : List String} {key name : String}
  {value new v w : Document}

/-! ## Documents up to the order of keys -/

/-- Two documents differ at most in the order in which their maps hold their keys. -/
inductive Reordered : Document → Document → Prop
  | same (d : Document) : Reordered d d
  | list {ds ds' : List Document} : ds.length = ds'.length →
      (∀ (i : Nat) (v w : Document), ds[i]? = some v → ds'[i]? = some w → Reordered v w) →
      Reordered (list ds) (list ds')
  | map {es fs : List (String × Document)} : (Assoc.keys es).Perm (Assoc.keys fs) →
      (∀ (key : String) (v w : Document), Assoc.get? key es = some v →
        Assoc.get? key fs = some w → Reordered v w) →
      Reordered (map es) (map fs)

/-- Maps with the same keys and the same values at them. -/
theorem Reordered.of_get? (hkeys : (Assoc.keys es).Perm (Assoc.keys fs))
    (hget : ∀ key, Assoc.get? key es = Assoc.get? key fs) :
    Reordered (.map es) (.map fs) := by
  refine .map hkeys fun key v w hv hw => ?_
  rw [hget key, hw] at hv
  cases hv
  exact .same _

/-- One value of a map may be reordered. -/
theorem Reordered.set (h : Reordered v w) (key : String) (es : List (String × Document)) :
    Reordered (.map (Assoc.set key v es)) (.map (Assoc.set key w es)) := by
  have hkeys : Assoc.keys (Assoc.set key v es) = Assoc.keys (Assoc.set key w es) := by
    rw [Assoc.keys_set, Assoc.keys_set]
  refine .map (List.Perm.of_eq hkeys) fun found v' w' hv hw => ?_
  by_cases hfound : found = key
  · subst hfound
    rw [Assoc.get?_set_self] at hv hw
    cases hv
    cases hw
    exact h
  · rw [Assoc.get?_set_of_ne hfound] at hv hw
    rw [hv] at hw
    cases hw
    exact .same v'

/-- The order in which two keys of a map are set does not matter to what it has at them. -/
theorem reordered_set_comm (h : key ≠ name) (v w : Document) (es : List (String × Document)) :
    Reordered (map (Assoc.set name w (Assoc.set key v es)))
      (map (Assoc.set key v (Assoc.set name w es))) := by
  refine .of_get? (Assoc.perm_keys_set_comm name key w v es) fun found => ?_
  by_cases hname : found = name
  · subst hname
    rw [Assoc.get?_set_self, Assoc.get?_set_of_ne h.symm, Assoc.get?_set_self]
  · rw [Assoc.get?_set_of_ne hname]
    by_cases hkey : found = key
    · subst hkey
      rw [Assoc.get?_set_self, Assoc.get?_set_self]
    · rw [Assoc.get?_set_of_ne hkey, Assoc.get?_set_of_ne hkey, Assoc.get?_set_of_ne hname]

/-! ## Two assignments -/

/-- The second of two assignments at one path wins. The maps that the first one created are those
that the second one would create. -/
theorem setAt_setAt (new value : Document) (path : List String) (es : List (String × Document)) :
    setAt new path (setAt value path es) = setAt new path es := by
  induction path generalizing es with
  | nil => rfl
  | cons key more ih =>
    cases more with
    | nil => exact Assoc.set_set key new value es
    | cons next more =>
      rw [setAt_cons_cons, setAt_cons_cons, Assoc.get?_set_self, Assoc.set_set, setAt_cons_cons]
      exact congrArg (fun inner => Assoc.set key (map inner) es) (ih _)

/-- An assignment sets the first key of its path, to what depends only on what stood there. -/
theorem exists_setAt_eq_set (value : Document) (key : String) (rest : List String) :
    ∃ placed : Option Document → Document, ∀ es : List (String × Document),
      setAt value (key :: rest) es = Assoc.set key (placed (Assoc.get? key es)) es := by
  cases rest with
  | nil => exact ⟨fun _ => value, fun es => rfl⟩
  | cons next more => exact ⟨fun found => map (setAt value (next :: more) (orNull found).entries),
      fun es => rfl⟩

/-- Assignments at paths that are neither an end nor a front of each other can be made in either
order. -/
theorem reordered_setAt_comm (h : ¬ path <+: other) (h' : ¬ other <+: path) (value new : Document)
    (es : List (String × Document)) :
    Reordered (map (setAt new other (setAt value path es)))
      (map (setAt value path (setAt new other es))) := by
  induction path generalizing other es with
  | nil => exact absurd List.nil_prefix h
  | cons key more ih =>
    cases other with
    | nil => exact absurd List.nil_prefix h'
    | cons name front =>
      by_cases hname : name = key
      · subst hname
        have hfront : ¬ more <+: front := fun hp => h (List.cons_prefix_cons.2 ⟨rfl, hp⟩)
        have hfront' : ¬ front <+: more := fun hp => h' (List.cons_prefix_cons.2 ⟨rfl, hp⟩)
        cases more with
        | nil => exact absurd List.nil_prefix hfront
        | cons next more =>
          cases front with
          | nil => exact absurd List.nil_prefix hfront'
          | cons next' front =>
            -- Each assignment goes on from the map that the other one has left at the common key.
            simp only [setAt_cons_cons, Assoc.get?_set_self, Assoc.set_set]
            exact (ih hfront hfront' _).set name es
      · obtain ⟨placed, hplaced⟩ := exists_setAt_eq_set value key more
        obtain ⟨placed', hplaced'⟩ := exists_setAt_eq_set new name front
        have hkey : key ≠ name := fun heq => hname heq.symm
        simp only [hplaced, hplaced', Assoc.get?_set_of_ne hname, Assoc.get?_set_of_ne hkey]
        exact reordered_set_comm hkey _ _ es

/-! ## Dotted keys -/

/-- What is assigned at a dotted key is found there, and a second assignment at the key undoes the
first one without a trace, the order of keys included. A key that is another one, and neither above
nor below it, keeps what it had, and assignments at the two can be made in either order, up to the
order of keys. -/
theorem lawful_setDotted (es : List (String × Document)) (key other : String)
    (value new : Document) :
    at? (keyPath key) (map (setDotted key value es)) = some value ∧
    setDotted key new (setDotted key value es) = setDotted key new es ∧
    (key ≠ other → ¬ Under key other → ¬ Under other key →
      at? (keyPath other) (map (setDotted key value es)) = at? (keyPath other) (map es) ∧
      Reordered (map (setDotted other new (setDotted key value es)))
        (map (setDotted key value (setDotted other new es)))) := by
  refine ⟨?_, setAt_setAt new value (keyPath key) es, ?_⟩
  · have hself := at?_setAt_append (keyPath_ne_nil key) [] value es
    rwa [List.append_nil] at hself
  · intro hne hunder hunder'
    obtain ⟨hfront, hfront'⟩ := (not_overrides_iff hne).1 (not_or.2 ⟨hunder, hunder'⟩)
    exact ⟨at?_setAt_of_apart hfront hfront' value es,
      reordered_setAt_comm hfront hfront' value new es⟩

/-- A title and a list on the way give place to maps, and the other key does not see it. The two
orders differ in the order of the keys they create. -/
theorem lawful_setDotted_menu :
    let es : List (String × Document) := [("menu", string "Menu"), ("cart", list [int 3])]
    at? (keyPath "cart") (map (setDotted "menu.home.title" null es)) = some (list [int 3]) ∧
    Reordered (map (setDotted "cart.open" null (setDotted "menu.home.title" (int 1) es)))
      (map (setDotted "menu.home.title" (int 1) (setDotted "cart.open" null es))) ∧
    Reordered (map (setDotted "b" null (setDotted "a.c" null []))) (map (setDotted "a.c" null
      (setDotted "b" null []))) ∧
    Assoc.keys (setDotted "b" null (setDotted "a.c" null [])) ≠
      Assoc.keys (setDotted "a.c" null (setDotted "b" null [])) := by
  intro es
  obtain ⟨-, -, hcart⟩ := lawful_setDotted es "menu.home.title" "cart" null null
  obtain ⟨-, -, hopen⟩ := lawful_setDotted es "menu.home.title" "cart.open" (int 1) null
  obtain ⟨-, -, hnew⟩ := lawful_setDotted [] "a.c" "b" null null
  have hpath : keyPath "cart" = ["cart"] := by decide +kernel
  have hlist : at? (keyPath "cart") (map es) = some (list [int 3]) := by
    rw [hpath]
    rfl
  refine ⟨(hcart ?_ ?_ ?_).1.trans hlist, (hopen ?_ ?_ ?_).2, (hnew ?_ ?_ ?_).2, ?_⟩
  all_goals decide +kernel

end ThemeLocales.Document
