import ThemeLocales.Proofs.Document.Path

/-!
# Values at paths after an assignment

An assignment at a path decides about every path that is an end or a front of it: below the path
stands what the value has there (`at?_setAt_append`), and on the way to it stand maps
(`exists_at?_setAt_of_front`). Every other path keeps what it had (`at?_setAt_of_apart`), also where
the assignment has put a map in the place of a scalar or a list.
-/

set_option autoImplicit false

namespace ThemeLocales.Document

variable {es : List (String × Document)} {path other rest : List String} {key : String}
  {value d : Document}

/-- Below the top only the entries of a document count. -/
theorem at?_map_entries (h : path ≠ []) (d : Document) : at? path (map d.entries) = at? path d := by
  cases path with
  | nil => exact absurd rfl h
  | cons key rest => rfl

/-- A missing value has nothing at a path that goes down. -/
theorem at?_orNull (h : path ≠ []) (found : Option Document) :
    at? path (orNull found) = found.bind (at? path) := by
  cases found with
  | some d => rfl
  | none =>
    cases path with
    | nil => exact absurd rfl h
    | cons key rest => rfl

theorem at?_set_self (key : String) (rest : List String) (value : Document)
    (es : List (String × Document)) :
    at? (key :: rest) (map (Assoc.set key value es)) = at? rest value := by
  rw [at?_cons, get?_map, Assoc.get?_set_self]
  rfl

theorem at?_set_of_ne {name : String} (h : name ≠ key) (rest : List String) (value : Document)
    (es : List (String × Document)) :
    at? (name :: rest) (map (Assoc.set key value es)) = at? (name :: rest) (map es) := by
  rw [at?_cons, at?_cons, get?_map, get?_map, Assoc.get?_set_of_ne h]

/-- Above the last key of a path, a map is set that goes on from what stood there. -/
theorem setAt_cons_cons (value : Document) (key next : String) (rest : List String)
    (es : List (String × Document)) :
    setAt value (key :: next :: rest) es = Assoc.set key
      (map (setAt value (next :: rest) (orNull (Assoc.get? key es)).entries)) es := rfl

/-- Below the path stands what the value has there. -/
theorem at?_setAt_append (h : path ≠ []) (rest : List String) (value : Document)
    (es : List (String × Document)) :
    at? (path ++ rest) (map (setAt value path es)) = at? rest value := by
  induction path generalizing es with
  | nil => exact absurd rfl h
  | cons key more ih =>
    cases more with
    | nil => exact at?_set_self key rest value es
    | cons next more =>
      rw [List.cons_append, setAt_cons_cons, at?_set_self]
      exact ih (List.cons_ne_nil next more) _

/-- On the way to the path stand maps. -/
theorem exists_at?_setAt_of_front (h : other <+: path) (hne : other ≠ path) (value : Document)
    (es : List (String × Document)) :
    ∃ fs, at? other (map (setAt value path es)) = some (map fs) := by
  induction path generalizing other es with
  | nil => exact absurd (List.prefix_nil.1 h) hne
  | cons key more ih =>
    cases other with
    | nil => exact ⟨_, rfl⟩
    | cons name front =>
      obtain ⟨rfl, hfront⟩ := List.cons_prefix_cons.1 h
      have hne : front ≠ more := fun heq => hne (congrArg (name :: ·) heq)
      cases more with
      | nil => exact absurd (List.prefix_nil.1 hfront) hne
      | cons next more =>
        rw [setAt_cons_cons, at?_set_self]
        exact ih hfront hne _

/-- A path that is neither an end nor a front keeps what it had. -/
theorem at?_setAt_of_apart (h : ¬ path <+: other) (h' : ¬ other <+: path) (value : Document)
    (es : List (String × Document)) :
    at? other (map (setAt value path es)) = at? other (map es) := by
  induction path generalizing other es with
  | nil => exact absurd List.nil_prefix h
  | cons key more ih =>
    cases other with
    | nil => exact absurd List.nil_prefix h'
    | cons name front =>
      by_cases hname : name = key
      · subst hname
        have hfront : ¬ more <+: front := fun hp => h (List.cons_prefix_cons.2 ⟨rfl, hp⟩)
        have hfront' : ¬ front <+: more := fun hp => h' (List.cons_prefix_cons.2 ⟨rfl, hp⟩)
        have hne : front ≠ [] := fun heq => hfront' (heq ▸ List.nil_prefix)
        cases more with
        | nil => exact absurd List.nil_prefix hfront
        | cons next more =>
          -- What stood at the key counts as a map, and so does nothing at all.
          rw [setAt_cons_cons, at?_set_self, ih hfront hfront', at?_map_entries hne, at?_orNull hne]
          rfl
      · cases more with
        | nil => exact at?_set_of_ne hname front value es
        | cons next more => exact at?_set_of_ne hname front _ es

end ThemeLocales.Document
