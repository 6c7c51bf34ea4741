/-!
# Finding and replacing fragments

Texts are lists of characters here. `cutAt?` splits a text around the first occurrence of a
fragment, and every search of the library that runs left to right over a text is built on it.
-/

set_option autoImplicit false

namespace ThemeLocales.Text

/-- The text after a given front, when it starts with that front. -/
def after? : List Char → List Char → Option (List Char)
  | [], cs => some cs
  | _ :: _, [] => none
  | p :: ps, c :: cs => if p = c then after? ps cs else none

/-- A text is a given front followed by what `after?` finds. -/
theorem eq_append_of_after? {front cs rest : List Char} (h : after? front cs = some rest) :
    cs = front ++ rest := by
  induction front generalizing cs with
  | nil => simpa [after?] using h
  | cons p ps ih =>
    cases cs with
    | nil => simp [after?] at h
    | cons c cs =>
      by_cases hpc : p = c
      · simp only [after?, hpc, if_true] at h
        simp [hpc, ih h]
      · simp [after?, hpc] at h

/-- What comes before the first occurrence of a fragment, and what comes after it. -/
def cutAt? (fragment : List Char) : List Char → Option (List Char × List Char)
  | [] => (after? fragment []).map fun rest => ([], rest)
  | c :: cs =>
    match after? fragment (c :: cs) with
    | some rest => some ([], rest)
    | none => (cutAt? fragment cs).map fun (before, rest) => (c :: before, rest)

/-- Cutting loses nothing but the fragment itself. -/
theorem eq_append_of_cutAt? {fragment cs before rest : List Char}
    (h : cutAt? fragment cs = some (before, rest)) : cs = before ++ fragment ++ rest := by
  induction cs generalizing before with
  | nil =>
    simp only [cutAt?, Option.map_eq_some_iff, Prod.mk.injEq] at h
    obtain ⟨r, hr, rfl, rfl⟩ := h
    simpa using eq_append_of_after? hr
  | cons c cs ih =>
    simp only [cutAt?] at h
    split at h
    · next r hr =>
      simp only [Option.some.injEq, Prod.mk.injEq] at h
      obtain ⟨rfl, rfl⟩ := h
      simpa using eq_append_of_after? hr
    · simp only [Option.map_eq_some_iff, Prod.mk.injEq, Prod.exists] at h
      obtain ⟨b, r, hbr, rfl, rfl⟩ := h
      simpa using ih hbr

/-- The rest after a cut is never longer than the text. -/
theorem length_cutAt?_le {fragment cs before rest : List Char}
    (h : cutAt? fragment cs = some (before, rest)) : rest.length ≤ cs.length := by
  rw [eq_append_of_cutAt? h]
  simp only [List.length_append]
  omega

/-- One pass of a replacement: the first argument counts characters of a fragment still to skip. -/
def replaceFrom (fragment substitute : List Char) : Nat → List Char → List Char
  | _, [] => []
  | skip + 1, _ :: cs => replaceFrom fragment substitute skip cs
  | 0, c :: cs =>
    match after? fragment (c :: cs) with
    | some _ => substitute ++ replaceFrom fragment substitute (fragment.length - 1) cs
    | none => c :: replaceFrom fragment substitute 0 cs

/-- The text with a substitute between all characters and at both ends. -/
def surround (substitute cs : List Char) : List Char :=
  substitute ++ cs.flatMap fun c => c :: substitute

/-- The text with every occurrence of a fragment replaced, found left to right and not
overlapping. An empty fragment occurs at both ends and between any two characters. -/
def replaceAll (fragment substitute cs : List Char) : List Char :=
  if fragment.isEmpty then surround substitute cs else replaceFrom fragment substitute 0 cs

/-- `replaceAll` on strings. -/
def replaced (fragment substitute text : String) : String :=
  String.ofList (replaceAll fragment.toList substitute.toList text.toList)

/-- The text without one line feed at its end, if it has one. -/
def withoutFinalNewline (cs : List Char) : List Char :=
  match cs.reverse with
  | '\n' :: rest => rest.reverse
  | _ => cs

/-- The string split at every occurrence of a character. -/
def pieces (separator : Char) (s : String) : List String :=
  (s.toList.splitOn separator).map String.ofList

/-- Whether a string ends with another. -/
def endsIn (tail s : String) : Bool :=
  tail.toList.isSuffixOf s.toList

/-- Whether a string begins with another. -/
def beginsWith (front s : String) : Bool :=
  (after? front.toList s.toList).isSome

/-- Whether a fragment occurs in a string. -/
def occursIn (fragment s : String) : Bool :=
  (cutAt? fragment.toList s.toList).isSome

end ThemeLocales.Text
