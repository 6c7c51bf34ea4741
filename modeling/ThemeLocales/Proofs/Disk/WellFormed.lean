import Mathlib.Data.List.Induction
import ThemeLocales.Proofs.Disk.Repeat

/-!
# Well-formed disks

A disk is well formed when each place is in its table once, under names that a system takes, and
stands in a directory. On such a disk the names on the way to an entry can be followed
(`WellFormed.foldlM_stepTo`). A path that can be followed leads to a directory or to a proper name
in one (`WellFormed.of_locate`), so writing a file and making directories keep a disk well formed.
-/

set_option autoImplicit false

namespace ThemeLocales

/-- A name that a system takes for a file or a directory. -/
def Path.IsName (name : String) : Prop :=
  name ≠ "" ∧ name ≠ "." ∧ name ≠ ".." ∧ '/' ∉ name.toList ∧ '\x00' ∉ name.toList ∧
    name.utf8ByteSize ≤ 255

instance (name : String) : Decidable (Path.IsName name) :=
  inferInstanceAs (Decidable (_ ∧ _))

/-- A piece of a split text lacks the separator and has only characters of the text. -/
theorem Text.mem_splitOn {separator : Char} {cs piece : List Char}
    (h : piece ∈ cs.splitOn separator) : separator ∉ piece ∧ ∀ c ∈ piece, c ∈ cs := by
  induction cs generalizing piece with
  | nil =>
    obtain rfl : piece = [] := by simpa using h
    simp
  | cons c rest ih =>
    rw [List.splitOn_cons_eq_if_modifyHead] at h
    split at h
    · rcases List.mem_cons.1 h with rfl | h
      · simp
      · obtain ⟨hlacks, hmem⟩ := ih h
        exact ⟨hlacks, fun x hx => List.mem_cons_of_mem c (hmem x hx)⟩
    · next hc =>
      cases hsplit : rest.splitOn separator with
      | nil => exact absurd hsplit (List.splitOn_ne_nil separator rest)
      | cons first others =>
        rw [hsplit, List.modifyHead_cons] at h
        rcases List.mem_cons.1 h with rfl | h
        · -- The first piece begins with the character.
          have hpiece : first ∈ rest.splitOn separator := hsplit ▸ List.mem_cons_self
          obtain ⟨hlacks, hmem⟩ := ih hpiece
          refine ⟨fun hseparator => ?_, fun x hx => ?_⟩
          · rcases List.mem_cons.1 hseparator with rfl | hfirst
            · simp at hc
            · exact hlacks hfirst
          · rcases List.mem_cons.1 hx with rfl | hx
            · exact List.mem_cons_self
            · exact List.mem_cons_of_mem c (hmem x hx)
        · obtain ⟨hlacks, hmem⟩ := ih (hsplit ▸ List.mem_cons_of_mem first h)
          exact ⟨hlacks, fun x hx => List.mem_cons_of_mem c (hmem x hx)⟩

namespace Disk

variable {d d' : Disk} {path : String} {names place : List String} {entry : DiskEntry}

/-- Each place is in the table once, under proper names, and in a directory. -/
structure WellFormed (d : Disk) : Prop where
  keys : (d.entries.map Prod.fst).Nodup
  names : ∀ e ∈ d.entries, ∀ name ∈ e.1, Path.IsName name
  above : ∀ e ∈ d.entries, d.isDirectoryAt e.1.dropLast = true

instance (d : Disk) : Decidable d.WellFormed :=
  decidable_of_iff ((d.entries.map Prod.fst).Nodup ∧ (∀ e ∈ d.entries, ∀ name ∈ e.1,
      Path.IsName name) ∧ ∀ e ∈ d.entries, d.isDirectoryAt e.1.dropLast = true)
    ⟨fun h => ⟨h.1, h.2.1, h.2.2⟩, fun h => ⟨h.keys, h.names, h.above⟩⟩

/-! ## The ways on a well-formed disk -/

theorem WellFormed.entryAt? (h : d.WellFormed) (hplace : place ≠ [])
    (hentry : (place, entry) ∈ d.entries) : d.entryAt? place = some entry := by
  rw [Disk.entryAt?, if_neg hplace]
  exact Assoc.get?_of_mem h.keys hentry

/-- Whatever is on the way to a directory is one. -/
theorem WellFormed.isDirectoryAt_front (h : d.WellFormed) {more : List String}
    (hplace : d.isDirectoryAt (place ++ more) = true) : d.isDirectoryAt place = true := by
  induction more using List.reverseRecOn with
  | nil => rwa [List.append_nil] at hplace
  | append_singleton more name ih =>
    apply ih
    rw [← List.append_assoc] at hplace
    have hentry := isDirectoryAt_iff.1 hplace
    rw [Disk.entryAt?, if_neg (by simp)] at hentry
    simpa using h.above _ (Assoc.mem_of_get? hentry)

/-- The names below a directory are followed to where they lead. -/
theorem WellFormed.foldlM_stepTo (h : d.WellFormed) (hentry : (place ++ names, entry) ∈ d.entries) :
    names.foldlM d.stepTo place = .ok (place ++ names) := by
  induction names generalizing place with
  | nil => simp [pure, Except.pure]
  | cons name more ih =>
    have hname : Path.IsName name := h.names _ hentry name (by simp)
    have hplace : d.isDirectoryAt place = true := by
      have habove := h.above _ hentry
      rw [List.dropLast_append_of_ne_nil (List.cons_ne_nil name more)] at habove
      exact h.isDirectoryAt_front habove
    obtain ⟨hempty, hhere, hup, -, -, hshort⟩ := hname
    have hstep : d.stepTo place name = .ok (place ++ [name]) := by
      refine stepTo_eq_ok_iff.2 ⟨hplace, ?_, .inr (.inr (.inr hshort))⟩
      simp [stepPlace, hempty, hhere, hup]
    have hsplit : place ++ name :: more = place ++ [name] ++ more := by simp
    rw [hsplit] at hentry ⊢
    exact foldlM_stepTo_cons.2 ⟨_, hstep, ih hentry⟩

/-- A path that can be followed leads to a directory, or to a proper name in one. -/
theorem WellFormed.of_locate (h : d.WellFormed) (hlocate : d.locate path = .ok place) :
    d.isDirectoryAt place = true ∨
      ∃ front name, place = front ++ [name] ∧ d.isDirectoryAt front = true ∧ Path.IsName name := by
  obtain ⟨⟨-, hnull, -⟩, hfold⟩ := locate_eq_ok_iff.1 hlocate
  have hne : Text.pieces '/' path ≠ [] := by
    simp [Text.pieces, List.splitOn_ne_nil]
  -- Where the way comes out is a matter of the last piece alone.
  obtain ⟨before, name, hpieces⟩ := (List.eq_nil_or_concat (Text.pieces '/' path)).resolve_left hne
  rw [hpieces, List.concat_eq_append] at hfold
  obtain ⟨front, -, hlast⟩ := foldlM_stepTo_append.1 hfold
  obtain ⟨q, hstep, hq⟩ := foldlM_stepTo_cons.1 hlast
  obtain rfl : q = place := Except.ok.inj hq
  obtain ⟨hfront, rfl, hsize⟩ := stepTo_eq_ok_iff.1 hstep
  unfold stepPlace
  by_cases hhere : (name = "" || name = ".") = true
  · rw [if_pos hhere]
    exact .inl hfront
  · rw [if_neg hhere]
    by_cases hup : name = ".."
    · -- The way goes up, and what is above a directory is one.
      rw [if_pos hup]
      refine .inl ?_
      rcases List.eq_nil_or_concat front with rfl | ⟨above, last, rfl⟩
      · exact hfront
      · rw [List.concat_eq_append] at hfront
        rw [List.concat_eq_append, List.dropLast_concat]
        exact h.isDirectoryAt_front hfront
    · -- A piece of a path has no slash, and the system has checked the rest.
      rw [if_neg hup]
      refine .inr ⟨front, name, rfl, hfront, ?_⟩
      have hnone : name ≠ "" ∧ name ≠ "." := by simpa using hhere
      have hmem : name ∈ Text.pieces '/' path := by
        rw [hpieces, List.concat_eq_append]
        simp
      obtain ⟨piece, hpiece, rfl⟩ := List.mem_map.1 hmem
      obtain ⟨hslash, hchars⟩ := Text.mem_splitOn hpiece
      rw [Path.IsName, String.toList_ofList]
      refine ⟨hnone.1, hnone.2, hup, hslash, fun hc => hnull (hchars _ hc), ?_⟩
      simpa [hnone.1, hnone.2, hup] using hsize

/-! ## Changes -/

/-- An entry that is set at a proper name in a directory, and does not take the place of another
directory, leaves the disk well formed. -/
theorem WellFormed.set (h : d.WellFormed) {front : List String} {name : String}
    (hfront : d.isDirectoryAt front = true) (hname : Path.IsName name)
    (hplace : d.isDirectoryAt (front ++ [name]) = false) (entry : DiskEntry) :
    ({ d with entries := Assoc.set (front ++ [name]) entry d.entries } : Disk).WellFormed := by
  have hne : front ++ [name] ≠ [] := by simp
  -- Every directory of the disk is another place.
  have hkeeps : ∀ {other : List String}, d.isDirectoryAt other = true →
      ({ d with entries := Assoc.set (front ++ [name]) entry d.entries } : Disk).isDirectoryAt
        other = true := by
    intro other hother
    rw [isDirectoryAt_iff] at hother ⊢
    rw [entryAt?_set entry hne, if_neg, hother]
    rintro rfl
    rw [isDirectoryAt_iff.2 hother] at hplace
    cases hplace
  refine ⟨Assoc.nodup_keys_set entry h.keys, fun e he => ?_, fun e he => ?_⟩
  · rcases Assoc.eq_or_mem_of_mem_set he with rfl | he
    · intro n hn
      rcases List.mem_append.1 hn with hn | hn
      · -- The names on the way are names of the directory.
        have hroot : front ≠ [] := List.ne_nil_of_mem hn
        have hentry := isDirectoryAt_iff.1 hfront
        rw [Disk.entryAt?, if_neg hroot] at hentry
        exact h.names _ (Assoc.mem_of_get? hentry) n hn
      · rwa [List.mem_singleton.1 hn]
    · exact h.names e he
  · rcases Assoc.eq_or_mem_of_mem_set he with rfl | he
    · simpa using hkeeps hfront
    · exact hkeeps (h.above e he)

theorem WellFormed.write (h : d.WellFormed) {bytes : ByteArray}
    (hwrite : d.write path bytes = .ok d') : d'.WellFormed := by
  obtain ⟨hlocate, hdirectory, rfl⟩ := write_eq_ok hwrite
  rcases h.of_locate hlocate with hplace | ⟨front, name, hplace, hfront, hname⟩
  · rw [hplace] at hdirectory
    cases hdirectory
  · rw [hplace] at hdirectory ⊢
    exact h.set hfront hname hdirectory _

theorem WellFormed.appendLine (h : d.WellFormed) (path line : String) :
    (d.appendLine path line).WellFormed := by
  unfold Disk.appendLine
  split
  · exact h
  · next old hread =>
    cases hwrite : d.write path (old ++ (line ++ "\n").toUTF8) with
    | error => exact h
    | ok d' => exact h.write hwrite

theorem WellFormed.makeDirectory (h : d.WellFormed) (hmake : d.makeDirectory path = .ok d') :
    d'.WellFormed := by
  unfold Disk.makeDirectory at hmake
  split at hmake
  · cases hmake
  · next place hlocate =>
    split at hmake
    · cases hmake
    · next hnone =>
      cases hmake
      have hdirectory : d.isDirectoryAt place = false := by
        simp [isDirectoryAt, hnone]
      rcases h.of_locate hlocate with hplace | ⟨front, name, rfl, hfront, hname⟩
      · rw [hplace] at hdirectory
        cases hdirectory
      · exact h.set hfront hname hdirectory _

theorem WellFormed.makeMissing (h : d.WellFormed) (hmake : d.makeMissing path = .ok d') :
    d'.WellFormed := by
  unfold Disk.makeMissing at hmake
  split at hmake
  · cases hmake
    exact h
  · exact h.makeDirectory hmake

theorem WellFormed.foldlM_makeMissing (h : d.WellFormed) {paths : List String}
    (hmake : paths.foldlM Disk.makeMissing d = .ok d') : d'.WellFormed := by
  induction paths generalizing d with
  | nil =>
    cases hmake
    exact h
  | cons first rest ih =>
    rw [List.foldlM_cons] at hmake
    cases hfirst : d.makeMissing first with
    | error e =>
      rw [hfirst] at hmake
      cases hmake
    | ok made =>
      rw [hfirst] at hmake
      exact ih (h.makeMissing hfirst) hmake

/-- Making a directory and those above it keeps a disk well formed. -/
theorem WellFormed.makeDirectories (h : d.WellFormed) (hmake : d.makeDirectories path = .ok d') :
    d'.WellFormed := by
  unfold Disk.makeDirectories at hmake
  cases hfold : (Path.ancestors path).foldlM Disk.makeMissing d with
  | error e => simp [hfold, bind, Except.bind] at hmake
  | ok above =>
    simp only [hfold, bind, Except.bind] at hmake
    have habove := h.foldlM_makeMissing hfold
    split at hmake
    · cases hmake
      exact habove
    · exact habove.makeDirectory hmake

end Disk

end ThemeLocales
