import Mathlib.Data.List.Nodup
import Mathlib.Data.Prod.Lex
import Mathlib.Data.String.Basic
import ThemeLocales.Proofs.Disk.Listing

/-!
# The order of a walk

A walk goes through the names that a directory lists, in whatever order the ranks give them, and
into a subdirectory where it finds its name (`WellFormed.filesBelow_eq_flatMap`). Any order of some
names is the order of some ranks, so a statement about all disks is one about all listing orders
(`exists_rank_listsBefore`).
-/

set_option autoImplicit false

namespace ThemeLocales.Disk

variable {d : Disk} {rank : List String → Nat} {place : List String}

/-! ## The order of names and of places -/

theorem listsBefore_iff {a b : String} : listsBefore rank place a b = true ↔
    toLex (rank (place ++ [a]), a) < toLex (rank (place ++ [b]), b) := by
  simp only [listsBefore, Bool.or_eq_true, Bool.and_eq_true, decide_eq_true_eq,
    Prod.Lex.toLex_lt_toLex]

/-- Of two different names, a directory lists one before the other. -/
theorem listsBefore_or {a b : String} (h : a ≠ b) :
    listsBefore rank place a b = true ∨ listsBefore rank place b a = true := by
  rw [listsBefore_iff, listsBefore_iff]
  refine lt_or_gt_of_ne fun heq => h ?_
  exact (Prod.mk.inj (toLex.injective heq)).2

theorem listsBefore_trans {a b c : String} (hab : listsBefore rank place a b = true)
    (hbc : listsBefore rank place b c = true) : listsBefore rank place a c = true := by
  rw [listsBefore_iff] at *
  exact hab.trans hbc

theorem not_listsBefore {a b : String} (hab : listsBefore rank place a b = true) :
    listsBefore rank place b a = false := by
  rw [← Bool.not_eq_true, listsBefore_iff]
  exact (listsBefore_iff.1 hab).asymm

theorem walksFirst_cons_self (a : String) (as bs : List String) :
    walksFirst rank place (a :: as) (a :: bs) = walksFirst rank (place ++ [a]) as bs := by
  simp [walksFirst]

theorem walksFirst_cons_of_ne {a b : String} (h : a ≠ b) (as bs : List String) :
    walksFirst rank place (a :: as) (b :: bs) = listsBefore rank place a b := by
  simp [walksFirst, h]

theorem walksFirst_total (as bs : List String) :
    (walksFirst rank place as bs || walksFirst rank place bs as) = true := by
  induction as generalizing place bs with
  | nil => simp [walksFirst]
  | cons a as ih =>
    cases bs with
    | nil => simp [walksFirst]
    | cons b bs =>
      by_cases hab : a = b
      · subst hab
        rw [walksFirst_cons_self, walksFirst_cons_self]
        exact ih bs
      · rw [walksFirst_cons_of_ne hab, walksFirst_cons_of_ne (Ne.symm hab)]
        simpa using listsBefore_or hab

theorem walksFirst_trans (as bs cs : List String) (hab : walksFirst rank place as bs = true)
    (hbc : walksFirst rank place bs cs = true) : walksFirst rank place as cs = true := by
  induction as generalizing place bs cs with
  | nil => rfl
  | cons a as ih =>
    cases bs with
    | nil => cases hab
    | cons b bs =>
      cases cs with
      | nil => cases hbc
      | cons c cs =>
        -- The paths go on together, or they part at their first names.
        by_cases hsame : a = b
        · subst hsame
          by_cases hac : a = c
          · subst hac
            rw [walksFirst_cons_self] at *
            exact ih bs cs hab hbc
          · rw [walksFirst_cons_of_ne hac] at *
            exact hbc
        · rw [walksFirst_cons_of_ne hsame] at hab
          by_cases hbc' : b = c
          · subst hbc'
            rwa [walksFirst_cons_of_ne hsame]
          · rw [walksFirst_cons_of_ne hbc'] at hbc
            have hac := listsBefore_trans hab hbc
            have hne : a ≠ c := by
              rintro rfl
              rw [not_listsBefore hac] at hac
              cases hac
            rwa [walksFirst_cons_of_ne hne]

theorem walksFirst_antisymm {as bs : List String} (hab : walksFirst rank place as bs = true)
    (hba : walksFirst rank place bs as = true) : as = bs := by
  induction as generalizing place bs with
  | nil =>
    cases bs with
    | nil => rfl
    | cons b bs => cases hba
  | cons a as ih =>
    cases bs with
    | nil => cases hab
    | cons b bs =>
      by_cases hsame : a = b
      · subst hsame
        rw [walksFirst_cons_self] at hab hba
        rw [ih hab hba]
      · rw [walksFirst_cons_of_ne hsame] at hab
        rw [walksFirst_cons_of_ne (Ne.symm hsame), not_listsBefore hab] at hba
        cases hba

/-- Distinct names are listed in any order by some ranks. -/
theorem exists_rank_listsBefore (place : List String) {names : List String} (h : names.Nodup) :
    ∃ rank : List String → Nat, names.Pairwise fun a b => listsBefore rank place a b = true := by
  refine ⟨fun p => names.idxOf (p.getLastD ""), ?_⟩
  rw [List.pairwise_iff_getElem]
  intro i j hi hj hij
  simp [listsBefore, h.idxOf_getElem, hij]

/-! ## A walk goes into its directories -/

/-- The names that a directory lists, in its order. -/
def namesIn (d : Disk) (place : List String) : List String :=
  (d.entries.filterMap fun (names, _) => (below? place names).bind fun below =>
    if below.length = 1 then below.head? else none).mergeSort
      fun a b => walksFirst d.rank place [a] [b]

theorem mem_namesIn {name : String} :
    name ∈ d.namesIn place ↔ ∃ entry, (place ++ [name], entry) ∈ d.entries := by
  simp only [namesIn, List.mem_mergeSort, List.mem_filterMap, Prod.exists, Option.bind_eq_some_iff,
    below?_eq_some_iff]
  constructor
  · rintro ⟨names, entry, hentry, below, ⟨-, rfl⟩, hbelow⟩
    split at hbelow
    · next hlength =>
      obtain ⟨only, rfl⟩ := List.length_eq_one_iff.1 hlength
      cases hbelow
      exact ⟨entry, hentry⟩
    · cases hbelow
  · rintro ⟨entry, hentry⟩
    exact ⟨_, entry, hentry, [name], ⟨by simp, rfl⟩, by simp⟩

theorem WellFormed.nodup_namesIn (h : d.WellFormed) (place : List String) :
    (d.namesIn place).Nodup := by
  refine (List.mergeSort_perm _ _).nodup_iff.2 ?_
  refine List.pairwise_filterMap.2 ((List.pairwise_map.1 h.keys).imp ?_)
  rintro ⟨names, entry⟩ ⟨names', entry'⟩ hne name hname name' hname' rfl
  simp only [Option.bind_eq_some_iff, below?_eq_some_iff] at hname hname'
  obtain ⟨below, ⟨-, rfl⟩, hbelow⟩ := hname
  obtain ⟨below', ⟨-, rfl⟩, hbelow'⟩ := hname'
  split at hbelow
  · next hlength =>
    split at hbelow'
    · next hlength' =>
      obtain ⟨only, rfl⟩ := List.length_eq_one_iff.1 hlength
      obtain ⟨only', rfl⟩ := List.length_eq_one_iff.1 hlength'
      cases hbelow
      cases hbelow'
      exact hne rfl
    · cases hbelow'
  · cases hbelow

theorem pairwise_namesIn (h : d.WellFormed) (place : List String) :
    (d.namesIn place).Pairwise fun a b => listsBefore d.rank place a b = true := by
  have hsorted : (d.namesIn place).Pairwise fun a b => walksFirst d.rank place [a] [b] = true :=
    List.pairwise_mergeSort (fun a b c => walksFirst_trans [a] [b] [c])
      (fun a b => walksFirst_total [a] [b]) _
  refine (hsorted.and (h.nodup_namesIn place)).imp ?_
  rintro a b ⟨hab, hne⟩
  rwa [walksFirst_cons_of_ne hne] at hab

theorem pairwise_filesBelow (d : Disk) (place : List String) :
    (d.filesBelow place).Pairwise fun as bs => walksFirst d.rank place as bs = true :=
  List.pairwise_mergeSort (fun as bs cs => walksFirst_trans as bs cs)
    (fun as bs => walksFirst_total as bs) _

/-- What a walk comes to by one name: the file of that name, or the files below the directory. -/
def filesAt (d : Disk) (place : List String) (name : String) : List (List String) :=
  match d.fileAt? (place ++ [name]) with
  | some _ => [[name]]
  | none => (d.filesBelow (place ++ [name])).map (name :: ·)

theorem WellFormed.mem_filesAt (h : d.WellFormed) {name : String} {names : List String} :
    names ∈ d.filesAt place name ↔ ∃ more, names = name :: more ∧
      ∃ bytes, (place ++ names, .file bytes) ∈ d.entries := by
  unfold filesAt
  cases hfile : d.fileAt? (place ++ [name]) with
  | some bytes =>
    have hentry := fileAt?_eq_some_iff.1 hfile
    rw [List.mem_singleton]
    constructor
    · rintro rfl
      rw [Disk.entryAt?, if_neg (by simp)] at hentry
      exact ⟨[], rfl, bytes, Assoc.mem_of_get? hentry⟩
    · rintro ⟨more, rfl, bytes', hmore⟩
      cases more with
      | nil => rfl
      | cons next rest =>
        -- nothing stands below a file
        have habove := h.above _ hmore
        rw [List.append_cons, List.dropLast_append_of_ne_nil (by simp)] at habove
        have hdirectory := isDirectoryAt_iff.1 (h.isDirectoryAt_front habove)
        rw [hentry] at hdirectory
        cases hdirectory
  | none =>
    simp only [List.mem_map, mem_filesBelow]
    constructor
    · rintro ⟨more, ⟨-, bytes, hmore⟩, rfl⟩
      exact ⟨more, rfl, bytes, by simpa using hmore⟩
    · rintro ⟨more, rfl, bytes, hmore⟩
      refine ⟨more, ⟨?_, bytes, by simpa using hmore⟩, rfl⟩
      rintro rfl
      rw [fileAt?_eq_some_iff.2 (h.entryAt? (by simp) hmore)] at hfile
      cases hfile

/-- What stands below a name of a directory is below a name that the directory lists. -/
theorem WellFormed.mem_namesIn_of_mem (h : d.WellFormed) {name : String} {more : List String}
    {entry : DiskEntry} (hentry : (place ++ name :: more, entry) ∈ d.entries) :
    name ∈ d.namesIn place := by
  rw [mem_namesIn]
  cases more with
  | nil => exact ⟨entry, hentry⟩
  | cons next rest =>
    have habove := h.above _ hentry
    rw [List.append_cons, List.dropLast_append_of_ne_nil (by simp)] at habove
    have hdirectory := isDirectoryAt_iff.1 (h.isDirectoryAt_front habove)
    rw [Disk.entryAt?, if_neg (by simp)] at hdirectory
    exact ⟨_, Assoc.mem_of_get? hdirectory⟩

theorem WellFormed.nodup_filesAt (h : d.WellFormed) (place : List String) (name : String) :
    (d.filesAt place name).Nodup := by
  unfold filesAt
  split
  · exact List.nodup_singleton _
  · exact (h.nodup_filesBelow _).map fun _ _ heq => (List.cons.inj heq).2

theorem pairwise_filesAt (d : Disk) (place : List String) (name : String) :
    (d.filesAt place name).Pairwise fun as bs => walksFirst d.rank place as bs = true := by
  unfold filesAt
  split
  · exact List.pairwise_singleton _ _
  · refine List.pairwise_map.2 ((pairwise_filesBelow d _).imp fun {as bs} hwalks => ?_)
    rwa [walksFirst_cons_self]

/-- A walk goes through the names that a directory lists, one after the other. -/
theorem WellFormed.filesBelow_eq_flatMap (h : d.WellFormed) (place : List String) :
    d.filesBelow place = (d.namesIn place).flatMap (d.filesAt place) := by
  have hnames := pairwise_namesIn h place
  have hdistinct : ∀ {a b}, listsBefore d.rank place a b = true → a ≠ b := by
    rintro a _ hab rfl
    rw [not_listsBefore hab] at hab
    cases hab
  have hnodup : ((d.namesIn place).flatMap (d.filesAt place)).Nodup := by
    refine List.nodup_flatMap.2 ⟨fun name _ => h.nodup_filesAt place name, ?_⟩
    refine hnames.imp fun {a b} hab names ha hb => ?_
    obtain ⟨more, rfl, -⟩ := h.mem_filesAt.1 ha
    obtain ⟨more', heq, -⟩ := h.mem_filesAt.1 hb
    exact hdistinct hab (List.cons.inj heq).1
  have hsorted : ((d.namesIn place).flatMap (d.filesAt place)).Pairwise
      fun as bs => walksFirst d.rank place as bs = true := by
    refine List.pairwise_flatMap.2 ⟨fun name _ => pairwise_filesAt d place name, ?_⟩
    refine hnames.imp fun {a b} hab as has bs hbs => ?_
    obtain ⟨more, rfl, -⟩ := h.mem_filesAt.1 has
    obtain ⟨more', rfl, -⟩ := h.mem_filesAt.1 hbs
    rwa [walksFirst_cons_of_ne (hdistinct hab)]
  -- both have the same files, none twice, and both are in the order of a walk
  have hperm : (d.filesBelow place).Perm ((d.namesIn place).flatMap (d.filesAt place)) := by
    refine (List.perm_ext_iff_of_nodup (h.nodup_filesBelow place) hnodup).2 fun names => ?_
    rw [mem_filesBelow, List.mem_flatMap]
    constructor
    · rintro ⟨hne, bytes, hentry⟩
      obtain ⟨name, more, rfl⟩ := List.exists_cons_of_ne_nil hne
      exact ⟨name, h.mem_namesIn_of_mem hentry, h.mem_filesAt.2 ⟨more, rfl, bytes, hentry⟩⟩
    · rintro ⟨name, -, hname⟩
      obtain ⟨more, rfl, bytes, hentry⟩ := h.mem_filesAt.1 hname
      exact ⟨List.cons_ne_nil name more, bytes, hentry⟩
  exact hperm.eq_of_pairwise (fun _ _ _ _ hab hba => walksFirst_antisymm hab hba)
    (pairwise_filesBelow d place) hsorted

end ThemeLocales.Disk
