import Mathlib.Data.List.Count
import Mathlib.Data.List.Nodup
import ThemeLocales.Proofs.Disk.Shape
import ThemeLocales.Proofs.Disk.WellFormed

/-!
# The files below a directory

A directory of a well-formed disk lists the files below it by paths that lead to them
(`placeOf_join`, `WellFormed.exists_read_of_mem_sources`), and no two paths to one file: so below
several directories, a source file is listed once for each that it is below
(`WellFormed.count_sources`). A line at the end of a file changes neither what is listed nor which
files can be read.
-/

set_option autoImplicit false

namespace ThemeLocales.Disk

variable {d d' : Disk} {path directory : String} {names place base rest : List String}
  {extensions : List String}

/-- The source files below a directory, by their paths; none below what is no directory. -/
def sources (d : Disk) (extensions : List String) (directory : String) : List String :=
  ((d.walk directory).toOption.getD []).filter fun path => Path.extension path ∈ extensions

/-- Whether a file with one of the extensions stands at a place. -/
def isSource (d : Disk) (extensions : List String) (place : List String) : Bool :=
  (d.fileAt? place).isSome && place.getLast?.any fun name => Path.extension name ∈ extensions

/-- No path to what stands below a directory is too long for the system. A walk asks at each path
whether a file or a directory is there. -/
def ShortBelow (d : Disk) (directory : String) : Prop :=
  ∀ e ∈ d.entries, ∀ names, below? (d.placeOf directory) e.1 = some names →
    (Path.join directory (Path.joinNames names)).utf8ByteSize ≤ 4095

/-- Whether a path leads to a directory with a place below it. -/
def contains (d : Disk) (place : List String) (directory : String) : Bool :=
  d.isDirectory directory && (below? (d.placeOf directory) place).isSome

/-! ## Places below a directory -/

theorem below?_eq_some_iff : below? base place = some rest ↔ rest ≠ [] ∧ place = base ++ rest := by
  constructor
  · intro h
    refine ⟨?_, append_of_below? h⟩
    rintro rfl
    induction base generalizing place with
    | nil => cases place <;> cases h
    | cons b bs ih =>
      cases place with
      | nil => cases h
      | cons n ns =>
        simp only [below?] at h
        split_ifs at h
        exact ih h
  · rintro ⟨hrest, rfl⟩
    induction base with
    | nil =>
      cases rest with
      | nil => exact absurd rfl hrest
      | cons n ns => rfl
    | cons b bs ih => simpa [below?] using ih

/-- The files below a place are the file entries of the table that go on from there. -/
theorem mem_filesBelow :
    names ∈ d.filesBelow base ↔ names ≠ [] ∧ ∃ bytes, (base ++ names, .file bytes) ∈ d.entries := by
  rw [filesBelow, List.mem_mergeSort, List.mem_filterMap]
  constructor
  · rintro ⟨⟨place, entry⟩, hentry, hbelow⟩
    cases entry with
    | directory => cases hbelow
    | file bytes =>
      obtain ⟨hne, rfl⟩ := below?_eq_some_iff.1 hbelow
      exact ⟨hne, bytes, hentry⟩
  · rintro ⟨hne, bytes, hentry⟩
    exact ⟨_, hentry, below?_eq_some_iff.2 ⟨hne, rfl⟩⟩

/-- No file is listed twice. -/
theorem WellFormed.nodup_filesBelow (h : d.WellFormed) (base : List String) :
    (d.filesBelow base).Nodup := by
  refine (List.mergeSort_perm _ _).nodup_iff.2 ?_
  refine List.pairwise_filterMap.2 ((List.pairwise_map.1 h.keys).imp ?_)
  rintro ⟨place, entry⟩ ⟨place', entry'⟩ hne names hnames names' hnames' rfl
  cases entry with
  | directory => cases hnames
  | file bytes =>
    cases entry' with
    | directory => cases hnames'
    | file bytes' =>
      exact hne ((append_of_below? hnames).trans (append_of_below? hnames').symm)

/-! ## Path texts of files below a directory -/

/-- Names joined to a text, each after a slash. -/
theorem toList_joinNames (hne : names ≠ []) :
    '/' :: (Path.joinNames names).toList = names.flatMap fun name => '/' :: name.toList := by
  rw [Path.joinNames, String.toList_intercalate]
  induction names with
  | nil => exact absurd rfl hne
  | cons name more ih =>
    cases more with
    | nil => simp
    | cons next more =>
      have ih := ih (List.cons_ne_nil next more)
      rw [List.flatMap_cons, ← ih]
      simp [List.intercalate_cons_cons]

theorem pieces_joinNames (hne : names ≠ []) (hnames : ∀ name ∈ names, Path.IsName name) :
    Text.pieces '/' (Path.joinNames names) = names := by
  have hslash : ∀ cs ∈ names.map String.toList, '/' ∉ cs := by
    simpa using fun name hname => (hnames name hname).2.2.2.1
  have hsplit : (Path.joinNames names).toList.splitOn '/' = names.map String.toList := by
    rw [Path.joinNames, String.toList_intercalate]
    exact List.splitOn_intercalate '/' hslash (by simpa using hne)
  rw [Text.pieces, hsplit, List.map_map]
  simp [Function.comp_def]

/-- A path goes on with names after one slash, which it may bring itself. -/
theorem exists_toList_join (hpath : path ≠ "") (hne : names ≠ [])
    (hnames : ∀ name ∈ names, Path.IsName name) : ∃ cut : List Char,
      (path.toList = cut ∨ path.toList = cut ++ ['/']) ∧
      (Path.join path (Path.joinNames names)).toList =
        cut ++ '/' :: (Path.joinNames names).toList := by
  have habsolute : Path.isAbsolute (Path.joinNames names) = false := by
    cases names with
    | nil => exact absurd rfl hne
    | cons name more =>
      obtain ⟨hempty, -, -, hslash, -, -⟩ := hnames name List.mem_cons_self
      have htext := toList_joinNames hne
      rw [List.flatMap_cons, List.cons_append, List.cons.injEq] at htext
      have hfirst := congrArg String.ofList htext.2
      rw [String.ofList_toList, String.ofList_append, String.ofList_toList] at hfirst
      rw [hfirst, Path.isAbsolute_append hempty]
      exact Path.isAbsolute_of_not_mem hslash
  by_cases hend : path.toList.getLast? = some '/'
  · obtain ⟨cut, hcut⟩ := List.getLast?_eq_some_iff.1 hend
    refine ⟨cut, .inr hcut, ?_⟩
    simp [Path.join, habsolute, hcut]
  · refine ⟨path.toList, .inl rfl, ?_⟩
    simp [Path.join, habsolute, hend, hpath]

/-- The names on a path that goes on below a directory: those of the directory, and then more. -/
theorem exists_pieces_join (hpath : path ≠ "") (hne : names ≠ [])
    (hnames : ∀ name ∈ names, Path.IsName name) : ∃ front,
      (Text.pieces '/' path = front ∨ Text.pieces '/' path = front ++ [""]) ∧
      Text.pieces '/' (Path.join path (Path.joinNames names)) = front ++ names ∧
      d.startOf (Path.join path (Path.joinNames names)) = d.startOf path := by
  obtain ⟨cut, hcut, htext⟩ := exists_toList_join hpath hne hnames
  have htext := congrArg String.ofList htext
  rw [String.ofList_toList] at htext
  refine ⟨Text.pieces '/' (String.ofList cut), ?_, ?_, ?_⟩
  · refine hcut.imp (fun h => ?_) fun h => ?_
    · rw [← h, String.ofList_toList]
    · rw [← String.ofList_toList (s := path), h, Text.pieces_append_cons]
      simp [Text.pieces]
  · rw [htext, Text.pieces_append_cons, String.ofList_toList, pieces_joinNames hne hnames]
  -- the joined path goes on from the path itself, so it begins where that begins
  · have hmore : ∃ more, cut ++ '/' :: (Path.joinNames names).toList = path.toList ++ more := by
      rcases hcut with h | h
      · exact ⟨_, by rw [h]⟩
      · exact ⟨_, by rw [h, List.append_assoc]; rfl⟩
    obtain ⟨more, hmore⟩ := hmore
    have hfront : path.toList ≠ [] := by simpa using hpath
    rw [htext, hmore, startOf_front hfront, String.ofList_toList]

/-- A path below a directory names the place below the place of the directory. -/
theorem placeOf_join (hpath : path ≠ "") (hne : names ≠ [])
    (hnames : ∀ name ∈ names, Path.IsName name) :
    d.placeOf (Path.join path (Path.joinNames names)) = d.placeOf path ++ names := by
  obtain ⟨front, hfront, hpieces, hstart⟩ := exists_pieces_join (d := d) hpath hne hnames
  have hplace : d.placeOf path = front.foldl stepPlace (d.startOf path) := by
    change (Text.pieces '/' path).foldl stepPlace (d.startOf path) = _
    rcases hfront with h | h
    · rw [h]
    · rw [h, List.foldl_append]
      simp [stepPlace]
  -- proper names lead down, one directory each
  have hdown : ∀ place, names.foldl stepPlace place = place ++ names := by
    clear hpieces hstart hne
    intro place
    induction names generalizing place with
    | nil => simp
    | cons name more ih =>
      obtain ⟨hempty, hhere, hup, -⟩ := hnames name List.mem_cons_self
      rw [List.foldl_cons, ih fun n hn => hnames n (List.mem_cons_of_mem _ hn)]
      simp [stepPlace, hempty, hhere, hup]
  change (Text.pieces '/' (Path.join path (Path.joinNames names))).foldl stepPlace
    (d.startOf (Path.join path (Path.joinNames names))) = _
  rw [hpieces, hstart, List.foldl_append, ← hplace, hdown]

/-- The extension of a path is the extension of its last name. -/
theorem extension_join (hpath : path ≠ "") {name : String}
    (hnames : ∀ n ∈ names ++ [name], Path.IsName n) :
    Path.extension (Path.join path (Path.joinNames (names ++ [name]))) = Path.extension name := by
  have hslash := (hnames name (by simp)).2.2.2.1
  have hne : names ++ [name] ≠ [] := by simp
  obtain ⟨cut, -, htext⟩ := exists_toList_join hpath hne hnames
  rw [toList_joinNames hne, List.flatMap_append] at htext
  have hkeep : ∀ c ∈ name.toList.reverse, (c != '/') = true := by
    intro c hc
    simpa using fun heq : c = '/' => hslash (heq ▸ List.mem_reverse.1 hc)
  have hlast : (Path.splitLast (Path.join path (Path.joinNames (names ++ [name])))).2 =
      (Path.splitLast name).2 := by
    have hwhole : (Path.splitLast name).2 = name.toList := by
      simp [Path.splitLast, List.takeWhile_eq_self_iff.2 hkeep]
    rw [hwhole, Path.splitLast, htext]
    simp [List.takeWhile_append_of_pos hkeep]
  simp only [Path.extension, Path.splitExtension, hlast]
  split <;> rfl

/-! ## Source files -/

/-- The source files below a directory, by the names that lead to them. -/
theorem sources_of_isDirectory (h : d.isDirectory directory = true) :
    d.sources extensions directory = ((d.filesBelow (d.placeOf directory)).map fun names =>
      Path.join directory (Path.joinNames names)).filter fun path =>
        Path.extension path ∈ extensions := by
  obtain ⟨place, hlookup⟩ := isDirectory_iff.1 h
  obtain rfl := locate_eq_ok (lookup_eq_ok_iff.1 hlookup).1
  simp [sources, walk, hlookup, Except.toOption]

theorem sources_of_not_isDirectory (h : d.isDirectory directory = false) :
    d.sources extensions directory = [] := by
  have hwalk : (d.walk directory).toOption = none := by
    unfold isDirectory at h
    unfold walk
    split
    · next hlookup => simp [hlookup] at h
    · rfl
    · rfl
  simp [sources, hwalk]

theorem ne_empty_of_isDirectory (h : d.isDirectory path = true) : path ≠ "" := by
  obtain ⟨place, hlookup⟩ := isDirectory_iff.1 h
  exact (locate_eq_ok_iff.1 (lookup_eq_ok_iff.1 hlookup).1).1.1

theorem WellFormed.isName (h : d.WellFormed) (hnames : names ∈ d.filesBelow base) :
    ∀ name ∈ names, Path.IsName name := by
  obtain ⟨-, bytes, hentry⟩ := mem_filesBelow.1 hnames
  exact fun name hname => h.names _ hentry name (List.mem_append_right base hname)

/-- Every source file stands below its directory. -/
theorem WellFormed.exists_of_mem_sources (h : d.WellFormed)
    (hpath : path ∈ d.sources extensions directory) : d.isDirectory directory = true ∧
      ∃ names ∈ d.filesBelow (d.placeOf directory),
        path = Path.join directory (Path.joinNames names) ∧
        d.placeOf path = d.placeOf directory ++ names := by
  cases hdirectory : d.isDirectory directory with
  | false =>
    rw [sources_of_not_isDirectory hdirectory] at hpath
    cases hpath
  | true =>
    rw [sources_of_isDirectory hdirectory] at hpath
    obtain ⟨names, hnames, rfl⟩ := List.mem_map.1 (List.mem_filter.1 hpath).1
    refine ⟨rfl, names, hnames, rfl, ?_⟩
    exact placeOf_join (ne_empty_of_isDirectory hdirectory) (mem_filesBelow.1 hnames).1
      (h.isName hnames)

/-- A source file can be read, unless its path is too long for the system. -/
theorem WellFormed.exists_read_of_mem_sources (h : d.WellFormed)
    (hpath : path ∈ d.sources extensions directory) (hshort : d.ShortBelow directory) :
    ∃ bytes, d.read path = .ok bytes := by
  obtain ⟨hdirectory, names, hnames, rfl, hplace⟩ := h.exists_of_mem_sources hpath
  obtain ⟨hne, bytes, hentry⟩ := mem_filesBelow.1 hnames
  have hshort := hshort _ hentry names (below?_eq_some_iff.2 ⟨hne, rfl⟩)
  have hproper := h.isName hnames
  have hsome := ne_empty_of_isDirectory hdirectory
  have hfile := h.entryAt? (by simp [hne]) hentry
  refine ⟨bytes, read_eq_ok_iff.2 ⟨?_, by rw [hplace]; exact fileAt?_eq_some_iff.2 hfile⟩⟩
  -- The way to the directory is followed, and then the names from there.
  obtain ⟨place, hlookup⟩ := isDirectory_iff.1 hdirectory
  have hlocate := (lookup_eq_ok_iff.1 hlookup).1
  obtain rfl := locate_eq_ok hlocate
  obtain ⟨⟨-, hnull, -⟩, hfold⟩ := locate_eq_ok_iff.1 hlocate
  rw [locate_eq_ok_iff, hplace]
  constructor
  · -- The text is not empty and has no null character, as the directory and the names have none.
    obtain ⟨cut, hcut, htext⟩ := exists_toList_join hsome hne hproper
    refine ⟨fun hempty => ?_, fun hmem => ?_, hshort⟩
    · rw [hempty] at htext
      simp at htext
    · rw [htext, toList_joinNames hne, List.mem_append, List.mem_flatMap] at hmem
      rcases hmem with hmem | ⟨name, hname, hmem⟩
      · exact hnull (by rcases hcut with h | h <;> simp [h, hmem])
      · exact (hproper name hname).2.2.2.2.1 (by simpa using hmem)
  · obtain ⟨front, hfront, hpieces, hstart⟩ := exists_pieces_join (d := d) hsome hne hproper
    have hfold' : front.foldlM d.stepTo (d.startOf directory) = .ok (d.placeOf directory) := by
      rcases hfront with hfront | hfront
      · rwa [hfront] at hfold
      · -- A slash at the end of the directory adds an empty name, which leads nowhere else.
        rw [hfront] at hfold
        obtain ⟨place, hplace, hlast⟩ := foldlM_stepTo_append.1 hfold
        obtain ⟨q, hstep, hq⟩ := foldlM_stepTo_cons.1 hlast
        obtain rfl : q = d.placeOf directory := Except.ok.inj hq
        have hhere := (stepTo_eq_ok_iff.1 hstep).2.1
        rw [hplace, hhere]
        rfl
    rw [hpieces, hstart]
    exact foldlM_stepTo_append.2 ⟨_, hfold', h.foldlM_stepTo hentry⟩

/-- Whether a listed file is a source file says its path or its place. -/
theorem WellFormed.isSource_iff (h : d.WellFormed) (hdirectory : d.isDirectory directory = true)
    (hnames : names ∈ d.filesBelow (d.placeOf directory)) :
    d.isSource extensions (d.placeOf directory ++ names) = true ↔
      Path.extension (Path.join directory (Path.joinNames names)) ∈ extensions := by
  obtain ⟨hne, bytes, hentry⟩ := mem_filesBelow.1 hnames
  have hfile : d.fileAt? (d.placeOf directory ++ names) = some bytes :=
    fileAt?_eq_some_iff.2 (h.entryAt? (by simp [hne]) hentry)
  obtain ⟨front, name, rfl⟩ := (List.eq_nil_or_concat names).resolve_left hne
  rw [List.concat_eq_append] at *
  rw [extension_join (ne_empty_of_isDirectory hdirectory) (h.isName hnames), isSource, hfile,
    ← List.append_assoc, List.getLast?_concat]
  simp

/-- The places of the source files below a directory. -/
theorem WellFormed.places_sources (h : d.WellFormed) (hdirectory : d.isDirectory directory = true) :
    (d.sources extensions directory).map d.placeOf =
      ((d.filesBelow (d.placeOf directory)).filter fun names =>
        d.isSource extensions (d.placeOf directory ++ names)).map (d.placeOf directory ++ ·) := by
  rw [sources_of_isDirectory hdirectory, List.filter_map, List.map_map]
  have hfilter : (d.filesBelow (d.placeOf directory)).filter
      ((fun path => decide (Path.extension path ∈ extensions)) ∘ fun names =>
        Path.join directory (Path.joinNames names)) =
      (d.filesBelow (d.placeOf directory)).filter fun names =>
        d.isSource extensions (d.placeOf directory ++ names) := by
    refine List.filter_congr fun names hnames => ?_
    rw [Bool.eq_iff_iff, h.isSource_iff hdirectory hnames]
    simp
  rw [hfilter]
  refine List.map_congr_left fun names hnames => ?_
  have hlisted := (List.mem_filter.1 hnames).1
  exact placeOf_join (ne_empty_of_isDirectory hdirectory) (mem_filesBelow.1 hlisted).1
    (h.isName hlisted)

theorem WellFormed.mem_places_sources (h : d.WellFormed) :
    place ∈ (d.sources extensions directory).map d.placeOf ↔
      d.isSource extensions place = true ∧ d.contains place directory = true := by
  cases hdirectory : d.isDirectory directory with
  | false => simp [sources_of_not_isDirectory hdirectory, contains, hdirectory]
  | true =>
    rw [h.places_sources hdirectory, List.mem_map]
    simp only [contains, hdirectory, Bool.true_and, Option.isSome_iff_exists, List.mem_filter]
    constructor
    · rintro ⟨names, ⟨hnames, hsource⟩, rfl⟩
      exact ⟨hsource, names, below?_eq_some_iff.2 ⟨(mem_filesBelow.1 hnames).1, rfl⟩⟩
    · rintro ⟨hsource, names, hbelow⟩
      obtain ⟨hne, rfl⟩ := below?_eq_some_iff.1 hbelow
      refine ⟨names, ⟨mem_filesBelow.2 ⟨hne, ?_⟩, hsource⟩, rfl⟩
      -- What stands at the place is a file of the table.
      obtain ⟨bytes, hfile⟩ := Option.isSome_iff_exists.1 (Bool.and_eq_true_iff.1 hsource).1
      have hentry := fileAt?_eq_some_iff.1 hfile
      rw [Disk.entryAt?, if_neg (by simp [hne])] at hentry
      exact ⟨bytes, Assoc.mem_of_get? hentry⟩

theorem WellFormed.nodup_places_sources (h : d.WellFormed) :
    ((d.sources extensions directory).map d.placeOf).Nodup := by
  cases hdirectory : d.isDirectory directory with
  | false => simp [sources_of_not_isDirectory hdirectory]
  | true =>
    -- Different names below one directory are different places.
    rw [h.places_sources hdirectory]
    exact ((h.nodup_filesBelow _).filter _).map (List.append_right_injective _)

/-- Below several directories, a source file is listed once for each directory that it is below. -/
theorem WellFormed.count_sources (h : d.WellFormed) (directories : List String)
    (place : List String) :
    ((directories.flatMap (d.sources extensions)).map d.placeOf).count place =
      if d.isSource extensions place then directories.countP (d.contains place) else 0 := by
  induction directories with
  | nil => simp
  | cons directory rest ih =>
    rw [List.flatMap_cons, List.map_append, List.count_append, ih,
      h.nodup_places_sources.count, List.countP_cons]
    simp only [h.mem_places_sources]
    by_cases hsource : d.isSource extensions place = true
    · simp only [hsource, true_and, if_true]
      exact Nat.add_comm _ _
    · simp [hsource]

/-! ## Lines at the end of a file -/

/-- A line at the end of a file does not change what a directory lists. -/
theorem filesBelow_appendLine (d : Disk) (path line : String) (base : List String) :
    (d.appendLine path line).filesBelow base = d.filesBelow base := by
  unfold appendLine
  split
  · rfl
  · next old hread =>
    cases hwrite : d.write path (old ++ (line ++ "\n").toUTF8) with
    | error => rfl
    | ok d' =>
      have hroot := placeOf_ne_nil_of_write hwrite
      have hentry := fileAt?_eq_some_iff.1 (read_eq_ok_iff.1 hread).2
      rw [Disk.entryAt?, if_neg hroot] at hentry
      obtain ⟨-, -, rfl⟩ := write_eq_ok hwrite
      exact filesBelow_set (.inr (.inr ⟨_, old, rfl, hentry⟩))

/-- Disks of one shape with the same listings have the same source files. -/
theorem SameShape.sources (h : d.SameShape d')
    (hlisting : ∀ base, d'.filesBelow base = d.filesBelow base) :
    d'.sources extensions directory = d.sources extensions directory := by
  have hdirectory := h.isDirectory directory
  cases hd : d.isDirectory directory with
  | false => rw [sources_of_not_isDirectory hd, sources_of_not_isDirectory (hdirectory.trans hd)]
  | true =>
    rw [sources_of_isDirectory hd, sources_of_isDirectory (hdirectory.trans hd), hlisting,
      h.placeOf]

/-- What can be read on a disk can be read on every disk of its shape. -/
theorem SameShape.exists_read (h : d.SameShape d') {bytes : ByteArray}
    (hread : d.read path = .ok bytes) : ∃ bytes', d'.read path = .ok bytes' := by
  obtain ⟨hlocate, hfile⟩ := read_eq_ok_iff.1 hread
  have hentry := fileAt?_eq_some_iff.1 hfile
  have hpresent := h.present (d.placeOf path)
  have hdirectory := h.directory (d.placeOf path)
  have hplace := h.placeOf path
  cases hentry' : d'.entryAt? (d.placeOf path) with
  | none => simp [hentry, hentry'] at hpresent
  | some entry =>
    cases entry with
    | directory => simp [isDirectoryAt, hentry, hentry'] at hdirectory
    | file bytes' =>
      refine ⟨bytes', read_eq_ok_iff.2 ⟨?_, ?_⟩⟩
      · rw [h.locate, hlocate, hplace]
      · rw [hplace]
        exact fileAt?_eq_some_iff.2 hentry'

end ThemeLocales.Disk
