import ThemeLocales.Proofs.Disk.Listing
import ThemeLocales.Proofs.Project.Recording
import ThemeLocales.Proofs.Project.Replay
import ThemeLocales.Proofs.Template.Default

/-!
# What is collected from source directories

Collecting reads the source files below each listed directory, directory by directory, and adds the
keys of one text after the other: `meets_recordedKeys`. So a key keeps the first of its defaults
that is content in the order of the readings, and a text that was read before adds nothing.

`exists_readings_collectKeys` puts the parts together: which files are read and how often, what the
two tables hold of a key, and that a directory whose files were all read already changes neither
table. A journal among the sources grows between two readings, so what a file held at the start is
only claimed where the journal does not write.
-/

set_option autoImplicit false

namespace ThemeLocales.Project

open Operation

/-! ## Tables of several texts -/

/-- The defaults that a key has in several texts, in the order of the texts. -/
def defaultsOf (key : String) (contents : List String) : List Document :=
  contents.filterMap fun content => Assoc.get? key (KeyTable.ofContent content)

/-- The tables that several texts have of one kind of keys. -/
def tablesOf (part : KeyTable → KeyTable) (contents : List String) : List KeyTable :=
  contents.map fun content => part (KeyTable.ofContent content)

variable {contents : List String} {table : KeyTable} {part : KeyTable → KeyTable}

/-- A table of the collection, normal or schema, grows with each text by its keys of that kind. -/
theorem table_foldl_addContent (side : Collected → KeyTable)
    (hside : ∀ c content, side (c.addContent content) =
      KeyTable.add (side c) (part (KeyTable.ofContent content)))
    (contents : List String) (c : Collected) :
    side (contents.foldl Collected.addContent c) =
      (tablesOf part contents).foldl KeyTable.add (side c) := by
  induction contents generalizing c with
  | nil => rfl
  | cons content rest ih =>
    rw [List.foldl_cons, ih, hside]
    rfl

theorem flat_of_mem_tablesOf (hpart : ∀ {table : KeyTable}, table.Flat → (part table).Flat)
    (h : table ∈ tablesOf part contents) : table.Flat := by
  obtain ⟨content, -, rfl⟩ := List.mem_map.1 h
  exact hpart (KeyTable.flat_ofContent content)

theorem sound_of_mem_tablesOf (hpart : ∀ {table : KeyTable}, table.Sound → (part table).Sound)
    (h : table ∈ tablesOf part contents) : table.Sound := by
  obtain ⟨content, -, rfl⟩ := List.mem_map.1 h
  exact hpart (KeyTable.sound_ofContent content)

/-- A key without the prefix keeps the first of its defaults that is content. -/
theorem get?_normal_foldl_addContent (contents : List String) (key : String) :
    Assoc.get? key (contents.foldl Collected.addContent {}).normal =
      if (KeyTable.schemaPart? key).isNone then KeyTable.firstContent (defaultsOf key contents)
      else none := by
  rw [table_foldl_addContent Collected.normal fun _ _ => rfl,
    KeyTable.get?_foldl_add fun _ => flat_of_mem_tablesOf KeyTable.flat_normalKeys, tablesOf,
    List.filterMap_map]
  simp only [Function.comp_def, KeyTable.get?_normalKeys]
  by_cases hnone : (KeyTable.schemaPart? key).isNone = true
  · simp only [hnone, if_true]
    rfl
  · simp [hnone, KeyTable.firstContent]

/-- So does a key with the prefix, which it loses. -/
theorem get?_schema_foldl_addContent (contents : List String) (part : String) :
    Assoc.get? part (contents.foldl Collected.addContent {}).schema =
      KeyTable.firstContent (defaultsOf ("schema." ++ part) contents) := by
  rw [table_foldl_addContent Collected.schema fun _ _ => rfl,
    KeyTable.get?_foldl_add fun _ => flat_of_mem_tablesOf KeyTable.flat_schemaKeys, tablesOf,
    List.filterMap_map]
  simp only [Function.comp_def, KeyTable.get?_schemaKeys]
  rfl

/-- A text that was added already changes no table. -/
theorem add_part_of_mem (side : Collected → KeyTable)
    (hside : ∀ c content, side (c.addContent content) =
      KeyTable.add (side c) (part (KeyTable.ofContent content)))
    (hempty : side {} = []) (hsound : ∀ {table : KeyTable}, table.Sound → (part table).Sound)
    (hflat : ∀ {table : KeyTable}, table.Flat → (part table).Flat) {content : String}
    (h : content ∈ contents) :
    KeyTable.add (side (contents.foldl Collected.addContent {}))
        (part (KeyTable.ofContent content)) =
      side (contents.foldl Collected.addContent {}) := by
  rw [table_foldl_addContent side hside, hempty]
  exact KeyTable.add_foldl_of_mem (fun _ => sound_of_mem_tablesOf hsound)
    (fun _ => flat_of_mem_tablesOf hflat) (List.mem_map.2 ⟨content, h, rfl⟩)

/-- The keys of a text that are no strings are kept. -/
theorem mem_unpaired_foldl_addContent {key : Text.Points} {content : String}
    (h : content ∈ contents) (hkey : key ∈ Template.unpairedKeys content) (c : Collected) :
    key ∈ (contents.foldl Collected.addContent c).unpaired := by
  have hmono : ∀ {contents : List String} {c : Collected}, key ∈ c.unpaired →
      key ∈ (contents.foldl Collected.addContent c).unpaired := by
    intro contents
    induction contents with
    | nil => exact id
    | cons content rest ih =>
      intro c hc
      exact ih (List.mem_append_left ((Template.unpairedKeys content).filter (· ∉ c.unpaired)) hc)
  induction contents generalizing c with
  | nil => cases h
  | cons first rest ih =>
    rcases List.mem_cons.1 h with rfl | h
    · refine hmono (c := c.addContent content) ?_
      change key ∈ c.unpaired ++ (Template.unpairedKeys content).filter (· ∉ c.unpaired)
      by_cases hc : key ∈ c.unpaired
      · exact List.mem_append_left _ hc
      · exact List.mem_append_right _ (List.mem_filter.2 ⟨hkey, by simpa using hc⟩)
    · exact ih h _

theorem addContent_of_mem {content : String} (h : content ∈ contents) :
    (contents.foldl Collected.addContent {}).addContent content =
      contents.foldl Collected.addContent {} := by
  have hnormal := add_part_of_mem Collected.normal (fun _ _ => rfl) rfl
    KeyTable.sound_normalKeys KeyTable.flat_normalKeys h
  have hschema := add_part_of_mem Collected.schema (fun _ _ => rfl) rfl
    KeyTable.sound_schemaKeys KeyTable.flat_schemaKeys h
  have hunpaired : (Template.unpairedKeys content).filter
      (· ∉ (contents.foldl Collected.addContent {}).unpaired) = [] := by
    refine List.filter_eq_nil_iff.2 fun key hkey => ?_
    simpa using mem_unpaired_foldl_addContent h hkey {}
  simp only [Collected.addContent, hnormal, hschema, hunpaired, List.append_nil]

/-- Neither do several such texts. -/
theorem foldl_addContent_of_subset {more : List String} (h : ∀ content ∈ more, content ∈ contents) :
    more.foldl Collected.addContent (contents.foldl Collected.addContent {}) =
      contents.foldl Collected.addContent {} := by
  induction more with
  | nil => rfl
  | cons content rest ih =>
    rw [List.foldl_cons, addContent_of_mem (h content List.mem_cons_self)]
    exact ih fun other hother => h other (List.mem_cons_of_mem _ hother)

/-! ## Records and files -/

section Logs

variable {start w : World}

theorem LogsTo.sameShape (h : LogsTo start w) : start.disk.SameShape w.disk := by
  have hlog : LogStable fun w => start.disk.SameShape w.disk :=
    fun w r hw => hw.trans (World.sameShape_logged w r)
  exact hlog.logsTo (.refl start.disk) h

theorem LogsTo.filesBelow (h : LogsTo start w) (base : List String) :
    w.disk.filesBelow base = start.disk.filesBelow base := by
  have hlog : LogStable fun w => w.disk.filesBelow base = start.disk.filesBelow base := by
    intro w r hw
    rcases World.logged_disk w r with hdisk | ⟨path, line, -, hdisk⟩
    · rwa [hdisk]
    · rwa [hdisk, Disk.filesBelow_appendLine]
  exact hlog.logsTo rfl h

/-- Records keep the places that they are not written to, and so does the way back. -/
theorem LogsTo.keeps {S : List String → Prop} (h : LogsTo start w) (hapart : start.Apart S) :
    start.disk.Keeps S w.disk ∧ w.disk.Keeps S start.disk := by
  have hlog : LogStable fun w =>
      w.Apart S ∧ start.disk.Keeps S w.disk ∧ w.disk.Keeps S start.disk := by
    rintro w r ⟨hw, hkeeps, hback⟩
    have hlogged := World.keeps_logged hw r
    exact ⟨hlogged.apart hw, hkeeps.trans hlogged.disk, (World.logged_keeps hw r).trans hback⟩
  exact (hlog.logsTo ⟨hapart, .refl S start.disk, .refl S start.disk⟩ h).2

/-- What is read after some records was there before them, unless they were written to it. -/
theorem LogsTo.read (h : LogsTo start w) {path : String} {bytes : ByteArray}
    (hapart : start.Apart (· = start.disk.placeOf path)) (hread : w.disk.read path = .ok bytes) :
    start.disk.read path = .ok bytes := by
  obtain ⟨hkeeps, hback⟩ := h.keeps hapart
  exact hback.read (hkeeps.placeOf path) hread

/-- Such a file reads the same before the records and after them, if it can be read at all. -/
theorem LogsTo.toOption_read (h : LogsTo start w) {path : String}
    (hapart : start.Apart (· = start.disk.placeOf path)) :
    (w.disk.read path).toOption = (start.disk.read path).toOption := by
  cases hread : start.disk.read path with
  | ok bytes =>
    rw [(h.keeps hapart).1.read rfl hread]
  | error e =>
    cases hafter : w.disk.read path with
    | error e' => rfl
    | ok bytes =>
      rw [h.read hapart hafter] at hread
      cases hread

end Logs

/-! ## Runs -/

/-- Files at some paths were read one after the other. What no record is written to was read as it
was at the start. -/
structure ReadFrom (start : World) (paths : List String) (reads : List Reading) : Prop where
  paths : reads.map Reading.path = paths
  bytes : ∀ r ∈ reads, start.Apart (· = start.disk.placeOf r.path) →
    start.disk.read r.path = .ok r.bytes

/-- A collection went on by reading files at some paths, after it had some tables and readings. -/
def WentOn (start : World) (paths : List String) (c : Collected) (reads : List Reading)
    (result : Collected × List Reading) : Prop :=
  ∃ more, ReadFrom start paths more ∧ result.2 = reads ++ more ∧
    result.1 = (more.map Reading.content).foldl Collected.addContent c

section Runs

variable {start : World} {E : World → Prop} {paths further extensions : List String}
  {reads : List Reading} {c : Collected}

theorem WentOn.nil (start : World) (c : Collected) (reads : List Reading) :
    WentOn start [] c reads (c, reads) :=
  ⟨[], ⟨rfl, by simp⟩, by simp, rfl⟩

theorem WentOn.trans {result last : Collected × List Reading}
    (h : WentOn start paths c reads result) (h' : WentOn start further result.1 result.2 last) :
    WentOn start (paths ++ further) c reads last := by
  obtain ⟨first, hfirst, hreads, hc⟩ := h
  obtain ⟨second, hsecond, hreads', hc'⟩ := h'
  refine ⟨first ++ second, ⟨?_, ?_⟩, ?_, ?_⟩
  · rw [List.map_append, hfirst.paths, hsecond.paths]
  · intro r hr
    rcases List.mem_append.1 hr with hr | hr
    · exact hfirst.bytes r hr
    · exact hsecond.bytes r hr
  · rw [hreads', hreads, List.append_assoc]
  · rw [hc', hc, List.map_append, List.foldl_append]

/-- A file at a path may be read, or else a failure is foreseen. -/
def Readable (start : World) (E : World → Prop) (path : String) : Prop :=
  (∃ bytes, start.disk.read path = .ok bytes) ∨ ∀ w, LogsTo start w → E w

theorem meets_recordBytes {path : String} (hpath : Readable start E path) (reads : List Reading) :
    Meets (LogsTo start) ((recordBytes path).run reads)
      (fun result w => (∃ r, ReadFrom start [path] [r] ∧ result = (r.bytes, reads ++ [r])) ∧
        LogsTo start w) E := by
  have hrun : (recordBytes path).run reads =
      readBytes path >>= fun bytes => pure (bytes, reads ++ [⟨path, bytes⟩]) := by
    simp [recordBytes]
  rw [hrun]
  refine .bind ((meets_readBytes path).mono (fun _ hw => hw) (fun _ _ hw => hw) ?_) fun bytes => ?_
  · -- Records leave a file that can be read in place, so only a foreseen failure is left.
    rintro w ⟨hw, hread⟩
    rcases hpath with ⟨bytes, hbytes⟩ | hE
    · obtain ⟨bytes', hbytes'⟩ := hw.sameShape.exists_read hbytes
      exact absurd hbytes' (hread bytes')
    · exact hE w hw
  · refine .pure _ fun w hw => ⟨⟨⟨path, bytes⟩, ⟨rfl, ?_⟩, rfl⟩, hw.1⟩
    intro r hr hapart
    obtain rfl := List.mem_singleton.1 hr
    exact hw.1.read hapart hw.2

theorem meets_collectFileVia {path : String} (hpath : Readable start E path) (c : Collected)
    (reads : List Reading) :
    Meets (LogsTo start) ((collectFileVia recordBytes c path).run reads)
      (fun result w => WentOn start [path] c reads result ∧ LogsTo start w) E := by
  refine .bind (meets_recordBytes hpath reads) fun read => .of_and ?_
  rintro ⟨r, hr, rfl⟩
  refine .bind (Q := fun result w => result.2 = reads ++ [r] ∧ LogsTo start w) ?_ fun result => ?_
  · exact .bind ((logStable_logsTo start).logTimes .debug _ _) fun _ =>
      .pure _ fun _ hw => ⟨rfl, hw⟩
  · exact .pure _ fun w hw => ⟨⟨[r], hr, hw.1, rfl⟩, hw.2⟩

theorem meets_foldlM_collectFileVia (hpaths : ∀ path ∈ paths, Readable start E path)
    (c : Collected) (reads : List Reading) :
    Meets (LogsTo start) ((paths.foldlM (collectFileVia recordBytes) c).run reads)
      (fun result w => WentOn start paths c reads result ∧ LogsTo start w) E := by
  induction paths generalizing c reads with
  | nil => exact .pure _ fun w hw => ⟨.nil start c reads, hw⟩
  | cons path rest ih =>
    rw [List.foldlM_cons]
    have hfirst := meets_collectFileVia (hpaths path List.mem_cons_self) c reads
    have hrest := ih fun other hother => hpaths other (List.mem_cons_of_mem _ hother)
    refine .bind hfirst fun result => .of_and fun hresult => ?_
    exact (hrest result.1 result.2).mono (fun _ hw => hw)
      (fun _ _ hw => ⟨hresult.trans hw.1, hw.2⟩) fun _ hw => hw

/-- The source files below a directory are found as they were at the start. -/
theorem runIn_sourceFiles {w : World} (hw : LogsTo start w) {directory : String}
    (hdirectory : start.disk.isDirectory directory = true) (extensions : List String) :
    (sourceFiles directory extensions).runIn w =
      (.ok (start.disk.sources extensions directory), w) := by
  rw [← hw.sameShape.sources hw.filesBelow]
  obtain ⟨place, hlookup⟩ := Disk.isDirectory_iff.1 hdirectory
  have hlookup := hw.sameShape.lookup_directory.2 hlookup
  have hwalk : ∃ listed, w.disk.walk directory = .ok listed := by
    simp [Disk.walk, hlookup]
  obtain ⟨listed, hlisted⟩ := hwalk
  rw [sourceFiles_eq, runIn_bind_of_ok (runIn_ofView_eq_ok.2 ⟨hlisted, rfl⟩), Disk.sources, hlisted]
  rfl

/-- Between the readings, a recording runs as the operations in it do. -/
theorem meets_run_lift_bind {α β : Type} {P : World → Prop} {Q : α → World → Prop}
    {R : β × List Reading → World → Prop} {op : Operation α}
    {f : α → StateT (List Reading) Operation β} (h : Meets P op Q E)
    (hf : ∀ a, Meets (Q a) ((f a).run reads) R E) : Meets P ((liftM op >>= f).run reads) R E := by
  have hrun : (liftM op >>= f).run reads = op >>= fun a => (f a).run reads := by
    rw [StateT.run_bind]
    change (op >>= fun a => pure (a, reads)) >>= (fun result => (f result.1).run result.2) = _
    simp
  rw [hrun]
  exact h.bind hf

/-- A source path is missing, or it leads to a directory. -/
def MissingOrDirectory (d : Disk) (path : String) : Prop :=
  d.isThere path = false ∨ d.isDirectory path = true

theorem meets_collectDirectoryVia {directory : String}
    (hdirectory : MissingOrDirectory start.disk directory)
    (hpaths : ∀ path ∈ start.disk.sources extensions directory, Readable start E path)
    (c : Collected) (reads : List Reading) :
    Meets (LogsTo start) ((collectDirectoryVia recordBytes extensions c directory).run reads)
      (fun result w => WentOn start (start.disk.sources extensions directory) c reads result ∧
        LogsTo start w) E := by
  have hlog := logStable_logsTo start
  have hthere : Meets (LogsTo start) (isThere directory)
      (fun there w => there = start.disk.isThere directory ∧ LogsTo start w) E :=
    .isThere fun w hw => ⟨hw.sameShape.isThere directory, hw⟩
  refine meets_run_lift_bind hthere fun there => .of_and ?_
  rintro rfl
  -- a directory that is not there has no files, and a warning says so
  cases hpresent : start.disk.isThere directory with
  | false =>
    have hnot : start.disk.isDirectory directory = false := by
      by_contra hdirectory
      rw [Disk.isThere_of_isDirectory (by simpa using hdirectory)] at hpresent
      cases hpresent
    rw [Disk.sources_of_not_isDirectory hnot]
    refine meets_run_lift_bind (hlog.logMessage .warning _) fun _ => ?_
    exact .pure _ fun w hw => ⟨.nil start c reads, hw⟩
  | true =>
    have hdirectory := hdirectory.resolve_left (by simp [hpresent])
    have hfiles : Meets (LogsTo start) (sourceFiles directory extensions)
        (fun files w => files = start.disk.sources extensions directory ∧ LogsTo start w) E := by
      refine ⟨fun w hw => ?_⟩
      rw [runIn_sourceFiles hw hdirectory]
      exact ⟨rfl, hw⟩
    refine meets_run_lift_bind hfiles fun files => .of_and ?_
    rintro rfl
    refine meets_run_lift_bind (hlog.logMessage .info _) fun _ => ?_
    exact meets_foldlM_collectFileVia hpaths c reads

/-- A collection reads the source files below its directories, one directory after the other. -/
theorem meets_recordedKeys {directories : List String}
    (hdirectories : ∀ directory ∈ directories, MissingOrDirectory start.disk directory)
    (hpaths : ∀ directory ∈ directories, ∀ path ∈ start.disk.sources extensions directory,
      Readable start E path) :
    Meets (LogsTo start) (recordedKeys directories extensions)
      (fun result w => WentOn start (directories.flatMap (start.disk.sources extensions)) {} []
        result ∧ LogsTo start w) E := by
  have hfold : ∀ c reads, Meets (LogsTo start)
      ((directories.foldlM (collectDirectoryVia recordBytes extensions) c).run reads)
      (fun result w => WentOn start (directories.flatMap (start.disk.sources extensions)) c reads
        result ∧ LogsTo start w) E := by
    -- Over the directories, from whatever tables and readings there are.
    induction directories with
    | nil => exact fun c reads => .pure _ fun w hw => ⟨.nil start c reads, hw⟩
    | cons directory rest ih =>
      intro c reads
      rw [List.foldlM_cons, StateT.run_bind]
      have hfirst := meets_collectDirectoryVia (hdirectories directory List.mem_cons_self)
        (hpaths directory List.mem_cons_self) c reads
      have hrest := ih (fun other hother => hdirectories other (List.mem_cons_of_mem _ hother))
        fun other hother => hpaths other (List.mem_cons_of_mem _ hother)
      refine .bind hfirst fun result => .of_and fun hresult => ?_
      exact (hrest result.1 result.2).mono (fun _ hw => hw)
        (fun _ _ hw => ⟨hresult.trans hw.1, hw.2⟩) fun _ hw => hw
  exact hfold {} []

/-- A directory whose files all stand where others were read adds nothing. -/
theorem exists_runIn_collectDirectory {w w₁ : World} {again : String} (hw : LogsTo w w₁)
    (hcollected : WentOn w paths {} [] (c, reads)) (hagain : MissingOrDirectory w.disk again)
    (hreadable : ∀ path ∈ w.disk.sources extensions again, ∃ bytes, w.disk.read path = .ok bytes)
    (hscanned : ∀ path ∈ w.disk.sources extensions again, w.Apart (· = w.disk.placeOf path) ∧
      ∃ r ∈ reads, w.disk.placeOf r.path = w.disk.placeOf path) :
    ∃ w₂, (collectDirectory extensions c again).runIn w₁ = (.ok c, w₂) := by
  have hmeets := meets_collectDirectoryVia (E := fun _ => False) hagain
    (fun path hpath => Or.inl (hreadable path hpath)) c reads
  obtain ⟨result, w₂, hrun, ⟨more, hmore, -, hc'⟩, -⟩ := hmeets.exists_ok hw
  obtain ⟨first, hfirst, hreads, hc⟩ := hcollected
  obtain rfl : reads = first := hreads
  -- Each text that was read now was read before, at the same place.
  have hsubset : ∀ content ∈ more.map Reading.content, content ∈ reads.map Reading.content := by
    intro content hcontent
    obtain ⟨r, hr, rfl⟩ := List.mem_map.1 hcontent
    have hpath : r.path ∈ w.disk.sources extensions again := hmore.paths ▸ List.mem_map_of_mem hr
    obtain ⟨hapart, r', hr', hplace⟩ := hscanned r.path hpath
    have hread := (Disk.read_eq_ok_iff.1 (hmore.bytes r hr hapart)).2
    have hread' := (Disk.read_eq_ok_iff.1 (hfirst.bytes r' hr' (hplace ▸ hapart))).2
    have hbytes : r'.bytes = r.bytes := by
      rw [hplace, hread] at hread'
      exact (Option.some.inj hread').symm
    refine List.mem_map.2 ⟨r', hr', ?_⟩
    rw [Reading.content, Reading.content, hbytes]
  have hsame : result.1 = c := by
    change c = _ at hc
    rw [hc', hc]
    exact foldl_addContent_of_subset hsubset
  refine ⟨w₂, ((records_collectDirectory extensions c again).runIn_iff reads).2 ⟨result.2, ?_⟩⟩
  rw [hrun, ← hsame]

end Runs

/-- What is collected from source directories of a well-formed disk, each of which may be missing.
Unless the path of something below them is too long for the system, the collection succeeds. If it
does, then its readings are as follows. The source files below the listed directories are read in
the order of a walk, whatever order the directories list their names in, each once for every listed
directory that it is below. A file that the journal does not write to is read as it was at the
start. Each table has the keys of its kind that the texts yield, with the first
default that is content, or else the empty text. A further directory whose files stand where files
were read already, and where the journal does not write, changes neither table. -/
theorem exists_readings_collectKeys {w : World} {directories extensions : List String}
    (hdisk : w.disk.WellFormed)
    (hdirectories : ∀ directory ∈ directories, MissingOrDirectory w.disk directory) :
    ((∀ directory ∈ directories, w.disk.ShortBelow directory) →
      ∃ c w₁, (collectKeys directories extensions).runIn w = (.ok c, w₁)) ∧
    ∀ c w₁, (collectKeys directories extensions).runIn w = (.ok c, w₁) →
      ∃ reads, (recordedKeys directories extensions).runIn w = (.ok (c, reads), w₁) ∧
        reads.map Reading.path = directories.flatMap (w.disk.sources extensions) ∧
        (∀ place, (reads.map fun r => w.disk.placeOf r.path).count place =
          if w.disk.isSource extensions place then directories.countP (w.disk.contains place)
          else 0) ∧
        (∀ r ∈ reads, w.Apart (· = w.disk.placeOf r.path) → w.disk.read r.path = .ok r.bytes) ∧
        (∀ key, Assoc.get? key c.normal =
          if (KeyTable.schemaPart? key).isNone then
            KeyTable.firstContent (defaultsOf key (reads.map Reading.content))
          else none) ∧
        (∀ part, Assoc.get? part c.schema =
          KeyTable.firstContent (defaultsOf ("schema." ++ part) (reads.map Reading.content))) ∧
        ∀ again, MissingOrDirectory w.disk again → w.disk.ShortBelow again →
          (∀ path ∈ w.disk.sources extensions again,
            w.Apart (· = w.disk.placeOf path) ∧
              ∃ r ∈ reads, w.disk.placeOf r.path = w.disk.placeOf path) →
          ∃ w₂, (collectKeys (directories ++ [again]) extensions).runIn w = (.ok c, w₂) := by
  constructor
  · intro hshort
    have hmeets : Meets (LogsTo w) (recordedKeys directories extensions) _ fun _ => False :=
      meets_recordedKeys hdirectories fun directory hdirectory path hpath =>
        Or.inl (hdisk.exists_read_of_mem_sources hpath (hshort directory hdirectory))
    obtain ⟨result, w₁, hrun, -⟩ := hmeets.exists_ok (.refl w)
    exact ⟨result.1, w₁, runIn_collectKeys_iff.2 ⟨result.2, hrun⟩⟩
  · intro c w₁ hrun
    obtain ⟨reads, hrecorded⟩ := runIn_collectKeys_iff.1 hrun
    -- The run has succeeded, so a failure need not be ruled out here.
    have hmeets : Meets (LogsTo w) (recordedKeys directories extensions) _ fun _ => True :=
      meets_recordedKeys hdirectories fun _ _ _ _ => Or.inr fun _ _ => trivial
    obtain ⟨hwent, hlogs⟩ := hmeets.of_ok (.refl w) hrecorded
    have hfull := hwent
    obtain ⟨more, hmore, hreads, hc⟩ := hwent
    obtain rfl : reads = more := hreads
    obtain rfl : c = (reads.map Reading.content).foldl Collected.addContent {} := hc
    refine ⟨reads, hrecorded, hmore.paths, fun place => ?_, hmore.bytes,
      get?_normal_foldl_addContent _, get?_schema_foldl_addContent _,
      fun again hagain hshort hscanned => ?_⟩
    · -- The readings are counted by the places of the listed files.
      have hplaces : (reads.map fun r => w.disk.placeOf r.path) =
          (directories.flatMap (w.disk.sources extensions)).map w.disk.placeOf := by
        rw [← hmore.paths, List.map_map]
        rfl
      rw [hplaces, hdisk.count_sources]
    · -- The longer collection is the one that has run, and the further directory after it.
      obtain ⟨w₂, hdirectory⟩ := exists_runIn_collectDirectory hlogs hfull hagain
        (fun path hpath => hdisk.exists_read_of_mem_sources hpath hshort) hscanned
      refine ⟨w₂, ?_⟩
      rw [collectKeys, List.foldlM_append, ← collectKeys, runIn_bind_of_ok hrun, List.foldlM_cons,
        runIn_bind_of_ok hdirectory]
      rfl

/-! ## Nested sources -/

/-- A disk with sources in two directories, one inside the other. -/
def nestedDisk : Disk where
  entries := [(["r"], .directory), (["r", "s"], .directory), (["r", "s", "n"], .directory),
    (["r", "s", "n", "b.json"], .file "\x7b\x7b 'a.b' | t: 'Hello' \x7d\x7d".toUTF8),
    (["r", "s", "a.liquid"], .file "\x7b\x7b 'a.b' | t: 0 \x7d\x7d".toUTF8),
    (["r", "s", "n", "c.txt"], .file "".toUTF8)]
  workingDirectory := ["r"]

/-- Source paths of which one is missing, one is listed twice and one lies inside another. -/
def nestedPaths : List String := ["s", "gone", "s/n/", "s"]

/-- The inner file is below three of the paths, so it is read three times. -/
theorem exists_readings_collectKeys_nested :
    nestedDisk.WellFormed ∧ (∀ path ∈ nestedPaths, MissingOrDirectory nestedDisk path) ∧
    (∃ c w₁, (collectKeys nestedPaths sourceExtensions).runIn { disk := nestedDisk } =
      (.ok c, w₁)) ∧
    ∀ c w₁, (collectKeys nestedPaths sourceExtensions).runIn { disk := nestedDisk } =
        (.ok c, w₁) →
      ∃ reads, (recordedKeys nestedPaths sourceExtensions).runIn { disk := nestedDisk } =
          (.ok (c, reads), w₁) ∧
        (reads.map fun r => nestedDisk.placeOf r.path).count ["r", "s", "n", "b.json"] = 3 := by
  have hdisk : nestedDisk.WellFormed := by decide +kernel
  have hpaths : ∀ path ∈ nestedPaths, MissingOrDirectory nestedDisk path := by
    unfold MissingOrDirectory
    decide +kernel
  obtain ⟨hruns, hreads⟩ :=
    @exists_readings_collectKeys { disk := nestedDisk } nestedPaths sourceExtensions hdisk hpaths
  refine ⟨hdisk, hpaths, hruns ?_, fun c w₁ hrun => ?_⟩
  · -- The path of an entry has the names that it has beyond its directory.
    have hentries : ∀ directory ∈ nestedPaths, ∀ e ∈ nestedDisk.entries,
        (Path.join directory (Path.joinNames (e.1.drop
          (nestedDisk.placeOf directory).length))).utf8ByteSize ≤ 4095 := by
      decide +kernel
    intro directory hdirectory e hentry names hnames
    have hsize := hentries directory hdirectory e hentry
    rwa [Disk.append_of_below? hnames, List.drop_left] at hsize
  · obtain ⟨reads, hrecorded, -, hcount, -⟩ := hreads c w₁ hrun
    exact ⟨reads, hrecorded, (hcount _).trans (by decide +kernel)⟩

end ThemeLocales.Project
