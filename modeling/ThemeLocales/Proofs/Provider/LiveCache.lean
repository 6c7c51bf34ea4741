import ThemeLocales.Proofs.Project.Revision
import ThemeLocales.Proofs.Provider.CacheFile

/-!
# The live cache and its file

A cache that was read from its file is in step with it, and so it is after each store: the members
in memory are the ones that the file holds (`exists_runIn_store_of_takes`). A run of stores takes
each result that has a text into the members, one after the other (`exists_runIn_stores`). So the
live cache answers every request as a fresh one does that reads the file, and the file keeps
whatever was not stored (`live_eq_fresh`), as long as the disk takes the file and no surrogate
stands alone there. Where the disk refuses it, the live cache has the result and the file has not
(`live_ne_fresh_blocked`).
-/

set_option autoImplicit false

namespace ThemeLocales

namespace Disk

variable {d : Disk} {path : String}

/-- The disk takes a file at a path: there is one, or one can be made. -/
def Takes (d : Disk) (path : String) : Prop :=
  ∃ e, d.save path .empty = .ok e

/-- Whether a file is taken does not depend on what is in it. -/
theorem Takes.exists_save (h : d.Takes path) (bytes : ByteArray) :
    ∃ e, d.save path bytes = .ok e := by
  obtain ⟨e, hsave⟩ := h
  obtain ⟨c, hmade, hwritten⟩ := save_eq_ok.1 hsave
  obtain ⟨e', hwritten'⟩ : ∃ e', c.write path bytes = .ok e' := by
    rw [write] at hwritten ⊢
    cases hplace : c.writablePlace path with
    | ok place => exact ⟨_, rfl⟩
    | error cause =>
      rw [hplace] at hwritten
      cases hwritten
  exact ⟨e', save_eq_ok.2 ⟨c, hmade, hwritten'⟩⟩

theorem takes_of_read {bytes : ByteArray} (h : d.read path = .ok bytes) : d.Takes path :=
  exists_save_of_read h .empty

/-- Where something is and a file is taken, there is a file. -/
theorem Takes.exists_read (h : d.Takes path) (hthere : d.isThere path = true) :
    ∃ bytes, d.read path = .ok bytes := by
  obtain ⟨e, hsave⟩ := h
  obtain ⟨c, hmade, hwritten⟩ := save_eq_ok.1 hsave
  obtain ⟨place, entry, hlookup⟩ := isThere_iff.1 hthere
  cases entry with
  | file bytes =>
    refine ⟨bytes, ?_⟩
    rw [read, hlookup]
  | directory =>
    -- A directory stays one while those above it are made, and it cannot be written.
    have hlookup' := (keeps_withDirectory hmade).lookup trivial hlookup
    obtain ⟨hlocate, hentry⟩ := lookup_eq_ok_iff.1 hlookup'
    have hplace : c.writablePlace path = .error .isDirectory := by
      rw [writablePlace, hlocate]
      simp only [bind, Except.bind, hentry]
    rw [write, hplace] at hwritten
    cases hwritten

end Disk

namespace Provider.Cache

open Operation Project

variable {path : String} {w : World} {members initial : Members} {results : List Stored}

/-! ## Lookups -/

/-- The members after a result was taken; one without a text is left out. -/
def taken (members : Members) (r : Stored) : Members :=
  if r.translated = "" then members else insert members r.translation

/-- Every entry of a cache is an object. -/
def Proper (members : Members) : Prop :=
  ∀ entry ∈ entries members, entry.2.kind = .mapping

theorem exists_entryTranslation {entry : Document} (h : entry = .null ∨ entry.kind = .mapping) :
    ∃ answer, entryTranslation entry = .ok answer := by
  rcases h with rfl | hkind
  · exact ⟨none, rfl⟩
  · cases entry with
    | map es =>
      simp only [entryTranslation]
      split_ifs
      · exact ⟨none, rfl⟩
      · exact ⟨_, rfl⟩
      · exact ⟨none, rfl⟩
    | _ => cases hkind

/-- A lookup in a proper cache has an answer. -/
theorem exists_lookup (h : Proper members) (text source target : String) :
    ∃ answer, lookup members text source target = .ok answer := by
  refine exists_entryTranslation ?_
  cases hentry : Assoc.get? (key text source target) (entries members) with
  | none => exact .inl rfl
  | some entry => exact .inr (h _ (Assoc.mem_of_get? hentry))

theorem proper_taken (h : Proper members) (r : Stored) : Proper (taken members r) := by
  unfold taken
  split
  · exact h
  · intro entry hentry
    rw [entries_insert] at hentry
    rcases Assoc.eq_or_mem_of_mem_set hentry with rfl | hmem
    · rfl
    · exact h entry hmem

theorem proper_foldl_taken (h : Proper members) (results : List Stored) :
    Proper (results.foldl taken members) := by
  induction results generalizing members with
  | nil => exact h
  | cons r rest ih => exact ih (proper_taken h r)

/-! ## What stays -/

/-- A result changes neither the other members of a cache nor the entries under other keys. -/
theorem get?_foldl_taken (results : List Stored) (members : Members) {name : String}
    (hname : name ≠ "cache") :
    Assoc.get? name (results.foldl taken members) = Assoc.get? name members := by
  induction results generalizing members with
  | nil => rfl
  | cons r rest ih =>
    rw [List.foldl_cons, ih, taken]
    split
    · rfl
    · exact Assoc.get?_set_of_ne hname _ _

theorem get?_entries_foldl_taken (members : Members) {name : String}
    (hname : ∀ r ∈ results, r.translated ≠ "" → r.key ≠ name) :
    Assoc.get? name (entries (results.foldl taken members)) =
      Assoc.get? name (entries members) := by
  induction results generalizing members with
  | nil => rfl
  | cons r rest ih =>
    obtain ⟨hr, hrest⟩ := List.forall_mem_cons.1 hname
    rw [List.foldl_cons, ih _ hrest, taken]
    split
    · rfl
    · next htext =>
      rw [entries_insert]
      exact Assoc.get?_set_of_ne (hr htext).symm _ _

/-! ## One store -/

theorem runIn_saveText {text : String} {d : Disk} (h : w.disk.save path text.toUTF8 = .ok d) :
    (saveText path text).runIn w = (.ok (), { w with disk := d }) := by
  obtain ⟨c, hmade, hwritten⟩ := Disk.save_eq_ok.1 h
  rw [Disk.withDirectory] at hmade
  rw [saveText]
  split
  · next hdirectory =>
    rw [if_pos hdirectory] at hmade
    have hmake := runIn_changeDisk (fun d => d.makeDirectories (Path.directory path)) w
    have hwrite := runIn_changeDisk (fun d => d.write path text.toUTF8) { w with disk := c }
    simp only [hmade] at hmake
    simp only [hwritten] at hwrite
    exact (runIn_bind_of_ok hmake).trans hwrite
  · next hdirectory =>
    rw [if_neg hdirectory] at hmade
    cases hmade
    have hwrite := runIn_changeDisk (fun d => d.write path text.toUTF8) w
    simp only [hwritten] at hwrite
    exact hwrite

/-- The first access reads the file and leaves it where the disk takes it. -/
theorem exists_runIn_load_of_takes (hstep : InStep path w) (htakes : w.disk.Takes path) :
    ∃ w₁, (load path).runIn w = (.ok (imageAt w.disk path), w₁) ∧ w₁.disk.Takes path := by
  obtain ⟨w₁, hlogs, hload⟩ := exists_runIn_load hstep
  refine ⟨_, hload, ?_⟩
  cases hthere : w.disk.isThere path with
  | true =>
    -- There is a file, which the journal can make longer at most.
    obtain ⟨bytes, hread⟩ := htakes.exists_read hthere
    obtain ⟨bytes', hread'⟩ := hlogs.sameShape.exists_read hread
    exact Disk.takes_of_read hread'
  | false =>
    -- Without a file nothing is recorded.
    have hload' : (load path).runIn w = _ := runIn_load fun _ => hthere
    have hsame : w₁.disk = w.disk :=
      congrArg (fun run => run.2.disk) (hload.symm.trans hload')
    rwa [hsame]

/-- A result without a text is not stored. -/
theorem runIn_store_of_empty {r : Stored} (hr : r.translated = "") :
    (store path r.translation).runIn w = (.ok (), w) := by
  rw [store, if_pos (by simp [Stored.translation, Translation.ofText, Document.isPresent, hr])]
  rfl

/-- A cache is in step with a file that the disk takes and that holds some members, in which no
surrogate stands alone: a valid file, if it was one. -/
structure Live (path : String) (valid : Prop) (members : Members) (w : World) : Prop where
  inStep : InStep path w
  takes : w.disk.Takes path
  imageAt_eq : imageAt w.disk path = ⟨members, true⟩
  holds : valid → Holds w.disk path members

/-- A store takes the result into the members of the cache and of the file. -/
theorem Live.store {valid : Prop} (h : Live path valid members w) (r : Stored) :
    ∃ w', (Cache.store path r.translation).runIn w = (.ok (), w') ∧
      Live path valid (taken members r) w' := by
  by_cases hr : r.translated = ""
  · refine ⟨w, runIn_store_of_empty hr, ?_⟩
    rwa [taken, if_pos hr]
  have hpresent : r.translation.translatedText.isPresent = true := decide_eq_true hr
  obtain ⟨w₁, hload, htakes⟩ := exists_runIn_load_of_takes h.inStep h.takes
  rw [h.imageAt_eq] at hload
  -- what is saved is what was loaded and the new entry, and it reads back as it is
  let new := insert members r.translation
  obtain ⟨d, hsave⟩ := htakes.exists_save (Json.indented (.map new)).toUTF8
  have hstore : (Cache.store path r.translation).runIn w =
      (saveText path (Json.indented (.map new))).runIn { w₁ with cache := some ⟨new, true⟩ } :=
    runIn_store_of_load hload hpresent
  have hread := Disk.read_save hsave
  have hmembers : membersAt w.disk path = members := congrArg CacheImage.members h.imageAt_eq
  have hholds : Holds d path new :=
    holds_of_read (hmembers ▸ storable_membersAt w.disk path) hread
  have htaken : taken members r = new := if_neg hr
  refine ⟨_, hstore.trans (runIn_saveText hsave), ?_⟩
  rw [htaken]
  refine ⟨?_, Disk.takes_of_read hread, imageAt_of_holds hholds, fun _ => hholds⟩
  intro found hfound
  cases hfound
  exact (imageAt_of_holds hholds).symm

/-! ## Any number of stores -/

/-- Stores results one after the other, up to one that is refused. -/
def stores (path : String) (results : List Stored) : Operation Unit :=
  forM results fun r => store path r.translation

theorem runIn_stores_cons {r : Stored} {w' : World}
    (h : (store path r.translation).runIn w = (.ok (), w')) :
    (stores path (r :: results)).runIn w = (stores path results).runIn w' := by
  rw [stores, List.forM_cons, runIn_bind_of_ok h]
  rfl

theorem Live.stores {valid : Prop} (h : Live path valid members w) (results : List Stored) :
    ∃ w', (Cache.stores path results).runIn w = (.ok (), w') ∧
      Live path valid (results.foldl taken members) w' := by
  induction results generalizing w members with
  | nil => exact ⟨w, rfl, h⟩
  | cons r rest ih =>
    obtain ⟨w₁, hstore, h₁⟩ := h.store r
    obtain ⟨w', hrest, h'⟩ := ih h₁
    exact ⟨w', (runIn_stores_cons hstore).trans hrest, h'⟩

/-- Results without a text leave everything as it is. -/
theorem runIn_stores_of_empty (h : ∀ r ∈ results, r.translated = "") :
    (stores path results).runIn w = (.ok (), w) := by
  induction results with
  | nil => rfl
  | cons r rest ih =>
    obtain ⟨hr, hrest⟩ := List.forall_mem_cons.1 h
    exact (runIn_stores_cons (runIn_store_of_empty hr)).trans (ih hrest)

theorem foldl_taken_of_empty (h : ∀ r ∈ results, r.translated = "") :
    results.foldl taken members = members := by
  induction results with
  | nil => rfl
  | cons r rest ih =>
    obtain ⟨hr, hrest⟩ := List.forall_mem_cons.1 h
    rw [List.foldl_cons, taken, if_pos hr, ih hrest]

/-! ## The live cache and a fresh one -/

/-- A cache that is in step with its file answers from what the file holds. -/
theorem runIn_get_of_inStep (h : InStep path w) (text source target : String) :
    ((get path text source target).runIn w).1 =
      lookup (membersAt w.disk path) text source target := by
  obtain ⟨w₁, -, hload⟩ := exists_runIn_load h
  rw [get, runIn_bind_of_ok hload, ← membersAt]
  cases lookup (membersAt w.disk path) text source target with
  | ok answer => rfl
  | error e => rfl

/-- The cached translation of a text as a fresh cache finds it. -/
def getFresh (path text source target : String) : Operation (Option Translation) := do
  reopen
  get path text source target

theorem inStep_of_none (h : w.cache = none) : InStep path w := by
  intro image himage
  rw [h] at himage
  cases himage

/-- So does a fresh one, whatever was read before. -/
theorem runIn_getFresh (path text source target : String) (w : World) :
    ((getFresh path text source target).runIn w).1 =
      lookup (membersAt w.disk path) text source target := by
  have hreopen : reopen.runIn w = (.ok (), { w with cache := none }) := rfl
  rw [getFresh, runIn_bind_of_ok hreopen]
  exact runIn_get_of_inStep (inStep_of_none rfl) text source target

/-- A file takes results: the disk takes it, and no surrogate stands alone in what it holds. -/
structure Ready (path : String) (d : Disk) : Prop where
  takes : d.Takes path
  paired : (imageAt d path).isPaired = true

/-- Whatever is stored, the run ends in a world where the cache is in step with its file and the
file holds what it held with the results taken into it. -/
theorem exists_runIn_stores (hcache : w.cache = none)
    (hready : (∀ r ∈ results, r.translated = "") ∨ Ready path w.disk) :
    ∃ w', (stores path results).runIn w = (.ok (), w') ∧ InStep path w' ∧
      membersAt w'.disk path = results.foldl taken (membersAt w.disk path) ∧
      ∀ initial, Holds w.disk path initial →
        Holds w'.disk path (results.foldl taken initial) := by
  rcases hready with hempty | hready
  · refine ⟨w, runIn_stores_of_empty hempty, inStep_of_none hcache, ?_, ?_⟩
    · rw [foldl_taken_of_empty hempty]
    · intro initial hinitial
      rwa [foldl_taken_of_empty hempty]
  · have hlive : Live path (∃ initial, Holds w.disk path initial) (membersAt w.disk path) w := by
      refine ⟨inStep_of_none hcache, hready.takes, ?_, ?_⟩
      · rw [← hready.paired]
        rfl
      rintro ⟨initial, hinitial⟩
      rwa [membersAt_of_holds hinitial]
    obtain ⟨w', hrun, hlive'⟩ := hlive.stores results
    refine ⟨w', hrun, hlive'.inStep, congrArg CacheImage.members hlive'.imageAt_eq, ?_⟩
    intro initial hinitial
    rw [← membersAt_of_holds hinitial]
    exact hlive'.holds ⟨initial, hinitial⟩

/-- The live cache and its file agree. From any file that holds no cache, or one whose entries are
objects, any results can be stored if the disk takes the file and no surrogate stands alone in it.
Then every request is answered by the live cache, and in the same way by a fresh one; what a valid
file had under other keys and beside its entries is in it unchanged; and results without a text
leave the disk as it was. -/
theorem live_eq_fresh (hcache : w.cache = none) (hproper : Proper (membersAt w.disk path))
    (hready : (∀ r ∈ results, r.translated = "") ∨ Ready path w.disk) :
    ∃ w', (stores path results).runIn w = (.ok (), w') ∧
      (∀ text source target, ∃ answer,
        ((get path text source target).runIn w').1 = .ok answer ∧
        ((getFresh path text source target).runIn w').1 = .ok answer) ∧
      (∀ initial, Holds w.disk path initial → ∃ final, Holds w'.disk path final ∧
        (∀ name, name ≠ "cache" → Assoc.get? name final = Assoc.get? name initial) ∧
        ∀ name, (∀ r ∈ results, r.translated ≠ "" → r.key ≠ name) →
          Assoc.get? name (entries final) = Assoc.get? name (entries initial)) ∧
      ((∀ r ∈ results, r.translated = "") → w'.disk = w.disk) := by
  obtain ⟨w', hrun, hstep, hmembers, hholds⟩ := exists_runIn_stores hcache hready
  refine ⟨w', hrun, ?_, ?_, ?_⟩
  · -- The members in memory are those of the file.
    intro text source target
    have hproper' : Proper (membersAt w'.disk path) := hmembers ▸ proper_foldl_taken hproper results
    obtain ⟨answer, hanswer⟩ := exists_lookup hproper' text source target
    exact ⟨answer, (runIn_get_of_inStep hstep text source target).trans hanswer,
      (runIn_getFresh path text source target w').trans hanswer⟩
  · intro initial hinitial
    refine ⟨_, hholds initial hinitial, ?_, ?_⟩
    · intro name hname
      exact get?_foldl_taken results initial hname
    · intro name hname
      exact get?_entries_foldl_taken initial hname
  · -- Without a text nothing is stored, and nothing is written.
    intro hempty
    have hsame := hrun.symm.trans (runIn_stores_of_empty hempty)
    rw [(Prod.mk.inj hsame).2]

/-! ## A file that is taken and one that is refused -/

/-- A German and a French translation of one text. -/
def hallo : Stored := ⟨"en", "de", "Hello", "Hallo"⟩

def salut : Stored := ⟨"en", "fr", "Hello", "Salut"⟩

/-- A cache with a note beside its entries. -/
def noted : Members := [("note", .int 1), ("cache", .map [])]

/-- A world whose cache file has the note and the German translation. -/
def notedWorld : World :=
  { disk :=
    { entries := [(["c.json"],
        .file (Json.indented (.map (insert noted hallo.translation))).toUTF8)]
      workingDirectory := [] } }

theorem read_notedWorld : notedWorld.disk.read "c.json" =
    .ok (Json.indented (.map (insert noted hallo.translation))).toUTF8 := by
  rfl

theorem holds_notedWorld : Holds notedWorld.disk "c.json" (insert noted hallo.translation) := by
  refine holds_of_read (Document.storable_map_iff.2 ⟨by decide, ?_⟩) read_notedWorld
  intro entry hentry
  rcases List.mem_cons.1 hentry with rfl | hentry
  · exact Document.storable_int_iff.2 (by decide)
  · obtain rfl := List.mem_singleton.1 hentry
    exact Document.storable_map_iff.2 ⟨List.nodup_nil, by simp⟩

theorem proper_notedWorld : Proper (membersAt notedWorld.disk "c.json") := by
  rw [membersAt_of_holds holds_notedWorld]
  intro entry hentry
  rw [entries_insert] at hentry
  obtain rfl := List.mem_singleton.1 hentry
  rfl

/-- The note and the German translation are still there when the French one was stored. -/
theorem live_eq_fresh_noted : notedWorld.cache = none ∧
    Proper (membersAt notedWorld.disk "c.json") ∧ Ready "c.json" notedWorld.disk ∧
    ∃ w' final, (stores "c.json" [salut]).runIn notedWorld = (.ok (), w') ∧
      Holds w'.disk "c.json" final ∧ Assoc.get? "note" final = some (.int 1) ∧
      Assoc.get? hallo.key (entries final) = some hallo.translation.toDocument := by
  have hready : Ready "c.json" notedWorld.disk := by
    refine ⟨Disk.takes_of_read read_notedWorld, ?_⟩
    rw [imageAt_of_holds holds_notedWorld]
  obtain ⟨w', hrun, -, hkept, -⟩ :
      ∃ w', (stores "c.json" [salut]).runIn notedWorld = (.ok (), w') ∧ _ :=
    live_eq_fresh rfl proper_notedWorld (.inr hready)
  obtain ⟨final, hfinal, hmembers, hentries⟩ := hkept _ holds_notedWorld
  refine ⟨rfl, proper_notedWorld, hready, w', final, hrun, hfinal, ?_, ?_⟩
  · rw [hmembers "note" (by decide)]
    rfl
  · rw [hentries hallo.key (by decide), entries_insert]
    exact Assoc.get?_set_self _ _ _

/-- A world with a file where the directory of the cache file would be. -/
def blockedWorld : World :=
  { disk := { entries := [(["f"], .file .empty)], workingDirectory := [] } }

/-- Where the disk refuses the file, the live cache has the translation and a fresh one has not. -/
theorem live_ne_fresh_blocked :
    let w' := storeEach "f/c.json" [hallo] blockedWorld
    blockedWorld.cache = none ∧ blockedWorld.disk.isThere "f/c.json" = false ∧
      ((get "f/c.json" "Hello" "en" "de").runIn w').1 = .ok (some hallo.translation) ∧
      ((getFresh "f/c.json" "Hello" "en" "de").runIn w').1 = .ok none := by
  intro w'
  have habsent : blockedWorld.disk.isThere "f/c.json" = false := by decide +kernel
  have habsent' : ({ w' with cache := none } : World).disk.isThere "f/c.json" = false := by
    decide +kernel
  refine ⟨rfl, habsent, ?_, ?_⟩
  · rw [runIn_get (recalls_storeEach rfl habsent _)]
    rfl
  · have hreopen : reopen.runIn w' = (.ok (), { w' with cache := none }) := rfl
    rw [getFresh, runIn_bind_of_ok hreopen, runIn_get (recalls_nil rfl habsent')]
    rfl

end Provider.Cache

end ThemeLocales
