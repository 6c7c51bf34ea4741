import ThemeLocales.Proofs.Project.Atomic
import ThemeLocales.Proofs.Project.Collection
import ThemeLocales.Proofs.Provider.Attempts
import ThemeLocales.Proofs.Provider.Cache

/-!
# The file of a cache

The first access reads the file of a cache, and from then on the cache has the members that the file
holds (`exists_runIn_load`): reading leaves a record at most. A store takes the translation into the
members and then writes all of them, unless the disk refuses the file, which then stays as it was
(`exists_runIn_store`).

What is written is read back as the same members (`holds_of_read`). So where a request had no
translation before, a store that is not refused changes the file (`read_ne_of_lookup`).
-/

set_option autoImplicit false

namespace ThemeLocales.Provider.Cache

open Operation Project

/-! ## What a file holds -/

/-- What is read of the cache file at a path: an empty cache where there is no file or one that
holds no cache. -/
def imageAt (d : Disk) (path : String) : CacheImage :=
  ((d.points? path).bind image?).getD empty

/-- The members that the cache file at a path holds. -/
def membersAt (d : Disk) (path : String) : Members :=
  (imageAt d path).members

/-- Reading a cache file yields what it holds, and leaves a record at most. -/
theorem exists_runIn_readFile (path : String) (w : World) :
    ∃ w₁, LogsTo w w₁ ∧ (readFile path).runIn w = (.ok (imageAt w.disk path), w₁) := by
  have hthere : (isThere path).runIn w = (.ok (w.disk.isThere path), w) := rfl
  rw [readFile, runIn_bind_of_ok hthere]
  cases hpresent : w.disk.isThere path with
  | false =>
    refine ⟨w, .refl w, ?_⟩
    rw [imageAt, Disk.points?_of_not_isThere hpresent]
    rfl
  | true =>
    obtain ⟨result, hattempt, hdocument⟩ := exists_runIn_attempt_readPoints path w
    rw [imageAt, hdocument]
    cases result with
    | error e =>
      -- a file that cannot be read, or is no JSON, holds no members
      exact ⟨_, (LogsTo.refl w).logged ⟨.warning,
        "Could not read translation cache '" ++ path ++ "': " ++ e.message⟩,
        runIn_bind_of_ok hattempt⟩
    | ok d =>
      -- a document depends on its shape alone whether it is taken for a cache
      have himage : ((Except.ok d : Except Failure (Document Text.Points)).toOption.bind
          image?).getD empty = (image? d).getD empty := rfl
      rw [himage]
      cases hread : image? d with
      | some image =>
        refine ⟨w, .refl w, (runIn_bind_of_ok hattempt).trans ?_⟩
        simp only [hread]
        rfl
      | none =>
        refine ⟨_, (LogsTo.refl w).logged ⟨.warning,
          "Ignoring malformed translation cache '" ++ path ++ "'."⟩,
          (runIn_bind_of_ok hattempt).trans ?_⟩
        simp only [hread]
        rfl

/-- What was read from a cache file is what it holds. Before it was read, there is nothing to
compare. -/
def InStep (path : String) (w : World) : Prop :=
  ∀ image, w.cache = some image → image = imageAt w.disk path

/-- The cache has what its file holds, from the first access on. -/
theorem exists_runIn_load {path : String} {w : World} (h : InStep path w) :
    ∃ w₁, LogsTo w w₁ ∧ (load path).runIn w =
      (.ok (imageAt w.disk path), { w₁ with cache := some (imageAt w.disk path) }) := by
  cases hcache : w.cache with
  | some image =>
    have himage := h image hcache
    have hsame : { w with cache := some image } = w := by rw [← hcache]
    refine ⟨w, .refl w, ?_⟩
    rw [← himage, hsame]
    exact runIn_load_of_some hcache
  | none =>
    obtain ⟨w₁, hlogs, hread⟩ := exists_runIn_readFile path w
    exact ⟨w₁, hlogs, runIn_load_of_none hcache hread⟩

/-! ## Storing -/

/-- A file that may not be written cannot be read either. -/
theorem toOption_read_of_refused {d : Disk} {path : String} {bytes : ByteArray}
    {refusal : Disk.Refusal} (h : d.write path bytes = .error refusal) :
    (d.read path).toOption = none := by
  cases hread : d.read path with
  | error e => rfl
  | ok old =>
    obtain ⟨d', hwrite⟩ := Disk.exists_write_of_read hread bytes
    rw [hwrite] at h
    cases h

/-- The end of a store: it has written the members with the translation to the file, or was refused
by the disk and left the file as it was. -/
inductive Ended (path : String) (bytes : ByteArray) (before : Disk) :
    Except Failure Unit → Disk → Prop
  | written {d : Disk} (read : d.read path = .ok bytes) : Ended path bytes before (.ok ()) d
  | refused {d : Disk} (refusal : Disk.Refusal) (denies : Denies d path refusal)
      (same : (d.read path).toOption = (before.read path).toOption) :
      Ended path bytes before (.error (.disk refusal)) d

/-- Writes a file and makes the directory above it. -/
def saveText (path text : String) : Operation Unit := do
  if Path.directory path ≠ "" then makeDirectories (Path.directory path)
  writeText path text

/-- The end of such a write, from any world. -/
theorem exists_runIn_saveText (path text : String) (w : World) :
    ∃ result d, (saveText path text).runIn w = (result, { w with disk := d }) ∧
      Ended path text.toUTF8 w.disk result d := by
  have hwritten := runIn_changeDisk fun d => d.write path text.toUTF8
  by_cases hdirectory : Path.directory path = ""
  · rw [saveText, if_neg (not_not.2 hdirectory), writeText, hwritten]
    cases hwrite : w.disk.write path text.toUTF8 with
    | ok d => exact ⟨_, d, rfl, .written (Disk.read_write hwrite)⟩
    | error refusal => exact ⟨_, w.disk, rfl, .refused refusal (.inr ⟨_, hwrite⟩) rfl⟩
  · have hmade := runIn_changeDisk (fun d => d.makeDirectories (Path.directory path)) w
    rw [saveText, if_pos hdirectory]
    cases hmake : w.disk.makeDirectories (Path.directory path) with
    | error refusal =>
      rw [hmake] at hmade
      refine ⟨_, w.disk, runIn_bind_of_error hmade, ?_⟩
      exact .refused refusal (.inl ⟨hdirectory, hmake⟩) rfl
    | ok d =>
      rw [hmake] at hmade
      have hkeeps := Disk.keeps_makeDirectories hmake
      cases hwrite : d.write path text.toUTF8 with
      | ok d' =>
        refine ⟨_, d', (runIn_bind_of_ok hmade).trans ((hwritten _).trans ?_),
          .written (Disk.read_write hwrite)⟩
        simp only [hwrite]
      | error refusal =>
        refine ⟨_, d, (runIn_bind_of_ok hmade).trans ((hwritten _).trans ?_),
          .refused refusal (.inr ⟨_, hwrite⟩) ?_⟩
        · simp only [hwrite]
        · -- there was no file to be read, before the directories were made as well as after that
          have hnone := toOption_read_of_refused hwrite
          rw [hnone]
          cases hread : w.disk.read path with
          | error e => rfl
          | ok old =>
            rw [hkeeps.read trivial hread] at hnone
            cases hnone

/-- A store takes a translation that has a text into the members that were read, and saves them, if
no surrogate stands alone there. -/
theorem runIn_store_of_load {path : String} {t : Translation} {w w₁ : World} {members : Members}
    (hload : (load path).runIn w = (.ok ⟨members, true⟩, w₁))
    (ht : t.translatedText.isPresent = true) : (store path t).runIn w =
      (saveText path (Json.indented (.map (insert members t)))).runIn
        { w₁ with cache := some ⟨insert members t, true⟩ } := by
  rw [store, if_neg (by simp [ht]), runIn_bind_of_ok hload, saveText]
  exact runIn_modify_bind _ _ w₁

/-- A store takes a translation that has a text into the members, whatever the disk then does. -/
theorem exists_runIn_store {path : String} {t : Translation} {w : World} {members : Members}
    (hcache : w.cache = some ⟨members, true⟩) (ht : t.translatedText.isPresent = true) :
    ∃ result d, (store path t).runIn w =
        (result, { w with cache := some ⟨insert members t, true⟩, disk := d }) ∧
      Ended path (Json.indented (.map (insert members t))).toUTF8 w.disk result d := by
  rw [runIn_store_of_load (runIn_load_of_some hcache) ht]
  exact exists_runIn_saveText path _ _

/-! ## What a store changes -/

/-- The entry of a translation can be written and read back. -/
theorem storable_toDocument (r : Stored) : r.translation.toDocument.Storable := by
  have hkeys : (["source_lang", "target_lang", "source_text", "translated_text"] :
      List String).Nodup := by decide
  refine Document.storable_map_iff.2 ⟨hkeys, fun e he => ?_⟩
  simp only [List.mem_cons, List.not_mem_nil, or_false] at he
  rcases he with rfl | rfl | rfl | rfl <;> exact Document.storable_string _

/-- So can all members that a file holds. -/
theorem storable_membersAt (d : Disk) (path : String) :
    (Document.map (membersAt d path)).Storable := by
  have hempty : (Document.map empty.members).Storable := by
    refine Document.storable_map_iff.2 ⟨by decide, fun e he => ?_⟩
    obtain rfl := List.mem_singleton.1 he
    exact Document.storable_map_iff.2 ⟨List.nodup_nil, by simp⟩
  rw [membersAt, imageAt]
  cases hdocument : d.points? path with
  | none => exact hempty
  | some doc =>
    have hdoc := (Disk.storable_points? hdocument).legible
    rw [Option.bind_some]
    unfold image? members?
    split
    · next es hes =>
      rw [hes] at hdoc
      split
      · exact hdoc
      · exact hempty
    · exact hempty

theorem storable_insert {members : Members} (h : (Document.map members).Storable) (r : Stored) :
    (Document.map (insert members r.translation)).Storable := by
  have hentries : (Document.map (entries members)).Storable := by
    have hnil : (.map [] : Document).Storable :=
      Document.storable_map_iff.2 ⟨List.nodup_nil, by simp⟩
    rw [entries]
    cases hcache : Assoc.get? "cache" members with
    | none => exact hnil
    | some d =>
      have hd := (Document.storable_map_iff.1 h).2 _ (Assoc.mem_of_get? hcache)
      cases d with
      | map es => exact hd
      | _ => exact hnil
  exact Document.storable_map_set h
    (Document.storable_map_set hentries (storable_toDocument r) _) "cache"

theorem entries_insert (members : Members) (r : Stored) :
    entries (insert members r.translation) =
      Assoc.set r.key r.translation.toDocument (entries members) := by
  rw [entries, insert, Assoc.get?_set_self]
  rfl

/-- The cache file at a path holds valid members. -/
def Holds (d : Disk) (path : String) (members : Members) : Prop :=
  (d.document? path).bind members? = some members

theorem imageAt_of_holds {d : Disk} {path : String} {members : Members}
    (h : Holds d path members) : imageAt d path = ⟨members, true⟩ := by
  obtain ⟨doc, hdoc, hmembers⟩ := Option.bind_eq_some_iff.1 h
  obtain ⟨wide, hwide, hpaired, rfl⟩ := Disk.document?_eq_some_iff.1 hdoc
  rw [imageAt, hwide, Option.bind_some, image?, hmembers, hpaired]
  rfl

theorem membersAt_of_holds {d : Disk} {path : String} {members : Members}
    (h : Holds d path members) : membersAt d path = members := by
  rw [membersAt, imageAt_of_holds h]

/-- A file with the members after a store holds them. -/
theorem holds_of_read {d : Disk} {path : String} {members : Members} {r : Stored}
    (h : (Document.map members).Storable)
    (hread : d.read path = .ok (Json.indented (.map (insert members r.translation))).toUTF8) :
    Holds d path (insert members r.translation) := by
  have hstorable := storable_insert h r
  have hdocument : d.document? path = some (.map (insert members r.translation)) := by
    rw [Disk.document?_of_read hread]
    exact Disk.ofBytes?_of_parse (Json.readText_toUTF8 (Json.not_mem_indented hstorable))
      (Json.parse_indented_map hstorable)
  have hcache : Assoc.get? "cache" (insert members r.translation) =
      some (.map (entries (insert members r.translation))) := by
    rw [entries_insert, insert, Assoc.get?_set_self]
    rfl
  rw [Holds, hdocument, Option.bind_some, members?]
  simp only [hcache]

/-- A translation that the members have taken is found there. -/
theorem lookup_insert (members : Members) {r : Stored} (hr : r.translated ≠ "") :
    lookup (insert members r.translation) r.text r.source r.target =
      .ok (some r.translation) := by
  have hfound : Assoc.get? (key r.text r.source r.target)
      (Assoc.set r.key r.translation.toDocument (entries members)) =
        some r.translation.toDocument := Assoc.get?_set_self _ _ _
  rw [lookup, entries_insert, hfound]
  exact entryTranslation_toDocument hr

/-- A file that has no translation for a request is not what it is after one was stored. -/
theorem read_ne_of_lookup {d : Disk} {path : String} {r : Stored} (hr : r.translated ≠ "")
    (h : lookup (membersAt d path) r.text r.source r.target = .ok none) :
    (d.read path).toOption ≠
      some (Json.indented (.map (insert (membersAt d path) r.translation))).toUTF8 := by
  intro hsome
  have hread : d.read path =
      .ok (Json.indented (.map (insert (membersAt d path) r.translation))).toUTF8 := by
    cases hfile : d.read path with
    | error e =>
      rw [hfile] at hsome
      cases hsome
    | ok bytes =>
      rw [hfile] at hsome
      exact congrArg Except.ok (Option.some.inj hsome)
  have hmembers := membersAt_of_holds (holds_of_read (storable_membersAt d path) hread)
  rw [hmembers, lookup_insert _ hr] at h
  cases h

end ThemeLocales.Provider.Cache
