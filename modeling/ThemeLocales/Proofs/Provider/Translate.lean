import ThemeLocales.Proofs.Provider.CacheFile
import ThemeLocales.Proofs.Provider.Verdict

/-!
# Translating a text

A text for which nothing is cached is attempted, and the outcome of the attempts depends on what the
client of the requests makes of them (`makes_translate`).

From this follow the two results about a whole translation. `translate_retries` says how many
requests it makes, how long it waits between them, what it returns and what becomes of the file of
the cache, provided that all outcomes can be read. `expected_translate_iff` says for arbitrary
outcomes when a translation without a cache ends as those who call a provider can expect. In both,
no more than 1025 attempts are made; the delay after the last of these would not be a double
(`exists_runIn_translate_overflow`).
-/

set_option autoImplicit false

namespace ThemeLocales.Provider

open Operation Project

namespace Baidu

/-! ## From a text to the attempts -/

/-- A task for which requests are made: it has a text, and the codes are those that a map has for
its languages. -/
structure Task.Sends (t : Task) (map : LanguageMap) : Prop where
  text : t.text ≠ ""
  source : resolveLanguage (if map.isEmpty then languageCodes else map) t.source = .ok t.fromCode
  target : resolveLanguage (if map.isEmpty then languageCodes else map) t.target = .ok t.toCode

/-- The cache of a client, if it has one, has nothing for a task. It is in step with its file, where
no surrogate stands alone, and no record is written there. -/
structure Uncached (b : Baidu) (t : Task) (w : World) : Prop where
  inStep : ∀ path, b.cacheFile = some path → Cache.InStep path w
  paired : ∀ path, b.cacheFile = some path → (Cache.imageAt w.disk path).isPaired = true
  apart : ∀ path, b.cacheFile = some path → w.Apart (· = w.disk.placeOf path)
  absent : ∀ path, b.cacheFile = some path →
    Cache.lookup (Cache.membersAt w.disk path) t.text t.source t.target = .ok none

/-- The world with the cache of a client, if it has one, as its file holds it. -/
def opened (b : Baidu) (w : World) : World :=
  { w with cache := (b.cacheFile.map (Cache.imageAt w.disk)).or w.cache }

/-- The outcomes that the attempts of a client at a task can take. -/
def script (b : Baidu) (t : Task) (w : World) : List WebOutcome :=
  b.outcomesUpTo t w b.maxRetries.toNat

section Run

variable {b : Baidu} {t : Task} {map : LanguageMap} {w : World}

/-- Nothing is found in the cache, and it is open afterwards. -/
theorem exists_runIn_cached (h : b.Uncached t w) : ∃ w₁, LogsTo (b.opened w) w₁ ∧
    (b.cached t.text t.source t.target).runIn w = (.ok none, w₁) := by
  rw [cached, opened]
  cases hcache : b.cacheFile with
  | none => exact ⟨w, .refl w, rfl⟩
  | some path =>
    obtain ⟨w₁, hlogs, hload⟩ := Cache.exists_runIn_load (h.inStep path hcache)
    let image := Cache.imageAt w.disk path
    refine ⟨{ w₁ with cache := some image }, ?_, ?_⟩
    · exact hlogs.map (f := fun v => { v with cache := some image }) fun _ _ => rfl
    · simp only [Cache.get]
      rw [runIn_bind_of_ok hload, ← Cache.membersAt, h.absent path hcache]
      rfl

/-- A text that is not cached is attempted, with the cache at hand. -/
theorem exists_runIn_translate (ht : t.Sends map) (hcache : b.Uncached t w) :
    ∃ w₁, LogsTo (b.opened w) w₁ ∧ (b.translate t.text t.source t.target map).runIn w =
      (b.attempts t b.maxRetries.toNat 1).runIn w₁ := by
  obtain ⟨w₁, hopened, hcached⟩ := exists_runIn_cached hcache
  refine ⟨w₁, hopened, ?_⟩
  rw [translate, runIn_bind_of_ok hcached]
  simp only [ht.text, if_false]
  rw [runIn_ofResult_bind ht.source, runIn_ofResult_bind ht.target]

/-- How many attempts are made at a text that is not cached, and how they conclude. -/
theorem makes_translate (ht : t.Sends map) (hcache : b.Uncached t w) :
    b.Makes t 0 (min (asked (b.script t w)) 1025)
      (if asked (b.script t w) ≤ 1025 then finalVerdict (b.script t w) else .failed .overflow)
      (b.opened w) ((b.translate t.text t.source t.target map).runIn w) := by
  obtain ⟨w₁, hopened, hrun⟩ := exists_runIn_translate ht hcache
  have hscript : b.outcomesUpTo t w₁ b.maxRetries.toNat = b.script t w :=
    outcomesUpTo_of_sameServices hopened.sameServices _
  have hmakes := makes_attempts (k := 0) (b := b) (t := t) (w := w₁) (Nat.zero_le _)
    (Nat.zero_add _)
  rw [hscript] at hmakes
  rw [hrun]
  exact hmakes.of_logsTo hopened

/-- Attempts that would be more than 1025 fail before the next one. -/
theorem exists_runIn_translate_overflow (ht : t.Sends map) (hcache : b.Uncached t w)
    (h : 1025 < asked (b.script t w)) :
    ∃ w₁, (b.translate t.text t.source t.target map).runIn w = (.error .overflow, w₁) ∧
      w₁.webCalls = w.webCalls ++ b.callsUpTo t w 1025 := by
  have hmakes := makes_translate ht hcache
  rw [if_neg (not_le.2 h), min_eq_right h.le] at hmakes
  obtain ⟨w₁, hlogs, hconcludes⟩ := hmakes
  generalize (b.translate t.text t.source t.target map).runIn w = result at hconcludes ⊢
  cases hconcludes with
  | failed => exact ⟨w₁, rfl, hlogs.sameServices.calls⟩

/-! ## The file of the cache -/

/-- A file of the cache, if there is one, reads the same on two disks. -/
def SameFile (b : Baidu) (d d' : Disk) : Prop :=
  ∀ path, b.cacheFile = some path → (d'.read path).toOption = (d.read path).toOption

/-- The disk lets no file of the cache be written. -/
def Denied (b : Baidu) (d : Disk) (refusal : Disk.Refusal) : Prop :=
  ∃ path, b.cacheFile = some path ∧ Denies d path refusal

/-- The file of the cache is as it was before the translation is kept. -/
theorem Uncached.sameFile {calls : List WebCall} {delays : List Document} {w₁ : World}
    (h : b.Uncached t w) (hlogs : LogsTo ((b.opened w).exchanged calls delays) w₁) :
    b.SameFile w.disk w₁.disk := by
  intro path hpath
  exact hlogs.toOption_read (h.apart path hpath)

/-- What is kept when a task has some translation. -/
def Task.stored (t : Task) (s : String) : Cache.Stored :=
  ⟨t.source, t.target, t.text, s⟩

/-- A translation that is kept goes into the members that the file of the cache had, and these are
written to the file, unless the disk refuses it. -/
theorem exists_runIn_keep_of_file {s : String} (hs : s ≠ "") (h : b.Uncached t w) {path : String}
    (hpath : b.cacheFile = some path) {calls : List WebCall} {delays : List Document}
    {w₁ : World} (hlogs : LogsTo ((b.opened w).exchanged calls delays) w₁) :
    ∃ result d, (b.keep t (.string s)).runIn w₁ =
        (result.map fun _ => (t.stored s).translation, { w₁ with
          cache := some ⟨Cache.insert (Cache.membersAt w.disk path) (t.stored s).translation, true⟩
          disk := d }) ∧
      Cache.Ended path (Json.indented
        (.map (Cache.insert (Cache.membersAt w.disk path) (t.stored s).translation))).toUTF8
        w₁.disk result d := by
  -- the cache is in step with its file, which no record was written to since it was read
  have himage : w₁.cache = some ⟨Cache.membersAt w.disk path, true⟩ := by
    rw [← h.paired path hpath, hlogs.sameServices.cache, World.exchanged, opened, hpath]
    rfl
  have hpresent : (t.stored s).translation.translatedText.isPresent = true := decide_eq_true hs
  obtain ⟨result, d, hstore, hended⟩ := Cache.exists_runIn_store himage hpresent
  refine ⟨result, d, ?_, hended⟩
  rw [keep, hpath]
  cases result with
  | ok => exact runIn_bind_of_ok hstore
  | error e => exact runIn_bind_of_error hstore

/-- Keeping a translation changes the file of the cache, unless the disk denies it. -/
theorem exists_runIn_keep {s : String} (hs : s ≠ "") {calls : List WebCall}
    {delays : List Document} {w₁ : World} (h : b.Uncached t w)
    (hlogs : LogsTo ((b.opened w).exchanged calls delays) w₁) :
    ∃ outcome w₂, (b.keep t (.string s)).runIn w₁ = (outcome, w₂) ∧
      w₂.webCalls = w₁.webCalls ∧ w₂.sleeps = w₁.sleeps ∧
      ((outcome = .ok (.ofText t.source t.target t.text (.string s)) ∧
          ∀ path, b.cacheFile = some path →
            (w₂.disk.read path).toOption ≠ (w.disk.read path).toOption) ∨
        ∃ refusal, outcome = .error (.disk refusal) ∧ b.Denied w₂.disk refusal ∧
          b.SameFile w.disk w₂.disk) := by
  cases hcache : b.cacheFile with
  | none =>
    rw [keep, hcache]
    refine ⟨_, w₁, rfl, rfl, rfl, .inl ⟨rfl, ?_⟩⟩
    intro path hpath
    cases hpath
  | some path =>
    have hsame := h.sameFile hlogs path hcache
    obtain ⟨result, d, hkeep, hended⟩ := exists_runIn_keep_of_file hs h hcache hlogs
    refine ⟨_, _, hkeep, rfl, rfl, ?_⟩
    cases hended with
    | written hread =>
      -- the file has an entry now that it did not have
      refine .inl ⟨rfl, ?_⟩
      intro other hother hboth
      obtain rfl := Option.some.inj hother
      rw [hread] at hboth
      exact Cache.read_ne_of_lookup (r := t.stored s) hs (h.absent path hcache) hboth.symm
    | refused refusal hdenies hafter =>
      refine .inr ⟨refusal, rfl, ⟨path, hcache, hdenies⟩, ?_⟩
      intro other hother
      obtain rfl := Option.some.inj (hcache.symm.trans hother)
      exact hafter.trans hsame

/-! ## The retry protocol -/

/-- With a sound verdict, the attempts end with a text that is kept, or with an error that says that
there is none. -/
theorem Concludes.ends {v : Verdict} {w₁ w₂ : World} {outcome : Except Failure Translation}
    (h : Concludes b t v w₁ (outcome, w₂)) (hv : v.isSound = true) :
    (v.text? = none ∧ ∃ message, outcome = .error (.translation message) ∧ w₂ = w₁) ∨
      ∃ s, s ≠ "" ∧ v.text? = some s ∧ (b.keep t (.string s)).runIn w₁ = (outcome, w₂) := by
  generalize hresult : (outcome, w₂) = result at h
  cases h with
  | exhausted message =>
    obtain ⟨rfl, rfl⟩ := Prod.mk.inj hresult
    exact .inl ⟨rfl, message, rfl, rfl⟩
  | refused message =>
    obtain ⟨rfl, rfl⟩ := Prod.mk.inj hresult
    exact .inl ⟨rfl, message, rfl, rfl⟩
  | failed e =>
    obtain ⟨rfl, rfl⟩ := Prod.mk.inj hresult
    obtain ⟨message, rfl⟩ := Verdict.isSound_failed_iff.1 hv
    exact .inl ⟨rfl, message, rfl, rfl⟩
  | kept d =>
    obtain ⟨s, hs, rfl⟩ := Verdict.isSound_translated_iff.1 hv
    exact .inr ⟨s, hs, rfl, rfl⟩

/-- The outcomes that are asked for, by the attempts that a client makes. -/
theorem asked_script (b : Baidu) (t : Task) (w : World) : asked (b.script t w) =
    min b.maxRetries.toNat ((b.script t w).findIdx (fun o => !isTransient o) + 1) := by
  rw [asked, script, length_outcomesUpTo]

/-- When all outcomes can be read, the verdict that ends the attempts is sound. -/
theorem isSound_finalVerdict_script (h : ∀ o ∈ b.script t w, IsReadable o) :
    (finalVerdict (b.script t w)).isSound = true := by
  rw [isSound_finalVerdict_iff]
  intro o ho
  exact h o (List.mem_of_find?_eq_some ho)

/-- The delays double from one second on, and each has its jitter on top. -/
theorem exists_delay (w : World) {count i : ℕ} (hi : i < (delaysFrom w 0 count).length) :
    ∃ x : Binary64, (delaysFrom w 0 count)[i] =
      .real (x.add (w.jitter.draw (w.sleeps.length + i))) ∧ x.toRat? = some (2 ^ i) := by
  refine ⟨.twoTo i, ?_, Binary64.toRat?_twoTo i⟩
  simp only [delaysFrom, List.getElem_map, List.getElem_range, Nat.zero_add, Retry.delay]

theorem length_delaysFrom (w : World) (k count : ℕ) : (delaysFrom w k count).length = count := by
  rw [delaysFrom, List.length_map, List.length_range]

/-- Of `n` attempts at a text that is not cached, as many are made as there are outcomes up to the
first, in place `j`, that is not transient. Each sends the request for the task, with a salt of its
own, and between two of them a delay is waited, which doubles from one second on and has a jitter of
its own on top. A translation is returned when the last outcome has one, and otherwise there is an
error that says that there is none. The file of the cache changes just when a translation is
returned; the disk may also deny it, which is an error of its own. -/
theorem translate_retries {n j : ℕ} (hn : n = b.maxRetries.toNat)
    (hj : j = (b.script t w).findIdx (fun o => !isTransient o) + 1) (ht : t.Sends map)
    (hcache : b.Uncached t w) (houtcomes : ∀ o ∈ b.script t w, IsReadable o)
    (hdelays : min n j ≤ 1025) :
    ∃ outcome w₁, (b.translate t.text t.source t.target map).runIn w = (outcome, w₁) ∧
      w₁.webCalls = w.webCalls ++ b.callsUpTo t w (min n j) ∧
      (∃ delays, w₁.sleeps = w.sleeps ++ delays ∧ delays.length = min n j - 1 ∧
        ∀ (i : ℕ) (hi : i < delays.length), ∃ x : Binary64,
          delays[i] = .real (x.add (w.jitter.draw (w.sleeps.length + i))) ∧
          x.toRat? = some (2 ^ i)) ∧
      (∀ s, (finalVerdict (b.script t w)).text? = some s →
        outcome = .ok (.ofText t.source t.target t.text (.string s)) ∨
          ∃ refusal, outcome = .error (.disk refusal) ∧ b.Denied w₁.disk refusal) ∧
      ((finalVerdict (b.script t w)).text? = none →
        ∃ message, outcome = .error (.translation message)) ∧
      ∀ path, b.cacheFile = some path →
        ((w₁.disk.read path).toOption ≠ (w.disk.read path).toOption ↔
          ∃ result, outcome = .ok result) := by
  -- The number of attempts and the script decide together how many outcomes are asked for.
  have hasked : asked (b.script t w) = min n j := by rw [asked_script, hn, hj]
  have hmakes := makes_translate ht hcache
  rw [hasked, if_pos hdelays, min_eq_left hdelays] at hmakes
  obtain ⟨w₁, hlogs, hconcludes⟩ := hmakes
  have hservices := hlogs.sameServices
  have hcalls : w₁.webCalls = w.webCalls ++ b.callsUpTo t w (min n j) := hservices.calls
  have hsleeps : w₁.sleeps = w.sleeps ++ delaysFrom w 0 (min n j - 1) := hservices.sleeps
  have hlength := length_delaysFrom w 0 (min n j - 1)
  rcases hrun : (b.translate t.text t.source t.target map).runIn w with ⟨outcome, w₂⟩
  rw [hrun] at hconcludes
  -- The rest depends on the verdict on the last outcome only.
  rcases hconcludes.ends (isSound_finalVerdict_script houtcomes) with
    ⟨hnone, message, rfl, rfl⟩ | ⟨s, hs, hsome, hkeep⟩
  · -- there is no translation, and nothing is stored
    refine ⟨_, w₂, rfl, hcalls, ⟨_, hsleeps, hlength, fun _ hi => exists_delay w hi⟩, ?_, ?_, ?_⟩
    · intro s hsome
      rw [hnone] at hsome
      cases hsome
    · intro _
      exact ⟨message, rfl⟩
    · intro path hpath
      refine iff_of_false (not_not_intro (hcache.sameFile hlogs path hpath)) ?_
      rintro ⟨result, hresult⟩
      cases hresult
  · -- there is one, and storing it decides between the translation and a refusal of the disk
    obtain ⟨outcome', w₂', hkeep', hcalls', hsleeps', hended⟩ := exists_runIn_keep hs hcache hlogs
    obtain ⟨rfl, rfl⟩ := Prod.mk.inj (hkeep.symm.trans hkeep')
    refine ⟨_, w₂, rfl, hcalls'.trans hcalls,
      ⟨_, hsleeps'.trans hsleeps, hlength, fun _ hi => exists_delay w hi⟩, ?_, ?_, ?_⟩
    · intro s' hsome'
      obtain rfl := Option.some.inj (hsome.symm.trans hsome')
      rcases hended with ⟨hok, -⟩ | ⟨refusal, hrefused, hdenied, -⟩
      · exact .inl hok
      · exact .inr ⟨refusal, hrefused, hdenied⟩
    · intro hnone
      rw [hsome] at hnone
      cases hnone
    · intro path hpath
      rcases hended with ⟨hok, hchanged⟩ | ⟨refusal, rfl, -, hsame⟩
      · exact iff_of_true (hchanged path hpath) ⟨_, hok⟩
      · refine iff_of_false (not_not_intro (hsame path hpath)) ?_
        rintro ⟨result, hresult⟩
        cases hresult

/-! ### Clients with some attempts, and a few outcomes -/

/-- A client of the service that makes up to so many attempts. -/
def client (maxRetries : ℤ) (cacheFile : Option String) : Baidu :=
  { appid := "shop", secretKey := "key", url := .string defaultUrl, requestsPerSecond := .half
    maxRetries := maxRetries, timeout := .ofRatio false 30 1, cacheFile := cacheFile }

/-- A text to be translated from English into French. -/
def english (text : String) : Task :=
  ⟨text, "en", "fr", "en", "fra"⟩

/-- The outcome of a request that finds no connection. -/
def unconnected : WebOutcome :=
  .failed "ConnectError" "All connection attempts failed"

/-- A world without files, in which the first requests have some outcomes. Those after them find no
connection. -/
def answering (outcomes : List WebOutcome) : World :=
  { Cache.blankWorld with
    webClient := fun earlier _ => (outcomes[earlier.length]?).getD unconnected }

/-- An answer with results. -/
def withResults (results : Document) : WebOutcome :=
  .data (.map [("trans_result", results)])

/-- An answer that asks for patience. -/
def busy : WebOutcome :=
  .data (.map [("error_code", .string "54003"), ("error_msg", .string "Invalid Access Limit")])

/-- An answer with a translation. -/
def bonjour : WebOutcome :=
  withResults (.list [.map [("src", .string "Hello"), ("dst", .string "Bonjour")]])

theorem verdict_busy : verdict busy = .transient :=
  isTransient_iff.1 (by decide +kernel)

theorem verdict_bonjour : verdict bonjour = .translated (.string "Bonjour") :=
  Verdict.eq_translated_of_text? (by decide +kernel)

theorem sends_english {text : String} (h : text ≠ "") : (english text).Sends [] :=
  have hsource : resolveLanguage languageCodes "en" = .ok "en" := by decide +kernel
  have htarget : resolveLanguage languageCodes "fr" = .ok "fra" := by decide +kernel
  ⟨h, hsource, htarget⟩

theorem uncached_answering (text : String) (maxRetries : ℤ) (outcomes : List WebOutcome) :
    (client maxRetries (some "c.json")).Uncached (english text) (answering outcomes) := by
  have hempty : Cache.imageAt (answering outcomes).disk "c.json" = Cache.empty := by
    have habsent : (answering outcomes).disk.isThere "c.json" = false :=
      (by decide +kernel : Cache.blankWorld.disk.isThere "c.json" = false)
    rw [Cache.imageAt, Disk.points?_of_not_isThere habsent]
    rfl
  refine ⟨fun path _ image himage => ?_, fun path hpath => ?_, fun path _ file hfile => ?_,
    fun path hpath => ?_⟩
  · cases himage
  · obtain rfl := Option.some.inj hpath
    rw [hempty]
    rfl
  · cases hfile
  · obtain rfl := Option.some.inj hpath
    rw [Cache.membersAt, hempty]
    rfl

/-- The outcomes of three attempts, of which two are given. -/
theorem script_busy_bonjour (cacheFile : Option String) (t : Task) :
    (client 3 cacheFile).script t (answering [busy, bonjour]) = [busy, bonjour, unconnected] := rfl

theorem findIdx_busy_bonjour (rest : List WebOutcome) :
    (busy :: bonjour :: rest).findIdx (fun o => !isTransient o) = 1 := by
  simp [List.findIdx_cons, isTransient, verdict_busy, verdict_bonjour]

theorem finalVerdict_busy_bonjour (rest : List WebOutcome) :
    finalVerdict (busy :: bonjour :: rest) = .translated (.string "Bonjour") := by
  simp [finalVerdict, isTransient, verdict_busy, verdict_bonjour]

/-- After an answer that asks for patience, the translation in the next one is returned. -/
theorem translate_retries_hello : ∃ outcome w₁,
    ((client 3 (some "c.json")).translate "Hello" "en" "fr" []).runIn (answering [busy, bonjour]) =
      (outcome, w₁) ∧ w₁.webCalls.length = 2 ∧ w₁.sleeps.length = 1 ∧
      (outcome = .ok (.ofText "en" "fr" "Hello" (.string "Bonjour")) ∨
        ∃ refusal, outcome = .error (.disk refusal) ∧
          (client 3 (some "c.json")).Denied w₁.disk refusal) := by
  have hscript := script_busy_bonjour (some "c.json") (english "Hello")
  have hj : 2 = ((client 3 (some "c.json")).script (english "Hello")
      (answering [busy, bonjour])).findIdx (fun o => !isTransient o) + 1 := by
    rw [hscript, findIdx_busy_bonjour]
  -- all outcomes can be read: the first says to wait, the second translates
  have houtcomes : ∀ o ∈ (client 3 (some "c.json")).script (english "Hello")
      (answering [busy, bonjour]), IsReadable o := by
    rw [hscript]
    intro o ho
    rw [← isSound_verdict_iff]
    simp only [List.mem_cons, List.not_mem_nil, or_false] at ho
    rcases ho with rfl | rfl | rfl
    · rw [verdict_busy]
      rfl
    · rw [verdict_bonjour]
      rfl
    · rfl
  obtain ⟨outcome, w₁, hrun, hcalls, ⟨delays, hsleeps, hlength, -⟩, hreturned, -, -⟩ :=
    translate_retries (n := 3) (j := 2) rfl hj (sends_english (by decide))
      (uncached_answering "Hello" 3 [busy, bonjour]) houtcomes (by decide)
  refine ⟨outcome, w₁, hrun, ?_, ?_, hreturned "Bonjour" ?_⟩
  · rw [hcalls]
    rfl
  · rw [hsleeps, List.length_append, hlength]
    rfl
  · rw [hscript, finalVerdict_busy_bonjour]
    rfl

theorem asked_of_transient {outcomes : List WebOutcome}
    (h : ∀ o ∈ outcomes, isTransient o = true) : asked outcomes = outcomes.length := by
  induction outcomes with
  | nil => rfl
  | cons o rest ih =>
    rw [asked_cons_of_transient (h o List.mem_cons_self), List.length_cons,
      ih fun o ho => h o (List.mem_cons_of_mem _ ho)]

/-- When no request finds a connection, 1026 attempts end after 1025 requests with a failure that
does not say that there is no translation. -/
theorem translate_overflows : (∀ o ∈ (client 1026 (some "c.json")).script (english "Hello")
      (answering []), verdict o = .transient) ∧
    ∃ w₁, ((client 1026 (some "c.json")).translate "Hello" "en" "fr" []).runIn (answering []) =
      (.error .overflow, w₁) ∧ w₁.webCalls.length = 1025 := by
  have htransient : ∀ o ∈ (client 1026 (some "c.json")).script (english "Hello") (answering []),
      verdict o = .transient := by
    intro o ho
    obtain ⟨i, -, rfl⟩ := List.mem_map.1 ho
    rfl
  have hasked : 1025 < asked ((client 1026 (some "c.json")).script (english "Hello")
      (answering [])) := by
    rw [asked_of_transient fun o ho => isTransient_iff.2 (htransient o ho), script,
      length_outcomesUpTo]
    decide
  obtain ⟨w₁, hrun, hcalls⟩ := exists_runIn_translate_overflow (sends_english (by decide))
    (uncached_answering "Hello" 1026 []) hasked
  refine ⟨htransient, w₁, hrun, ?_⟩
  rw [hcalls, List.length_append, callsUpTo, List.length_map, List.length_range]
  rfl

/-! ## Outcomes -/

/-- An outcome that those who call a provider can expect: a translation that is a text, or an error
that says that there is none. -/
def Expected : Except Failure Translation → Prop
  | .ok result => ∃ s, s ≠ "" ∧ result.translatedText = .string s
  | .error e => ∃ message, e = .translation message

/-- Without a cache, an outcome can be expected when the verdict is sound. -/
theorem Concludes.expected_iff {v : Verdict} {w₁ : World}
    {result : Except Failure Translation × World} (h : Concludes b t v w₁ result)
    (hcache : b.cacheFile = none) : Expected result.1 ↔ v.isSound = true := by
  cases h with
  | exhausted message => exact iff_of_true ⟨message, rfl⟩ rfl
  | refused message => exact iff_of_true ⟨message, rfl⟩ rfl
  | failed e => exact Verdict.isSound_failed_iff.symm
  | kept d =>
    rw [keep, hcache]
    exact Verdict.isSound_translated_iff.symm

/-- Without a cache nothing is cached. -/
theorem uncached_of_no_file (hcache : b.cacheFile = none) : b.Uncached t w := by
  constructor <;>
  · intro path hpath
    rw [hcache] at hpath
    cases hpath

/-- Without a cache, the translation of a text ends with another text, or with an error that says
that there is none, just when no more than 1025 outcomes are asked for and the one that ends the
attempts, if there is one, can be read. -/
theorem expected_translate_iff (hcache : b.cacheFile = none) (ht : t.Sends map) :
    Expected ((b.translate t.text t.source t.target map).runIn w).1 ↔
      asked (b.script t w) ≤ 1025 ∧
        ∀ o, (b.script t w).find? (fun o => !isTransient o) = some o → IsReadable o := by
  obtain ⟨w₁, -, hconcludes⟩ := makes_translate ht (uncached_of_no_file hcache)
  rw [hconcludes.expected_iff hcache, ← isSound_finalVerdict_iff]
  by_cases hdelays : asked (b.script t w) ≤ 1025
  · rw [if_pos hdelays]
    exact ⟨fun h => ⟨hdelays, h⟩, fun h => h.2⟩
  · -- the delay after attempt 1025 fails the translation, whatever the outcomes after it are
    rw [if_neg hdelays]
    exact iff_of_false Bool.false_ne_true fun h => hdelays h.1

theorem asked_script_le (cacheFile : Option String) (t : Task) (w : World) :
    asked ((client 3 cacheFile).script t w) ≤ 1025 := by
  rw [asked_script]
  have hthree : (client 3 cacheFile).maxRetries.toNat = 3 := rfl
  omega

/-- After an answer that asks for patience, the next one can be read. -/
theorem expected_translate_hello :
    Expected (((client 3 none).translate "Hello" "en" "fr" []).runIn
      (answering [busy, bonjour])).1 := by
  refine (expected_translate_iff (t := english "Hello") rfl (sends_english (by decide))).2
    ⟨asked_script_le none _ _, ?_⟩
  rw [← isSound_finalVerdict_iff, script_busy_bonjour, finalVerdict_busy_bonjour]
  rfl

/-- An outcome that cannot be read leads to one that cannot be expected. -/
theorem not_expected_of_unsound {o : WebOutcome} (h : (verdict o).isSound = false) :
    ¬Expected (((client 3 none).translate "Hello" "en" "fr" []).runIn (answering [o])).1 := by
  have hsettled : isTransient o = false := by
    rw [← Bool.not_eq_true, isTransient_iff]
    intro htransient
    rw [htransient] at h
    cases h
  obtain ⟨w₁, -, hconcludes⟩ := makes_translate (t := english "Hello") (w := answering [o])
    (sends_english (by decide)) (uncached_of_no_file (b := client 3 none) rfl)
  have hfinal : finalVerdict ((client 3 none).script (english "Hello") (answering [o])) =
      verdict o := finalVerdict_cons_of_not_transient hsettled _
  rw [if_pos (asked_script_le none _ _), hfinal] at hconcludes
  intro hexpected
  have hsound := (hconcludes.expected_iff rfl).1 hexpected
  rw [h] at hsound
  cases hsound

/-- Results whose translation is a number, those that are an object and those that are a list of
texts lead neither to a translation that is a text nor to an error that says that there is none. -/
theorem not_expected_translate_hello :
    ¬Expected (((client 3 none).translate "Hello" "en" "fr" []).runIn
      (answering [withResults (.list [.map [("dst", .int 5)]])])).1 ∧
    ¬Expected (((client 3 none).translate "Hello" "en" "fr" []).runIn
      (answering [withResults (.map [("dst", .string "Bonjour")])])).1 ∧
    ¬Expected (((client 3 none).translate "Hello" "en" "fr" []).runIn
      (answering [withResults (.list [.string "Bonjour"])])).1 :=
  ⟨not_expected_of_unsound (by decide +kernel), not_expected_of_unsound (by decide +kernel),
    not_expected_of_unsound (by decide +kernel)⟩

end Run

end Baidu

end ThemeLocales.Provider
