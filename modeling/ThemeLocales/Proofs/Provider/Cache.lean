import ThemeLocales.Provider.Cache
import ThemeLocales.Proofs.Operation
import Mathlib.Data.List.Induction

/-!
# What the translation cache recalls

A cache that starts without a file and has taken any number of results recalls, for a request, the
latest of them that has the request's key and a text (`recalls_storeEach`, `runIn_get`). It does not
matter which of the writes to the file the disk refused, because a result is kept in memory before
it is written.

A key is made of the two languages and the text with an underscore between them. It names one
request only when no language code has an underscore of its own (`key_injective`); then the cache
recalls the latest result of the very same request (`get_storeEach`). With codes such as `zh_CN` two
requests may share a key, and one of them is answered with the translation of the other
(`get_other_request`).
-/

set_option autoImplicit false

namespace ThemeLocales.Provider.Cache

open Operation

/-! ## Results and requests -/

/-- What a provider hands to the cache: a text, its translation and the two languages. -/
structure Stored where
  source : String
  target : String
  text : String
  translated : String
  deriving DecidableEq, Repr

namespace Stored

/-- The result as a translation. -/
def translation (r : Stored) : Translation :=
  .ofText r.source r.target r.text (.string r.translated)

/-- The key under which the result is kept. -/
def key (r : Stored) : String :=
  Cache.key r.text r.source r.target

/-- Whether the result belongs to a request. -/
def answers (text source target : String) (r : Stored) : Bool :=
  r.text = text && r.source = source && r.target = target

end Stored

/-- The latest result that has a text and meets a condition. -/
def latest? (meets : Stored → Bool) (results : List Stored) : Option Stored :=
  results.reverse.find? fun r => r.translated ≠ "" && meets r

theorem latest?_append_singleton (meets : Stored → Bool) (results : List Stored) (r : Stored) :
    latest? meets (results ++ [r]) =
      if r.translated ≠ "" ∧ meets r = true then some r else latest? meets results := by
  rw [latest?, List.reverse_append, List.reverse_singleton, List.singleton_append,
    List.find?_cons]
  by_cases h : r.translated ≠ "" ∧ meets r = true
  · have htrue : (decide (r.translated ≠ "") && meets r) = true := by simpa using h
    rw [if_pos h, htrue]
  · have hfalse : (decide (r.translated ≠ "") && meets r) = false := by simpa using h
    rw [if_neg h, hfalse]
    rfl

theorem translated_ne_of_latest? {meets : Stored → Bool} {results : List Stored} {r : Stored}
    (h : latest? meets results = some r) : r.translated ≠ "" := by
  have hr := List.find?_some h
  rw [Bool.and_eq_true, decide_eq_true_eq] at hr
  exact hr.1

/-- Conditions that agree on all results have the same latest result. -/
theorem latest?_congr {meets meets' : Stored → Bool} {results : List Stored}
    (h : ∀ r ∈ results, meets r = meets' r) : latest? meets results = latest? meets' results := by
  induction results using List.reverseRecOn with
  | nil => rfl
  | append_singleton results r ih =>
    rw [latest?_append_singleton, latest?_append_singleton, h r (by simp),
      ih fun s hs => h s (by simp [hs])]

/-! ## Keys -/

/-- The part before the first separator and the part after it are determined by the whole. -/
theorem append_separator_injective {c : Char} {xs ys us vs : List Char} (hxs : c ∉ xs)
    (hus : c ∉ us) (h : xs ++ c :: ys = us ++ c :: vs) : xs = us ∧ ys = vs := by
  -- the first separator stands where the shorter part ends, so both end there
  induction xs generalizing us with
  | nil =>
    cases us with
    | nil =>
      obtain ⟨-, hrest⟩ := List.cons.inj h
      exact ⟨rfl, hrest⟩
    | cons u us =>
      obtain ⟨rfl, -⟩ := List.cons.inj h
      exact absurd List.mem_cons_self hus
  | cons x xs ih =>
    cases us with
    | nil =>
      obtain ⟨rfl, -⟩ := List.cons.inj h
      exact absurd List.mem_cons_self hxs
    | cons u us =>
      obtain ⟨rfl, hrest⟩ := List.cons.inj h
      obtain ⟨rfl, rfl⟩ := ih (fun hc => hxs (List.mem_cons_of_mem _ hc))
        (fun hc => hus (List.mem_cons_of_mem _ hc)) hrest
      exact ⟨rfl, rfl⟩

theorem toList_key (text source target : String) :
    (key text source target).toList =
      source.toList ++ '_' :: (target.toList ++ '_' :: text.toList) := by
  simp [key]

/-- Without underscores in the language codes a key names one request. -/
theorem key_injective {text source target text' source' target' : String}
    (hsource : '_' ∉ source.toList) (htarget : '_' ∉ target.toList)
    (hsource' : '_' ∉ source'.toList) (htarget' : '_' ∉ target'.toList)
    (h : key text source target = key text' source' target') :
    text = text' ∧ source = source' ∧ target = target' := by
  have hlist := congrArg String.toList h
  rw [toList_key, toList_key] at hlist
  obtain ⟨hsources, hrest⟩ := append_separator_injective hsource hsource' hlist
  obtain ⟨htargets, htexts⟩ := append_separator_injective htarget htarget' hrest
  exact ⟨String.toList_inj.1 htexts, String.toList_inj.1 hsources, String.toList_inj.1 htargets⟩

/-! ## One access -/

/-- The world after storing results one after the other, whether the disk takes them or not. -/
def storeEach (path : String) (results : List Stored) (w : World) : World :=
  results.foldl (fun w r => ((store path r.translation).runIn w).2) w

/-- A cache recalls some results: what it has under a key is the latest result with that key. While
nothing was read from its file, there is no file. -/
structure Recalls (path : String) (results : List Stored) (w : World) : Prop where
  fresh : w.cache = none → w.disk.isThere path = false
  recalled : ∀ name, Assoc.get? name (entries (w.cache.getD empty).members) =
    (latest? (·.key = name) results).map fun r => r.translation.toDocument

variable {path : String} {results : List Stored} {w : World}

/-- A cache that was read is not read again. -/
theorem runIn_load_of_some {image : CacheImage} (h : w.cache = some image) :
    (load path).runIn w = (.ok image, w) := by
  have hworld : (getThe World : Operation World).runIn w = (.ok w, w) := rfl
  rw [load, runIn_bind_of_ok hworld, h]
  rfl

theorem runIn_load_of_none {image : CacheImage} {w₁ : World} (h : w.cache = none)
    (hread : (readFile path).runIn w = (.ok image, w₁)) :
    (load path).runIn w = (.ok image, { w₁ with cache := some image }) := by
  have hworld : (getThe World : Operation World).runIn w = (.ok w, w) := rfl
  rw [load, runIn_bind_of_ok hworld, h]
  exact (runIn_bind_of_ok hread).trans rfl

/-- A cache without a file is read as an empty one. -/
theorem runIn_load (h : w.cache = none → w.disk.isThere path = false) :
    (load path).runIn w =
      (.ok (w.cache.getD empty), { w with cache := some (w.cache.getD empty) }) := by
  cases hcache : w.cache with
  | some image =>
    have hw : { w with cache := some image } = w := by rw [← hcache]
    rw [Option.getD_some, hw]
    exact runIn_load_of_some hcache
  | none =>
    have hthere : (isThere path).runIn w = (.ok false, w) :=
      congrArg (fun there => (Except.ok there, w)) (h hcache)
    have hread : (readFile path).runIn w = (.ok empty, w) := by
      rw [readFile]
      exact (runIn_bind_of_ok hthere).trans rfl
    exact runIn_load_of_none hcache hread

/-- A translation that the cache holds is found with all its fields. -/
theorem entryTranslation_toDocument {r : Stored} (h : r.translated ≠ "") :
    entryTranslation r.translation.toDocument = .ok (some r.translation) := by
  have hpresent : (Document.string r.translated).isPresent = true := by
    simpa [Document.isPresent] using h
  change (if (Document.string r.translated).isPresent then
    Except.ok (some (Translation.ofEntry r.translation.toDocument)) else .ok none) = _
  rw [if_pos hpresent]
  rfl

theorem Recalls.lookup (h : Recalls path results w) (text source target : String) :
    lookup (w.cache.getD empty).members text source target =
      .ok ((latest? (·.key = key text source target) results).map Stored.translation) := by
  rw [Cache.lookup, h.recalled]
  cases hlatest : latest? (·.key = key text source target) results with
  | none => rfl
  | some r => exact entryTranslation_toDocument (translated_ne_of_latest? hlatest)

/-- A request is answered with the latest result that has its key. -/
theorem runIn_get (h : Recalls path results w) (text source target : String) :
    ((get path text source target).runIn w).1 =
      .ok ((latest? (·.key = key text source target) results).map Stored.translation) := by
  rw [get, runIn_bind_of_ok (runIn_load h.fresh), h.lookup]
  rfl

/-- A change of the disk, refused or not, leaves the cache. -/
theorem maintains_cache (c : Option CacheImage) (change : Disk → Except Disk.Refusal Disk) :
    Maintains (fun w => w.cache = c) (changeDisk change) :=
  .changeDisk (fun _ _ hw _ => hw) fun _ _ hw _ => hw

/-- A cache with one more translation. -/
def taking (image : CacheImage) (r : Stored) : CacheImage :=
  { image with members := insert image.members r.translation }

/-- The disk is written after the cache has taken the result, so that a refused write loses nothing
of it. -/
theorem cache_store {r : Stored} (hr : r.translated ≠ "")
    (h : w.cache = none → w.disk.isThere path = false) :
    ((store path r.translation).runIn w).2.cache =
      some (taking (w.cache.getD empty) r) := by
  have hpresent : (!r.translation.translatedText.isPresent) = false := by
    simpa [Stored.translation, Translation.ofText, Document.isPresent] using hr
  rw [store, if_neg (by simp [hpresent]), runIn_bind_of_ok (runIn_load h)]
  let taken := some (taking (w.cache.getD empty) r)
  -- Whatever becomes of the write, the cache in memory keeps what it has taken.
  have hwrite : Meets (fun w' => w'.cache = taken)
      (do
        if !(w.cache.getD empty).isPaired then throw (.json .unpaired)
        writeText path (Json.indented (.map (insert (w.cache.getD empty).members r.translation))))
      (fun _ w' => w'.cache = taken) fun w' => w'.cache = taken := by
    cases (w.cache.getD empty).isPaired with
    | true => exact maintains_cache taken _
    | false => exact .throw _ fun _ hw => hw
  refine Meets.run (P := fun w' => w' = { w with cache := some (w.cache.getD empty) })
    (Q := fun _ w' => w'.cache = taken) (E := fun w' => w'.cache = taken) ?_ rfl
    (fun _ _ hw => hw) fun _ hw => hw
  refine .bind (.modify (R := fun _ w' => w'.cache = taken) ?_) fun _ => ?_
  · rintro _ rfl
    rfl
  · by_cases hdirectory : Path.directory path = ""
    · simp only [ne_eq, hdirectory, not_true_eq_false, if_false]
      exact hwrite
    · simp only [ne_eq, hdirectory, not_false_eq_true, if_true]
      exact .bind (maintains_cache taken _) fun _ => hwrite

/-! ## Any number of accesses -/

theorem recalls_nil (hcache : w.cache = none) (hfile : w.disk.isThere path = false) :
    Recalls path [] w := by
  refine ⟨fun _ => hfile, fun name => ?_⟩
  rw [hcache]
  rfl

/-- A result without a text leaves the cache alone, and any other is found under its key. -/
theorem Recalls.store (h : Recalls path results w) (r : Stored) :
    Recalls path (results ++ [r]) ((Cache.store path r.translation).runIn w).2 := by
  -- a translation without text is not stored
  by_cases hr : r.translated = ""
  · have hsame : ((Cache.store path r.translation).runIn w).2 = w := by
      rw [Cache.store, if_pos (by simp [Stored.translation, Translation.ofText,
        Document.isPresent, hr])]
      rfl
    rw [hsame]
    refine ⟨h.fresh, fun name => ?_⟩
    rw [latest?_append_singleton, if_neg fun hboth => hboth.1 hr]
    exact h.recalled name
  · have hcache := cache_store hr h.fresh
    refine ⟨fun hnone => absurd (hcache.symm.trans hnone) (Option.some_ne_none _), fun name => ?_⟩
    have hentries : entries (taking (w.cache.getD empty) r).members =
        Assoc.set r.key r.translation.toDocument (entries (w.cache.getD empty).members) := by
      rw [entries, taking, insert, Assoc.get?_set_self]
      rfl
    rw [hcache, Option.getD_some, hentries, latest?_append_singleton]
    -- the entry of this key is the new one, and the others stand as before
    by_cases hname : r.key = name
    · rw [if_pos ⟨hr, decide_eq_true hname⟩, ← hname, Assoc.get?_set_self]
      rfl
    · rw [if_neg fun hboth => hname (of_decide_eq_true hboth.2),
        Assoc.get?_set_of_ne (Ne.symm hname)]
      exact h.recalled name

/-- What was stored is recalled, whatever of it the disk took. -/
theorem recalls_storeEach (hcache : w.cache = none) (hfile : w.disk.isThere path = false)
    (results : List Stored) : Recalls path results (storeEach path results w) := by
  induction results using List.reverseRecOn with
  | nil => exact recalls_nil hcache hfile
  | append_singleton results r ih =>
    rw [storeEach, List.foldl_append]
    exact ih.store r

/-- A cache without a file answers a request, after any results were stored, with the latest of them
that has a text and the very same source text and languages, and with nothing when there is none:
if no language code has an underscore. -/
theorem get_storeEach (hcache : w.cache = none) (hfile : w.disk.isThere path = false)
    (hcodes : ∀ r ∈ results, '_' ∉ r.source.toList ∧ '_' ∉ r.target.toList)
    (text : String) {source target : String} (hsource : '_' ∉ source.toList)
    (htarget : '_' ∉ target.toList) :
    ((get path text source target).runIn (storeEach path results w)).1 =
      .ok ((latest? (Stored.answers text source target) results).map Stored.translation) := by
  rw [runIn_get (recalls_storeEach hcache hfile results)]
  refine congrArg (fun found => Except.ok (Option.map Stored.translation found)) ?_
  refine latest?_congr fun r hr => ?_
  rw [Stored.answers, ← Bool.decide_and, ← Bool.decide_and]
  refine decide_eq_decide.2 ⟨fun hkey => ?_, ?_⟩
  · obtain ⟨htexts, hsources, htargets⟩ :=
      key_injective (hcodes r hr).1 (hcodes r hr).2 hsource htarget hkey
    exact ⟨⟨htexts, hsources⟩, htargets⟩
  · rintro ⟨⟨rfl, rfl⟩, rfl⟩
    rfl

/-- A world with an empty disk, in which no cache was read. -/
def blankWorld : World := { disk := { entries := [], workingDirectory := [] } }

/-- Of two translations of one request the later one is found, past one for another language and
one without a text. -/
theorem get_storeEach_later :
    ((get "c.json" "Hello" "en" "fr").runIn (storeEach "c.json"
      [⟨"en", "fr", "Hello", "Salut"⟩, ⟨"en", "fr", "Hello", "Bonjour"⟩,
        ⟨"en", "de", "Hello", "Hallo"⟩, ⟨"en", "fr", "Hello", ""⟩] blankWorld)).1 =
      .ok (some (.ofText "en" "fr" "Hello" (.string "Bonjour"))) :=
  get_storeEach rfl (by decide +kernel) (by decide) "Hello" (by decide) (by decide)

/-- A request that nothing was stored for is answered with the translation of another one, whose
target language and text make up the same key. -/
theorem get_other_request :
    latest? (Stored.answers "Hello" "en" "zh_CN") [⟨"en", "zh", "CN_Hello", "CN Hallo"⟩] = none ∧
    ((get "c.json" "Hello" "en" "zh_CN").runIn
      (storeEach "c.json" [⟨"en", "zh", "CN_Hello", "CN Hallo"⟩] blankWorld)).1 =
      .ok (some (.ofText "en" "zh" "CN_Hello" (.string "CN Hallo"))) := by
  refine ⟨rfl, ?_⟩
  have habsent : blankWorld.disk.isThere "c.json" = false := by decide +kernel
  rw [runIn_get (recalls_storeEach rfl habsent _)]
  rfl

end ThemeLocales.Provider.Cache
