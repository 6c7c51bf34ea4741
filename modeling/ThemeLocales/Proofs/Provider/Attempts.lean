import ThemeLocales.Proofs.Project.Run
import ThemeLocales.Proofs.Provider.Backoff
import ThemeLocales.Provider.Baidu

/-!
# The attempts at one translation

What comes of a request has a verdict: the request is made again, the translation is refused, a
translation is there, or nothing can be made of it. The client of the requests may be any, and each
request has a salt of its own; so it is first said which requests a task leads to, and what comes of
them (`outcomesUpTo`). The attempts go through these outcomes up to the first one with another
verdict than the first, as long as attempts are left.

One transient outcome leads to the next attempt (`exists_runIn_next`), as long as there is one, and
any other outcome ends the attempts (`makes_settled`). By induction on the attempts that are left
follows what all of them ask for, how long they wait and how they end: `makes_attempts`. The delays
double, so before the attempt with number 1026 a delay would have to be waited that no double can
hold; there the attempts fail (`makes_overflow`).
-/

set_option autoImplicit false

namespace ThemeLocales

/-! ## Exchanges and records -/

/-- The world after some requests and some delays. -/
def World.exchanged (w : World) (calls : List Provider.WebCall) (delays : List Document) : World :=
  { w with
    webCalls := w.webCalls ++ calls
    sleeps := w.sleeps ++ delays }

theorem World.exchanged_nil (w : World) : w.exchanged [] [] = w := by
  simp [exchanged]

theorem World.exchanged_exchanged (w : World) (calls more : List Provider.WebCall)
    (delays others : List Document) : (w.exchanged calls delays).exchanged more others =
      w.exchanged (calls ++ more) (delays ++ others) := by
  simp [exchanged]

namespace Project

theorem LogsTo.trans {u v w : World} (h : LogsTo u v) (h' : LogsTo v w) : LogsTo u w := by
  obtain ⟨records, rfl⟩ := h
  obtain ⟨more, rfl⟩ := h'
  exact ⟨records ++ more, List.foldl_append.symm⟩

theorem LogsTo.logged {u v : World} (h : LogsTo u v) (r : LogRecord) : LogsTo u (v.logged r) :=
  logStable_logsTo u v r h

/-- A change of the world that does not touch what records touch may come before them as well as
after them. -/
theorem LogsTo.map {w v : World} {f : World → World} (hf : ∀ v r, f (v.logged r) = (f v).logged r)
    (h : LogsTo w v) : LogsTo (f w) (f v) := by
  have hlog : LogStable fun v => LogsTo (f w) (f v) := by
    intro v r hv
    rw [hf]
    exact hv.logged r
  exact hlog.logsTo (.refl _) h

/-- An exchange is such a change. -/
theorem LogsTo.exchanged {w v : World} (h : LogsTo w v) (calls : List Provider.WebCall)
    (delays : List Document) : LogsTo (w.exchanged calls delays) (v.exchanged calls delays) :=
  h.map (f := fun v => v.exchanged calls delays) fun _ _ => rfl

/-- Two worlds that differ in their records only have the same services, chances and cache. -/
structure SameServices (w v : World) : Prop where
  client : v.webClient = w.webClient
  calls : v.webCalls = w.webCalls
  sleeps : v.sleeps = w.sleeps
  jitter : v.jitter = w.jitter
  salt : v.salt = w.salt
  cache : v.cache = w.cache

theorem SameServices.nextJitter {w v : World} (h : SameServices w v) :
    Provider.Retry.nextJitter v = Provider.Retry.nextJitter w := by
  rw [Provider.Retry.nextJitter, Provider.Retry.nextJitter, h.jitter, h.sleeps]

theorem LogsTo.sameServices {w v : World} (h : LogsTo w v) : SameServices w v := by
  have hlog : LogStable fun v => SameServices w v :=
    fun v r hv => ⟨hv.client, hv.calls, hv.sleeps, hv.jitter, hv.salt, hv.cache⟩
  exact hlog.logsTo ⟨rfl, rfl, rfl, rfl, rfl, rfl⟩ h

end Project

namespace Provider

open Operation Project

/-! ## Verdicts -/

/-- What the outcome of a request means for the translation that it was made for. -/
inductive Verdict
  /-- The client reports an error, or the answer has one of the error codes after which a request is
  made again. -/
  | transient
  /-- The answer has another error code, or no translation. -/
  | refused
  /-- The answer has a translation. -/
  | translated (d : Document)
  /-- The client broke down, or the results of the answer have a shape that nothing reads. -/
  | failed (e : Failure)

namespace Baidu

/-- The verdict on the results of an answer. -/
def resultsVerdict (results : Document) : Verdict :=
  match firstTranslation results with
  | .ok d => if d.isPresent then .translated d else .refused
  | .error e => .failed e

/-- The verdict on a JSON document. -/
def bodyVerdict (body : Document) : Verdict :=
  if reportsError body then
    if errorCode body ∈ retryableCodes then .transient else .refused
  else resultsVerdict (Document.orNull (body.get? "trans_result"))

theorem bodyVerdict_of_error {body : Document} (h : reportsError body = true) :
    bodyVerdict body = if errorCode body ∈ retryableCodes then .transient else .refused := by
  rw [bodyVerdict, if_pos h]

theorem bodyVerdict_of_results {body : Document} (h : reportsError body = false) :
    bodyVerdict body = resultsVerdict (Document.orNull (body.get? "trans_result")) := by
  rw [bodyVerdict, h, if_neg Bool.false_ne_true]

theorem resultsVerdict_ne_transient (results : Document) : resultsVerdict results ≠ .transient := by
  intro h
  unfold resultsVerdict at h
  split at h
  · split at h <;> cases h
  · cases h

/-- The verdict on an outcome. -/
def verdict : WebOutcome → Verdict
  | .data body => bodyVerdict body
  | .failed _ _ => .transient
  | .broken e => .failed e

/-- Whether a request is made again after an outcome. -/
def isTransient (o : WebOutcome) : Bool :=
  match verdict o with
  | .transient => true
  | _ => false

theorem isTransient_iff {o : WebOutcome} : isTransient o = true ↔ verdict o = .transient := by
  unfold isTransient
  cases verdict o <;> simp

/-- The verdict that ends the attempts with some outcomes: the first one that is not transient, if
there is one. -/
def finalVerdict (outcomes : List WebOutcome) : Verdict :=
  ((outcomes.find? fun o => !isTransient o).map verdict).getD .transient

/-- How many of some outcomes are asked for: those up to the first that is not transient. -/
def asked (outcomes : List WebOutcome) : ℕ :=
  min outcomes.length (outcomes.findIdx (fun o => !isTransient o) + 1)

theorem asked_nil : asked [] = 0 := rfl

theorem asked_cons_of_transient {o : WebOutcome} (h : isTransient o = true)
    (rest : List WebOutcome) : asked (o :: rest) = asked rest + 1 := by
  rw [asked, asked, List.findIdx_cons, h, List.length_cons]
  simp only [Bool.not_true, cond_false]
  omega

theorem asked_cons_of_not_transient {o : WebOutcome} (h : isTransient o = false)
    (rest : List WebOutcome) : asked (o :: rest) = 1 := by
  rw [asked, List.findIdx_cons, h, List.length_cons]
  simp

theorem asked_pos {o : WebOutcome} {rest : List WebOutcome} : 0 < asked (o :: rest) := by
  rw [asked, List.length_cons]
  omega

theorem finalVerdict_cons_of_transient {o : WebOutcome} (h : isTransient o = true)
    (rest : List WebOutcome) : finalVerdict (o :: rest) = finalVerdict rest := by
  rw [finalVerdict, List.find?_cons_of_neg (by simp [h]), finalVerdict]

theorem finalVerdict_cons_of_not_transient {o : WebOutcome} (h : isTransient o = false)
    (rest : List WebOutcome) : finalVerdict (o :: rest) = verdict o := by
  rw [finalVerdict, List.find?_cons_of_pos (by simp [h])]
  rfl

/-! ## The requests for a task and their outcomes -/

/-- The delay before another attempt after number `k + 1`, with the jitter that is drawn next. -/
def delayAt (w : World) (k : ℕ) : Document :=
  Retry.delay (Retry.nextJitter w) k

/-- So many delays after the attempts from number `k + 1` on, each with a jitter of its own. -/
def delaysFrom (w : World) (k count : ℕ) : List Document :=
  (List.range count).map fun i => Retry.delay (w.jitter.draw (w.sleeps.length + i)) (k + i)

/-- The request for a task after so many others for it, with a salt of its own. -/
def callAt (b : Baidu) (t : Task) (w : World) (i : ℕ) : WebCall :=
  ⟨b.url, b.parameters (w.salt.draw (w.webCalls.length + i)) t.text t.fromCode t.toCode⟩

/-- The first requests for a task. -/
def callsUpTo (b : Baidu) (t : Task) (w : World) (count : ℕ) : List WebCall :=
  (List.range count).map (b.callAt t w)

/-- What comes of a request for a task after so many others for it. -/
def outcomeAt (b : Baidu) (t : Task) (w : World) (i : ℕ) : WebOutcome :=
  w.webClient (w.webCalls ++ b.callsUpTo t w i) (b.callAt t w i)

/-- What comes of the first requests for a task. -/
def outcomesUpTo (b : Baidu) (t : Task) (w : World) (count : ℕ) : List WebOutcome :=
  (List.range count).map (b.outcomeAt t w)

section Requests

variable {b : Baidu} {t : Task} {w v : World}

theorem length_outcomesUpTo (b : Baidu) (t : Task) (w : World) (count : ℕ) :
    (b.outcomesUpTo t w count).length = count := by
  rw [outcomesUpTo, List.length_map, List.length_range]

theorem outcomesUpTo_zero (b : Baidu) (t : Task) (w : World) : b.outcomesUpTo t w 0 = [] := rfl

/-! Worlds with the same services lead to the same requests, outcomes and delays. -/

theorem delayAt_of_sameServices (h : SameServices w v) (k : ℕ) : delayAt v k = delayAt w k := by
  rw [delayAt, delayAt, h.nextJitter]

theorem delaysFrom_of_sameServices (h : SameServices w v) (k count : ℕ) :
    delaysFrom v k count = delaysFrom w k count := by
  rw [delaysFrom, delaysFrom, h.jitter, h.sleeps]

theorem callAt_of_sameServices (h : SameServices w v) (i : ℕ) :
    b.callAt t v i = b.callAt t w i := by
  rw [callAt, callAt, h.salt, h.calls]

theorem callsUpTo_of_sameServices (h : SameServices w v) (count : ℕ) :
    b.callsUpTo t v count = b.callsUpTo t w count := by
  simp only [callsUpTo, funext (callAt_of_sameServices (b := b) (t := t) h)]

theorem outcomesUpTo_of_sameServices (h : SameServices w v) (count : ℕ) :
    b.outcomesUpTo t v count = b.outcomesUpTo t w count := by
  have hat : b.outcomeAt t v = b.outcomeAt t w := by
    funext i
    rw [outcomeAt, outcomeAt, h.client, h.calls, callsUpTo_of_sameServices h,
      callAt_of_sameServices h]
  rw [outcomesUpTo, outcomesUpTo, hat]

/-! After one request and a delay, the others go on where these were. -/

variable (delays : List Document) (calls : List WebCall)

theorem delaysFrom_succ (d : Document) (k count : ℕ) : delaysFrom w k (count + 1) =
    delayAt w k :: delaysFrom (w.exchanged calls [d]) (k + 1) count := by
  have hnext : ∀ i, Retry.delay (w.jitter.draw (w.sleeps.length + (i + 1))) (k + (i + 1)) =
      Retry.delay (w.jitter.draw ((w.sleeps ++ [d]).length + i)) (k + 1 + i) := by
    intro i
    rw [List.length_append, List.length_singleton, add_assoc, add_assoc, add_comm i 1]
  rw [delaysFrom, List.range_succ_eq_map, List.map_cons, List.map_map]
  exact congrArg _ (List.map_congr_left fun i _ => hnext i)

theorem callAt_succ (c : WebCall) (i : ℕ) :
    b.callAt t w (i + 1) = b.callAt t (w.exchanged [c] delays) i := by
  have hplace : w.webCalls.length + (i + 1) = (w.webCalls ++ [c]).length + i := by
    rw [List.length_append, List.length_singleton]
    omega
  rw [callAt, callAt, hplace]
  rfl

theorem callsUpTo_succ (count : ℕ) : b.callsUpTo t w (count + 1) =
    b.callAt t w 0 :: b.callsUpTo t (w.exchanged [b.callAt t w 0] delays) count := by
  rw [callsUpTo, List.range_succ_eq_map, List.map_cons, List.map_map]
  exact congrArg _ (List.map_congr_left fun i _ => callAt_succ delays _ i)

theorem outcomeAt_succ (i : ℕ) :
    b.outcomeAt t w (i + 1) = b.outcomeAt t (w.exchanged [b.callAt t w 0] delays) i := by
  rw [outcomeAt, outcomeAt, callsUpTo_succ delays, callAt_succ delays (b.callAt t w 0),
    List.append_cons]
  rfl

theorem outcomesUpTo_succ (count : ℕ) : b.outcomesUpTo t w (count + 1) =
    b.outcomeAt t w 0 :: b.outcomesUpTo t (w.exchanged [b.callAt t w 0] delays) count := by
  rw [outcomesUpTo, List.range_succ_eq_map, List.map_cons, List.map_map]
  exact congrArg _ (List.map_congr_left fun i _ => outcomeAt_succ delays i)

end Requests

/-! ## One attempt -/

section Attempt

variable {b : Baidu} {t : Task} {w : World} {k : ℕ}

/-- Asking for a request hands it to the client, with those before it. -/
theorem runIn_send (call : WebCall) (w : World) :
    (send call).runIn w = (.ok (w.webClient w.webCalls call), w.exchanged [call] []) := by
  have hworld : w.exchanged [call] [] = { w with webCalls := w.webCalls ++ [call] } := by
    simp [World.exchanged]
  rw [hworld]
  rfl

/-- The request of the first attempt is the one that comes next. -/
theorem runIn_call (b : Baidu) (t : Task) (w : World) : (send (b.call t w)).runIn w =
    (.ok (b.outcomeAt t w 0), w.exchanged [b.callAt t w 0] []) := by
  rw [runIn_send, outcomeAt, callsUpTo, List.range_zero, List.map_nil, List.append_nil]
  rfl

/-- After the last attempt there is no other one. -/
theorem runIn_retry_last (h : b.maxRetries ≤ (k + 1 : ℕ)) :
    ∃ w₁, LogsTo w w₁ ∧ (b.retry t (k + 1)).runIn w = (.ok false, w₁) := by
  rw [retry, Retry.again, if_pos h]
  exact ⟨_, (LogsTo.refl w).logged ⟨.error, t.description ++ " failed after " ++
    toString b.maxRetries ++ " attempts."⟩, rfl⟩

/-- Before another attempt, the delay is waited. -/
theorem runIn_retry_again (h : (k + 1 : ℕ) < b.maxRetries) (hk : k ≤ 1023) :
    ∃ w₁, LogsTo (w.exchanged [] [delayAt w k]) w₁ ∧
      (b.retry t (k + 1)).runIn w = (.ok true, w₁) := by
  let jitter := Retry.nextJitter w
  have hdelay : Retry.backoff jitter (.int 1) (k + 1 : ℕ) = .ok (delayAt w k) := by
    rw [Nat.cast_add, Nat.cast_one, Retry.backoff_of_le hk, delayAt]
  let shown := ((Binary64.twoTo k).add jitter).twoPlaces
  let record : LogRecord := ⟨.info, "Retrying " ++ t.description ++ " in " ++ shown ++
    " seconds (Attempt " ++ toString ((k + 1 : ℕ) : ℤ) ++ "/" ++ toString b.maxRetries ++ ")"⟩
  have hworld : (w.logged record).exchanged [] [delayAt w k] =
      { w.logged record with sleeps := w.sleeps ++ [delayAt w k] } := by
    simp [World.exchanged, World.logged]
  refine ⟨(w.logged record).exchanged [] [delayAt w k],
    ((LogsTo.refl w).logged record).exchanged [] _, ?_⟩
  rw [retry, Retry.again, if_neg (not_le.2 h), hworld, runIn_get_bind]
  exact runIn_ofResult_bind hdelay _ w

/-- A delay that is no double is not waited. -/
theorem runIn_retry_overflow (h : (k + 1 : ℕ) < b.maxRetries) (hk : 1023 < k) :
    (b.retry t (k + 1)).runIn w = (.error .overflow, w) := by
  have hdelay : Retry.backoff (Retry.nextJitter w) (.int 1) (k + 1 : ℕ) =
      .error .overflow := by
    rw [Nat.cast_add, Nat.cast_one, Retry.backoff_of_lt hk]
  rw [retry, Retry.again, if_neg (not_le.2 h), runIn_get_bind]
  exact runIn_ofResult_bind_error hdelay _ w

/-- A transient outcome is recorded; then it depends on the retry whether there is another
attempt. -/
theorem exists_runIn_transient (ho : verdict (b.outcomeAt t w 0) = .transient)
    (remaining attempt : ℕ) :
    ∃ w₁ message, LogsTo (w.exchanged [b.callAt t w 0] []) w₁ ∧
      (b.attempts t (remaining + 1) attempt).runIn w =
        (b.retry t attempt >>= fun again =>
          if again then b.attempts t remaining (attempt + 1)
          else throw (.translation message)).runIn w₁ := by
  have hsend := b.runIn_call t w
  have hstart := LogsTo.refl (w.exchanged [b.callAt t w 0] [])
  rw [attempts, runIn_get_bind]
  cases houtcome : b.outcomeAt t w 0 with
  | broken e =>
    rw [houtcome] at ho
    cases ho
  | failed kind message =>
    rw [houtcome] at hsend
    refine ⟨_, t.description ++ " failed: " ++ message, hstart.logged ⟨.error,
      "Baidu API request failed: " ++ kind ++ " - " ++ message⟩, ?_⟩
    rw [runIn_bind_of_ok hsend]
    rfl
  | data body =>
    rw [houtcome] at hsend ho
    have hbody : bodyVerdict body = .transient := ho
    -- of the documents, only error codes are transient
    have hreports : reportsError body = true := by
      by_contra hnot
      rw [bodyVerdict_of_results (Bool.eq_false_iff.2 hnot)] at hbody
      exact resultsVerdict_ne_transient _ hbody
    have hretryable : errorCode body ∈ retryableCodes := by
      by_contra hnot
      rw [bodyVerdict_of_error hreports, if_neg hnot] at hbody
      cases hbody
    refine ⟨_, t.description ++ " failed: " ++ errorText body,
      hstart.logged ⟨.error, errorText body⟩, ?_⟩
    rw [runIn_bind_of_ok hsend]
    simp only [hreports, hretryable, if_true]
    rfl

/-- Takes a translation into the cache and gives it back. -/
def keep (b : Baidu) (t : Task) (d : Document) : Operation Translation := do
  match b.cacheFile with
  | some path => Cache.store path (.ofText t.source t.target t.text d)
  | none => pure ()
  return .ofText t.source t.target t.text d

/-- How the attempts at a task conclude from a world, by the verdict that ends them. While all
verdicts are transient, they end when no attempt is left. -/
inductive Concludes (b : Baidu) (t : Task) :
    Verdict → World → Except Failure Translation × World → Prop
  | exhausted (message : String) (w : World) :
      Concludes b t .transient w (.error (.translation message), w)
  | refused (message : String) (w : World) :
      Concludes b t .refused w (.error (.translation message), w)
  | failed (e : Failure) (w : World) : Concludes b t (.failed e) w (.error e, w)
  | kept (d : Document) (w : World) : Concludes b t (.translated d) w ((b.keep t d).runIn w)

/-- From the one with number `k + 1` on, so many attempts are made, with a delay between two of
them, and they conclude with a verdict. -/
def Makes (b : Baidu) (t : Task) (k made : ℕ) (v : Verdict) (w : World)
    (result : Except Failure Translation × World) : Prop :=
  ∃ w₁, LogsTo (w.exchanged (b.callsUpTo t w made) (delaysFrom w k (made - 1))) w₁ ∧
    Concludes b t v w₁ result

/-- What is done with a document that reports no error. -/
theorem exists_concludes_accept {body : Document} (hreports : reportsError body = false) :
    ∃ w₁, LogsTo w w₁ ∧ Concludes b t (bodyVerdict body) w₁ ((b.accept t body).runIn w) := by
  have hverdict : bodyVerdict body = match answerTranslation body with
      | .ok d => if d.isPresent then .translated d else .refused
      | .error e => .failed e := bodyVerdict_of_results hreports
  rw [hverdict, accept]
  -- the three verdicts on a body that reports no error
  cases answerTranslation body with
  | error e =>
    refine ⟨w, .refl w, ?_⟩
    exact .failed e w
  | ok d =>
    rw [runIn_ofResult_bind rfl]
    cases hpresent : d.isPresent with
    | false =>
      refine ⟨w, .refl w, ?_⟩
      simp only [hpresent, Bool.not_false, if_true, Bool.false_eq_true, if_false]
      exact .refused _ w
    | true =>
      refine ⟨_, (LogsTo.refl w).logged
        ⟨.debug, "Translated '" ++ t.text ++ "' -> '" ++ d.shown ++ "'."⟩, ?_⟩
      simp only [hpresent, Bool.not_true, if_true, Bool.false_eq_true, if_false]
      exact .kept d _

/-- An outcome that is not transient ends the attempts. -/
theorem makes_settled (ho : isTransient (b.outcomeAt t w 0) = false) (remaining : ℕ) :
    b.Makes t k 1 (verdict (b.outcomeAt t w 0)) w
      ((b.attempts t (remaining + 1) (k + 1)).runIn w) := by
  have hsend := b.runIn_call t w
  have hstart := LogsTo.refl (w.exchanged [b.callAt t w 0] [])
  have hsettled : verdict (b.outcomeAt t w 0) ≠ .transient := by
    intro htransient
    rw [isTransient_iff.2 htransient] at ho
    cases ho
  rw [attempts, runIn_get_bind]
  cases houtcome : b.outcomeAt t w 0 with
  | broken e =>
    rw [houtcome] at hsend
    refine ⟨_, hstart, ?_⟩
    rw [runIn_bind_of_ok hsend]
    exact .failed e _
  | failed kind message =>
    rw [houtcome] at hsettled
    exact absurd rfl hsettled
  | data body =>
    rw [houtcome] at hsend hsettled
    rw [runIn_bind_of_ok hsend, verdict]
    -- an answer that is not transient may still report an error
    cases hreports : reportsError body with
    | true =>
      have hfatal : errorCode body ∉ retryableCodes := by
        intro hretryable
        exact hsettled (by rw [verdict, bodyVerdict_of_error hreports, if_pos hretryable])
      rw [bodyVerdict_of_error hreports, if_neg hfatal]
      refine ⟨_, hstart.logged ⟨.error, errorText body⟩, ?_⟩
      simp only [hreports, hfatal, if_true, if_false]
      exact .refused _ _
    | false =>
      obtain ⟨w₁, hlogs, hconcludes⟩ := exists_concludes_accept (b := b) (t := t)
        (w := w.exchanged [b.callAt t w 0] []) hreports
      refine ⟨w₁, hlogs, ?_⟩
      simp only [hreports, Bool.false_eq_true, if_false]
      exact hconcludes

/-! ## All attempts -/

/-- Records before the first attempt change nothing about the attempts. -/
theorem Makes.of_logsTo {made : ℕ} {v : Verdict} {w₁ : World}
    {result : Except Failure Translation × World} (hlogs : LogsTo w w₁)
    (h : b.Makes t k made v w₁ result) : b.Makes t k made v w result := by
  obtain ⟨w₂, hrest, hconcludes⟩ := h
  rw [callsUpTo_of_sameServices hlogs.sameServices, delaysFrom_of_sameServices hlogs.sameServices]
    at hrest
  exact ⟨w₂, (hlogs.exchanged _ _).trans hrest, hconcludes⟩

/-- One more attempt comes before the others, with the delay after it. -/
theorem Makes.next {more : ℕ} {v : Verdict} {w₁ : World}
    {result : Except Failure Translation × World}
    (hlogs : LogsTo (w.exchanged [b.callAt t w 0] [delayAt w k]) w₁)
    (h : b.Makes t (k + 1) (more + 1) v w₁ result) : b.Makes t k (more + 1 + 1) v w result := by
  obtain ⟨w₂, hrest, hconcludes⟩ := h.of_logsTo hlogs
  refine ⟨w₂, ?_, hconcludes⟩
  rw [World.exchanged_exchanged] at hrest
  rw [callsUpTo_succ [delayAt w k]]
  have hmore : more + 1 + 1 - 1 = more + 1 := by omega
  rw [hmore, delaysFrom_succ [b.callAt t w 0]]
  exact hrest

/-- Without attempts that are left, none is made. -/
theorem makes_zero (b : Baidu) (t : Task) (w : World) (k : ℕ) :
    b.Makes t k 0 .transient w ((b.attempts t 0 (k + 1)).runIn w) := by
  refine ⟨w, ?_, .exhausted _ w⟩
  change LogsTo (w.exchanged [] []) w
  rw [World.exchanged_nil]
  exact .refl w

section Transient

variable (ho : isTransient (b.outcomeAt t w 0) = true)

include ho

/-- A transient outcome in the last attempt ends them as well. -/
theorem makes_last (hlast : b.maxRetries ≤ (k + 1 : ℕ)) (remaining : ℕ) :
    b.Makes t k 1 .transient w ((b.attempts t (remaining + 1) (k + 1)).runIn w) := by
  obtain ⟨w₁, message, hlogs, hrun⟩ :=
    exists_runIn_transient (isTransient_iff.1 ho) remaining (k + 1)
  obtain ⟨w₂, hmore, hretry⟩ := runIn_retry_last (t := t) (w := w₁) hlast
  refine ⟨w₂, hlogs.trans hmore, ?_⟩
  rw [hrun, runIn_bind_of_ok hretry]
  exact .exhausted message w₂

/-- In any other attempt, it fails them when the delay is no double. -/
theorem makes_overflow (hmore : (k + 1 : ℕ) < b.maxRetries) (hk : 1023 < k) (remaining : ℕ) :
    b.Makes t k 1 (.failed .overflow) w ((b.attempts t (remaining + 1) (k + 1)).runIn w) := by
  obtain ⟨w₁, message, hlogs, hrun⟩ :=
    exists_runIn_transient (isTransient_iff.1 ho) remaining (k + 1)
  have hretry := runIn_retry_overflow (t := t) (w := w₁) hmore hk
  refine ⟨w₁, hlogs, ?_⟩
  rw [hrun, runIn_bind_of_error hretry]
  exact .failed .overflow w₁

/-- Otherwise the delay is waited, and the next attempt is made. -/
theorem exists_runIn_next (hmore : (k + 1 : ℕ) < b.maxRetries) (hk : k ≤ 1023) (remaining : ℕ) :
    ∃ w₁, LogsTo (w.exchanged [b.callAt t w 0] [delayAt w k]) w₁ ∧
      (b.attempts t (remaining + 1) (k + 1)).runIn w =
        (b.attempts t remaining (k + 1 + 1)).runIn w₁ := by
  obtain ⟨w₁, message, hlogs, hrun⟩ :=
    exists_runIn_transient (isTransient_iff.1 ho) remaining (k + 1)
  obtain ⟨w₂, hwaited, hretry⟩ := runIn_retry_again (t := t) (w := w₁) hmore hk
  refine ⟨w₂, ?_, ?_⟩
  · have hdelay : delayAt w₁ k = delayAt w k := by
      rw [delayAt_of_sameServices hlogs.sameServices]
      simp [delayAt, Retry.nextJitter, World.exchanged]
    rw [hdelay] at hwaited
    have hboth := (hlogs.exchanged [] [delayAt w k]).trans hwaited
    rw [World.exchanged_exchanged] at hboth
    exact hboth
  · rw [hrun, runIn_bind_of_ok hretry]
    rfl

end Transient

/-- The attempts from the one with number `k + 1`, `remaining` of them at most. They take the
outcomes up to the first that is not transient, and conclude with its verdict. Only 1025 attempts
can be made: the delay after the last of them is no double. -/
theorem makes_attempts {remaining : ℕ} (hk : k ≤ 1024)
    (hnumber : k + remaining = b.maxRetries.toNat) :
    b.Makes t k (min (asked (b.outcomesUpTo t w remaining)) (1025 - k))
      (if asked (b.outcomesUpTo t w remaining) ≤ 1025 - k then
        finalVerdict (b.outcomesUpTo t w remaining) else .failed .overflow) w
      ((b.attempts t remaining (k + 1)).runIn w) := by
  -- On the attempts that are left. The worlds change, but their services go on where they were.
  induction remaining generalizing k w with
  | zero =>
    rw [outcomesUpTo_zero, asked_nil, Nat.zero_min, if_pos (Nat.zero_le _)]
    exact makes_zero b t w k
  | succ remaining ih =>
    rw [outcomesUpTo_succ (w := w) [delayAt w k]]
    set rest := b.outcomesUpTo t (w.exchanged [b.callAt t w 0] [delayAt w k]) remaining with hrest
    cases ho : isTransient (b.outcomeAt t w 0) with
    | false =>
      have hone : min 1 (1025 - k) = 1 := by omega
      rw [asked_cons_of_not_transient ho, hone, finalVerdict_cons_of_not_transient ho,
        if_pos (by omega)]
      exact makes_settled ho remaining
    | true =>
      rw [asked_cons_of_transient ho, finalVerdict_cons_of_transient ho]
      cases remaining with
      | zero =>
        have hnone : asked rest = 0 := by rw [hrest, outcomesUpTo_zero, asked_nil]
        have hone : min (asked rest + 1) (1025 - k) = 1 := by omega
        have hverdict : finalVerdict rest = .transient := by
          rw [hrest, outcomesUpTo_zero]
          rfl
        rw [hone, if_pos (by omega), hverdict]
        exact makes_last ho (by omega) 0
      | succ remaining =>
        have hmore : (k + 1 : ℕ) < b.maxRetries := by omega
        have hpos : 0 < asked rest := by
          rw [hrest, outcomesUpTo_succ []]
          exact asked_pos
        by_cases hdouble : k ≤ 1023
        · obtain ⟨w₁, hlogs, hrun⟩ := exists_runIn_next ho hmore hdouble (remaining + 1)
          have hmakes := ih (w := w₁) (k := k + 1) (by omega) (by omega)
          rw [outcomesUpTo_of_sameServices hlogs.sameServices, ← hrest] at hmakes
          -- one attempt less can be made from the next one on, and one less is made
          obtain ⟨more, hmade⟩ : ∃ more, min (asked rest) (1025 - (k + 1)) = more + 1 :=
            ⟨min (asked rest) (1025 - (k + 1)) - 1, by omega⟩
          have hmade' : min (asked rest + 1) (1025 - k) = more + 1 + 1 := by omega
          have hiff : asked rest + 1 ≤ 1025 - k ↔ asked rest ≤ 1025 - (k + 1) := by omega
          rw [hmade] at hmakes
          rw [hrun, hmade']
          simp only [hiff]
          exact hmakes.next hlogs
        · have hone : min (asked rest + 1) (1025 - k) = 1 := by omega
          rw [hone, if_neg (by omega)]
          exact makes_overflow ho hmore (by omega) (remaining + 1)

end Attempt

end Baidu

end Provider

end ThemeLocales
