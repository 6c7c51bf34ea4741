import ThemeLocales.Proofs.Operation

/-!
# The kinds of failures of an operation

`FailsOnly K op` says that whatever the operation fails with, in any world, is of the kind `K`. The
rules follow the ways in which operations are put together, so that the kinds of failures of a large
operation are those of its parts. What reads or writes files fails with what counts as unreadable.
-/

set_option autoImplicit false

namespace ThemeLocales

namespace Operation

variable {α β σ : Type}

/-- Whatever the operation fails with, in any world, is of a kind. -/
def FailsOnly (K : Failure → Prop) (op : Operation α) : Prop :=
  ∀ w e w', op.runIn w = (.error e, w') → K e

variable {K K' : Failure → Prop} {op : Operation α}

/-! ## Rules -/

theorem FailsOnly.mono (h : FailsOnly K op) (hK : ∀ e, K e → K' e) : FailsOnly K' op :=
  fun w e w' hrun => hK e (h w e w' hrun)

/-- An operation that gives a result in any world fails with nothing. -/
theorem FailsOnly.of_result (h : ∀ w, ∃ a w', op.runIn w = (.ok a, w')) : FailsOnly K op := by
  intro w e w' hrun
  obtain ⟨a, w₁, hok⟩ := h w
  rw [hok] at hrun
  cases hrun

theorem FailsOnly.pure (a : α) : FailsOnly K (Pure.pure a : Operation α) :=
  .of_result fun _ => ⟨a, _, rfl⟩

theorem FailsOnly.throw {e : Failure} (h : K e) :
    FailsOnly K (MonadExcept.throw e : Operation α) := by
  intro w e' w' hrun
  cases hrun
  exact h

/-- The second part of a sequence starts from a result of the first. -/
theorem FailsOnly.bind_run {f : α → Operation β} (h : FailsOnly K op)
    (hf : ∀ a w w', op.runIn w = (.ok a, w') → FailsOnly K (f a)) : FailsOnly K (op >>= f) := by
  intro w e w' hrun
  rcases hop : op.runIn w with ⟨e₁ | a, w₁⟩
  · rw [runIn_bind_of_error hop] at hrun
    cases hrun
    exact h w e w' hop
  · rw [runIn_bind_of_ok hop] at hrun
    exact hf a w w₁ hop w₁ e w' hrun

theorem FailsOnly.bind {f : α → Operation β} (h : FailsOnly K op) (hf : ∀ a, FailsOnly K (f a)) :
    FailsOnly K (op >>= f) :=
  h.bind_run fun a _ _ _ => hf a

theorem FailsOnly.attempt (op : Operation α) : FailsOnly K (attempt op) :=
  .of_result fun _ => ⟨_, _, rfl⟩

theorem FailsOnly.modify (f : World → World) :
    FailsOnly K (modifyThe World fun w => f w : Operation Unit) :=
  .of_result fun _ => ⟨(), _, rfl⟩

theorem FailsOnly.ofResult {r : Except Failure α} (h : ∀ e, r = .error e → K e) :
    FailsOnly K (ofResult r) := by
  cases r with
  | ok a => exact .pure a
  | error e => exact .throw (h e rfl)

theorem FailsOnly.mapM {f : α → Operation β} {xs : List α} (h : ∀ x ∈ xs, FailsOnly K (f x)) :
    FailsOnly K (xs.mapM f) := by
  induction xs with
  | nil => exact .pure _
  | cons x rest ih =>
    rw [List.mapM_cons]
    refine .bind (h x List.mem_cons_self) fun _ => ?_
    exact .bind (ih fun y hy => h y (List.mem_cons_of_mem x hy)) fun _ => .pure _

theorem FailsOnly.foldlM {f : σ → α → Operation σ} (h : ∀ s x, FailsOnly K (f s x)) (s : σ)
    (xs : List α) : FailsOnly K (xs.foldlM f s) := by
  induction xs generalizing s with
  | nil => exact .pure s
  | cons x rest ih =>
    rw [List.foldlM_cons]
    exact .bind (h s x) fun s' => ih s'

theorem FailsOnly.forM {f : α → Operation Unit} (h : ∀ x, FailsOnly K (f x)) (xs : List α) :
    FailsOnly K (xs.forM f) := by
  induction xs with
  | nil => exact .pure ()
  | cons x rest ih => exact .bind (h x) fun _ => ih

/-- Where only the failure matters, the worlds may be passed over. -/
theorem FailsOnly.ends {P : World → Prop} (h : FailsOnly K op) :
    Ends P op (fun _ _ => True) fun e _ => K e := by
  refine ⟨fun w _ => ?_⟩
  split
  · trivial
  · next hrun => exact h w _ _ hrun

/-- A failure that was caught is one of the operation that was attempted. -/
theorem FailsOnly.of_caught (h : FailsOnly K op) {w w' : World} {e : Failure}
    (hrun : (Operation.attempt op).runIn w = (.ok (.error e), w')) : K e := by
  have hpair := Prod.ext_iff.1 hrun
  have hfailed : op.runIn w = (.error e, w') := Prod.ext (Except.ok.inj hpair.1) hpair.2
  exact h w e w' hfailed

/-- Outside of operations, too, a sequence that fails does so in one of its parts. -/
theorem error_of_bind {x : Except Failure α} {f : α → Except Failure β} {e : Failure}
    (h : x >>= f = .error e) : x = .error e ∨ ∃ a, f a = .error e := by
  cases x with
  | error e' =>
    cases h
    exact .inl rfl
  | ok a => exact .inr ⟨a, h⟩

/-! ## What cannot fail -/

theorem FailsOnly.logMessage (level : Level) (message : String) :
    FailsOnly K (logMessage level message) :=
  .modify _

theorem FailsOnly.notice (line : String) : FailsOnly K (notice line) :=
  .modify _

theorem FailsOnly.logTimes (level : Level) (message : String) (n : Nat) :
    FailsOnly K (logTimes level message n) := by
  induction n with
  | zero => exact .pure ()
  | succ n ih => exact .bind (.logMessage level message) fun _ => ih

theorem FailsOnly.isThere (path : String) : FailsOnly K (isThere path) :=
  .of_result fun _ => ⟨_, _, rfl⟩

theorem FailsOnly.disk : FailsOnly K disk :=
  .of_result fun _ => ⟨_, _, rfl⟩

theorem FailsOnly.workingPath : FailsOnly K workingPath :=
  .of_result fun _ => ⟨_, _, rfl⟩

theorem FailsOnly.environmentValue? (name : String) : FailsOnly K (environmentValue? name) :=
  .of_result fun _ => ⟨_, _, rfl⟩

/-! ## Files -/

/-- The operation fails with nothing but what counts as unreadable. -/
abbrev FailsUnreadable (op : Operation α) : Prop :=
  FailsOnly (fun e => e.isUnreadable = true) op

theorem failsUnreadable_ofDisk (r : Except Disk.Refusal α) : FailsUnreadable (ofDisk r) := by
  cases r with
  | ok a => exact .pure a
  | error refusal => exact .throw rfl

theorem failsUnreadable_changeDisk (change : Disk → Except Disk.Refusal Disk) :
    FailsUnreadable (changeDisk change) := by
  refine .bind .disk fun d => ?_
  exact .bind (failsUnreadable_ofDisk _) fun _ => .modify _

theorem failsUnreadable_readBytes (path : String) : FailsUnreadable (readBytes path) :=
  .bind .disk fun _ => failsUnreadable_ofDisk _

theorem failsUnreadable_readText (path : String) : FailsUnreadable (readText path) := by
  refine .bind (failsUnreadable_readBytes path) fun bytes => ?_
  split
  · exact .pure _
  · exact .throw rfl

end Operation

end ThemeLocales
