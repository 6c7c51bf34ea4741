import ThemeLocales.World
import ThemeLocales.Proofs.Disk.Frame

/-!
# Reasoning about operations

`Ends P op Q F` is a triple for an operation that may fail: from a world with `P` a result leaves a
world with `Q`, and a failure leaves one with `F`, which may speak of the failure. `Meets P op Q E`
is the case where it does not matter which failure it is, and `Maintains I op` that of an invariant.
The rules below follow the ways in which operations are put together.

A world keeps a set of places when its disk does, its journal stays and no answer is lost. A
property that only looks at such places is `Framed`, and operations that write elsewhere maintain
it.
-/

set_option autoImplicit false

namespace ThemeLocales

/-- A world after something happened has the files at some places, the directories, the journal and
the answers of the world before it. -/
structure World.Keeps (S : List String → Prop) (w w' : World) : Prop where
  disk : w.disk.Keeps S w'.disk
  journal : w'.journal = w.journal
  answers : w.answers <+: w'.answers

/-- The journal of a world writes to none of some places. -/
def World.Apart (S : List String → Prop) (w : World) : Prop :=
  ∀ path, w.journal.file = some path → ¬ S (w.disk.placeOf path)

namespace World

variable {S : List String → Prop} {w w' w'' : World}

theorem Keeps.refl (S : List String → Prop) (w : World) : w.Keeps S w :=
  ⟨.refl S w.disk, rfl, List.prefix_rfl⟩

theorem Keeps.trans (h : w.Keeps S w') (h' : w'.Keeps S w'') : w.Keeps S w'' :=
  ⟨h.disk.trans h'.disk, h'.journal.trans h.journal, h.answers.trans h'.answers⟩

theorem Keeps.mono {T : List String → Prop} (h : w.Keeps S w')
    (hT : ∀ place, T place → S place) : w.Keeps T w' :=
  ⟨h.disk.mono hT, h.journal, h.answers⟩

theorem Apart.mono {T : List String → Prop} (h : w.Apart S)
    (hT : ∀ place, T place → S place) : w.Apart T :=
  fun path hpath hplace => h path hpath (hT _ hplace)

/-- What the journal writes to stays the same where places are kept. -/
theorem Keeps.apart {T : List String → Prop} (h : w.Keeps S w') (hw : w.Apart T) : w'.Apart T := by
  intro path hpath
  rw [h.journal] at hpath
  rw [h.disk.placeOf]
  exact hw path hpath

/-- A record changes the disk, if at all, by a line at the end of the journal's file. -/
theorem logged_disk (w : World) (r : LogRecord) : (w.logged r).disk = w.disk ∨
    ∃ path line, w.journal.file = some path ∧ (w.logged r).disk = w.disk.appendLine path line := by
  cases hline : w.journal.fileLine? r with
  | none =>
    refine Or.inl ?_
    simp only [logged, hline]
  | some pair =>
    obtain ⟨path, line⟩ := pair
    refine Or.inr ⟨path, line, ?_, by simp only [logged, hline]⟩
    unfold Journal.fileLine? at hline
    split_ifs at hline
    obtain ⟨_, hfile, hpair⟩ := Option.map_eq_some_iff.1 hline
    rw [hfile, (Prod.mk.inj hpair).1]

/-- A record keeps all places that the journal does not write to. -/
theorem keeps_logged (h : w.Apart S) (r : LogRecord) : w.Keeps S (w.logged r) := by
  refine ⟨?_, rfl, List.prefix_rfl⟩
  rcases logged_disk w r with hdisk | ⟨path, line, hfile, hdisk⟩
  · rw [hdisk]
    exact .refl S w.disk
  · rw [hdisk]
    refine (Disk.keeps_appendLine w.disk path line).mono fun place hplace heq => ?_
    exact h path hfile (heq ▸ hplace)

/-- A changed disk that keeps places gives a world that keeps them. -/
theorem Keeps.of_disk {d : Disk} (h : w.disk.Keeps S d) : w.Keeps S { w with disk := d } :=
  ⟨h, rfl, List.prefix_rfl⟩

/-- A changed disk with the same directories does not bring the journal nearer. -/
theorem Apart.of_disk {T : List String → Prop} {d : Disk} (h : w.Apart T)
    (hd : w.disk.Keeps S d) : ({ w with disk := d } : World).Apart T := by
  intro path hpath
  rw [hd.placeOf]
  exact h path hpath

/-- A property of worlds that only looks at some places, to which no record is written. -/
structure Framed (S : List String → Prop) (I : World → Prop) : Prop where
  apart : ∀ w, I w → w.Apart S
  keeps : ∀ w w', I w → w.Keeps S w' → I w'

/-- A framed property survives a record. -/
theorem Framed.logged {I : World → Prop} (h : Framed S I) {w : World} (hw : I w)
    (r : LogRecord) : I (w.logged r) :=
  h.keeps w _ hw (keeps_logged (h.apart w hw) r)

/-- A framed property survives a change of the disk that keeps the places. -/
theorem Framed.disk {I : World → Prop} (h : Framed S I) {w : World} {d : Disk} (hw : I w)
    (hd : w.disk.Keeps S d) : I { w with disk := d } :=
  h.keeps w _ hw (.of_disk hd)

/-- A property that lasts while the places are kept may go with a framed one. -/
theorem Framed.and {I P : World → Prop} (h : Framed S I)
    (hP : ∀ w w', w.Keeps S w' → P w → P w') : Framed S fun w => I w ∧ P w :=
  ⟨fun w hw => h.apart w hw.1, fun w w' hw hk => ⟨h.keeps w w' hw.1 hk, hP w w' hk hw.2⟩⟩

/-- A fact that does not speak of the world may go with a framed property. -/
theorem Framed.and_left {I : World → Prop} (h : Framed S I) (p : Prop) :
    Framed S fun w => p ∧ I w :=
  ⟨fun w hw => h.apart w hw.2, fun w w' hw hk => ⟨hw.1, h.keeps w w' hw.2 hk⟩⟩

end World

namespace Operation

variable {α β : Type}

/-- From a world with `P`, a result of the operation leaves `Q` and a failure leaves `F`, which may
speak of the failure. -/
structure Ends (P : World → Prop) (op : Operation α) (Q : α → World → Prop)
    (F : Failure → World → Prop) : Prop where
  outcome : ∀ w, P w → match op.runIn w with
    | (.ok a, w') => Q a w'
    | (.error e, w') => F e w'

/-- From a world with `P`, a result of the operation leaves `Q` and any failure leaves `E`. -/
abbrev Meets (P : World → Prop) (op : Operation α) (Q : α → World → Prop)
    (E : World → Prop) : Prop :=
  Ends P op Q fun _ => E

/-- The operation keeps an invariant, whether it fails or not. -/
def Maintains (I : World → Prop) (op : Operation α) : Prop :=
  Meets I op (fun _ => I) I

variable {P P' I E E' : World → Prop} {F F' : Failure → World → Prop} {op : Operation α}
  {Q Q' : α → World → Prop}

/-- A sequence succeeds when both parts do. -/
theorem runIn_bind_eq_ok {f : α → Operation β} {w w' : World} {b : β} :
    (op >>= f).runIn w = (.ok b, w') ↔
      ∃ a w₁, op.runIn w = (.ok a, w₁) ∧ (f a).runIn w₁ = (.ok b, w') := by
  change ExceptT.bindCont f (op.runIn w).1 (op.runIn w).2 = _ ↔ _
  rcases hop : op.runIn w with ⟨_ | a, w₁⟩
  · constructor
    · intro h
      cases h
    · rintro ⟨a, w₂, h, -⟩
      cases h
  · constructor
    · exact fun h => ⟨a, w₁, rfl, h⟩
    · rintro ⟨a', w₂, h, hf⟩
      cases h
      exact hf

/-- A sequence goes on from where its first part ends. -/
theorem runIn_bind_of_ok {f : α → Operation β} {w w₁ : World} {a : α}
    (h : op.runIn w = (.ok a, w₁)) : (op >>= f).runIn w = (f a).runIn w₁ := by
  change ExceptT.bindCont f (op.runIn w).1 (op.runIn w).2 = _
  rw [h]
  rfl

/-- A sequence fails where its first part fails. -/
theorem runIn_bind_of_error {f : α → Operation β} {w w₁ : World} {e : Failure}
    (h : op.runIn w = (.error e, w₁)) : (op >>= f).runIn w = (.error e, w₁) := by
  change ExceptT.bindCont f (op.runIn w).1 (op.runIn w).2 = _
  rw [h]
  rfl

/-- What an operation comes to is the result of attempting it. -/
theorem runIn_attempt {w w' : World} {outcome : Except Failure α}
    (h : op.runIn w = (outcome, w')) : (attempt op).runIn w = (.ok outcome, w') := by
  change (Except.ok (op.runIn w).1, (op.runIn w).2) = _
  rw [h]

/-- A sequence that starts by looking at the world goes on with it. -/
theorem runIn_get_bind (f : World → Operation β) (w : World) :
    ((get : Operation World) >>= f).runIn w = (f w).runIn w := rfl

/-- A sequence that starts by changing the world goes on from there. -/
theorem runIn_modify_bind (change : World → World) (f : Unit → Operation β) (w : World) :
    ((modify change : Operation Unit) >>= f).runIn w = (f ()).runIn (change w) := rfl

/-- A sequence that starts with a result goes on with it. -/
theorem runIn_ofResult_bind {r : Except Failure α} {a : α} (h : r = .ok a)
    (f : α → Operation β) (w : World) : (ofResult r >>= f).runIn w = (f a).runIn w := by
  rw [h]
  rfl

theorem runIn_ofResult_bind_error {r : Except Failure α} {e : Failure} (h : r = .error e)
    (f : α → Operation β) (w : World) : (ofResult r >>= f).runIn w = (.error e, w) := by
  rw [h]
  rfl

/-- A change of the disk is made as it is, or refused. -/
theorem runIn_changeDisk (change : Disk → Except Disk.Refusal Disk) (w : World) :
    (changeDisk change).runIn w = match change w.disk with
      | .ok d => (.ok (), { w with disk := d })
      | .error refusal => (.error (.disk refusal), w) := by
  change ((ofDisk (change w.disk) >>= fun d => modify fun w => { w with disk := d }) :
    Operation Unit).runIn w = _
  cases change w.disk <;> rfl

theorem Ends.of_ok (h : Ends P op Q F) {w w' : World} {a : α} (hw : P w)
    (hrun : op.runIn w = (.ok a, w')) : Q a w' := by
  have := h.outcome w hw
  rwa [hrun] at this

theorem Ends.of_error (h : Ends P op Q F) {w w' : World} {e : Failure} (hw : P w)
    (hrun : op.runIn w = (.error e, w')) : F e w' := by
  have := h.outcome w hw
  rwa [hrun] at this

/-- An operation that cannot fail yields a result. -/
theorem Meets.exists_ok (h : Meets P op Q fun _ => False) {w : World} (hw : P w) :
    ∃ a w', op.runIn w = (.ok a, w') ∧ Q a w' := by
  have := h.outcome w hw
  split at this
  · next a w' hrun => exact ⟨a, w', hrun, this⟩
  · exact this.elim

/-- What holds after a result and after a failure holds after the operation. -/
theorem Meets.run (h : Meets P op Q E) {R : World → Prop} {w : World} (hw : P w)
    (hQ : ∀ a w', Q a w' → R w') (hE : ∀ w', E w' → R w') : R (op.runIn w).2 := by
  have := h.outcome w hw
  split at this
  · next hrun => rw [hrun]; exact hQ _ _ this
  · next hrun => rw [hrun]; exact hE _ this

theorem Ends.mono (h : Ends P op Q F) (hP : ∀ w, P' w → P w) (hQ : ∀ a w, Q a w → Q' a w)
    (hF : ∀ e w, F e w → F' e w) : Ends P' op Q' F' := by
  refine ⟨fun w hw => ?_⟩
  have := h.outcome w (hP w hw)
  split at this
  · exact hQ _ _ this
  · exact hF _ _ this

theorem Meets.mono (h : Meets P op Q E) (hP : ∀ w, P' w → P w) (hQ : ∀ a w, Q a w → Q' a w)
    (hE : ∀ w, E w → E' w) : Meets P' op Q' E' :=
  Ends.mono h hP hQ fun _ => hE

theorem Ends.pure (a : α) (h : ∀ w, P w → Q a w) : Ends P (Pure.pure a) Q F :=
  ⟨fun w hw => h w hw⟩

theorem Ends.throw (e : Failure) (h : ∀ w, P w → F e w) : Ends P (MonadExcept.throw e) Q F :=
  ⟨fun w hw => h w hw⟩

theorem Ends.bind {f : α → Operation β} {R : β → World → Prop} (h : Ends P op Q F)
    (hf : ∀ a, Ends (Q a) (f a) R F) : Ends P (op >>= f) R F := by
  refine ⟨fun w hw => ?_⟩
  have := h.outcome w hw
  change match ExceptT.bindCont f (op.runIn w).1 (op.runIn w).2 with
    | (.ok a, w') => R a w'
    | (.error e, w') => F e w'
  split at this
  · next hrun => rw [hrun]; exact (hf _).outcome _ this
  · next hrun => rw [hrun]; exact this

/-- What two rules say of an operation holds together. -/
theorem Ends.and (h : Ends P op Q F) (h' : Ends P' op Q' F') :
    Ends (fun w => P w ∧ P' w) op (fun a w => Q a w ∧ Q' a w) fun e w => F e w ∧ F' e w := by
  refine ⟨fun w hw => ?_⟩
  have hfirst := h.outcome w hw.1
  have hsecond := h'.outcome w hw.2
  split at hfirst
  · next hrun =>
    rw [hrun] at hsecond
    exact ⟨hfirst, hsecond⟩
  · next hrun =>
    rw [hrun] at hsecond
    exact ⟨hfirst, hsecond⟩

/-- What an operation yields was yielded by a run of it. -/
theorem Ends.from (h : Ends P op Q F) :
    Ends P op (fun a w' => Q a w' ∧ ∃ w, P w ∧ op.runIn w = (.ok a, w')) F := by
  refine ⟨fun w hw => ?_⟩
  have := h.outcome w hw
  split at this
  · next hrun => exact ⟨this, w, hw, hrun⟩
  · exact this

/-- A precondition may be checked for one world at a time. -/
theorem Ends.of_forall (h : ∀ w₀, P w₀ → Ends (· = w₀) op Q F) : Ends P op Q F :=
  ⟨fun w hw => (h w hw).outcome w rfl⟩

/-- A precondition may be checked for one case at a time. -/
theorem Ends.of_exists {ι : Type} {C : ι → World → Prop} (h : ∀ i, Ends (C i) op Q F) :
    Ends (fun w => ∃ i, C i w) op Q F := by
  refine ⟨fun w hw => ?_⟩
  obtain ⟨i, hi⟩ := hw
  exact (h i).outcome w hi

/-- A fact that does not speak of the world can be taken out of a precondition. -/
theorem Ends.of_and {p : Prop} (h : p → Ends P op Q F) : Ends (fun w => p ∧ P w) op Q F :=
  ⟨fun w hw => (h hw.1).outcome w hw.2⟩

/-- A fact that does not speak of the world may go with an invariant. -/
theorem Maintains.and_left {p : Prop} (h : p → Maintains I op) :
    Maintains (fun w => p ∧ I w) op :=
  .of_and fun hp => (h hp).mono (fun _ hw => hw) (fun _ _ hw => ⟨hp, hw⟩) fun _ hw => ⟨hp, hw⟩

theorem Ends.modify {f : World → World} {R : Unit → World → Prop}
    (h : ∀ w, P w → R () (f w)) :
    Ends P (modifyThe World fun w => f w : Operation Unit) R F :=
  ⟨fun w hw => h w hw⟩

/-- Looking at the disk changes nothing. -/
theorem Ends.disk {R : Disk → World → Prop} (h : ∀ w, P w → R w.disk w) : Ends P disk R F :=
  ⟨fun w hw => h w hw⟩

theorem Ends.isThere {R : Bool → World → Prop} {path : String}
    (h : ∀ w, P w → R (w.disk.isThere path) w) : Ends P (isThere path) R F :=
  ⟨fun w hw => h w hw⟩

theorem Ends.ofDisk {r : Except Disk.Refusal α} (hQ : ∀ a w, P w → r = .ok a → Q a w)
    (hF : ∀ e w, P w → r = .error e → F (.disk e) w) : Ends P (ofDisk r) Q F := by
  cases r with
  | ok a => exact .pure a fun w hw => hQ a w hw rfl
  | error refusal => exact .throw _ fun w hw => hF refusal w hw rfl

theorem Ends.ofResult {r : Except Failure α} (hQ : ∀ a w, P w → r = .ok a → Q a w)
    (hF : ∀ e w, P w → F e w) : Ends P (ofResult r) Q F := by
  cases r with
  | ok a => exact .pure a fun w hw => hQ a w hw rfl
  | error e => exact .throw _ (hF e)

/-- A change of the disk that is refused changes nothing. -/
theorem Ends.changeDisk {change : Disk → Except Disk.Refusal Disk} {R : Unit → World → Prop}
    (hR : ∀ w d, P w → change w.disk = .ok d → R () { w with disk := d })
    (hF : ∀ w e, P w → change w.disk = .error e → F (.disk e) w) :
    Ends P (changeDisk change) R F := by
  refine .bind (.disk (R := fun d w => P w ∧ w.disk = d) fun w hw => ⟨hw, rfl⟩) fun d => ?_
  refine .bind (.ofDisk (Q := fun d' w => P w ∧ change w.disk = .ok d') ?_ ?_) fun d' => ?_
  · rintro d' w ⟨hw, rfl⟩ hchange
    exact ⟨hw, hchange⟩
  · rintro e w ⟨hw, rfl⟩ hchange
    exact hF w e hw hchange
  · exact .modify fun w hw => hR w d' hw.1 hw.2

theorem Ends.attempt {R : Except Failure α → World → Prop}
    (h : Ends P op (fun a => R (.ok a)) fun e => R (.error e)) : Ends P (attempt op) R F := by
  refine ⟨fun w hw => ?_⟩
  have := h.outcome w hw
  change R (op.runIn w).1 (op.runIn w).2
  split at this
  · next hrun => rw [hrun]; exact this
  · next hrun => rw [hrun]; exact this

/-- What is known grows with each element that was worked on. -/
theorem Ends.mapM {J : List α → World → Prop} {f : α → Operation β} {xs : List α}
    (h : ∀ done, ∀ x ∈ xs, Ends (J done) (f x) (fun _ => J (x :: done)) F) (done : List α) :
    Ends (J done) (xs.mapM f) (fun _ => J (xs.reverse ++ done)) F := by
  induction xs generalizing done with
  | nil => exact .pure _ fun _ h => h
  | cons x rest ih =>
    rw [List.mapM_cons, List.reverse_cons, List.append_assoc]
    refine .bind (h done x List.mem_cons_self) fun _ => ?_
    have hrest := ih (fun done y hy => h done y (List.mem_cons_of_mem _ hy)) (x :: done)
    refine .bind hrest fun _ => ?_
    exact .pure _ fun _ h => h

theorem Maintains.mapM {f : α → Operation β} {xs : List α} (h : ∀ x ∈ xs, Maintains I (f x)) :
    Maintains I (xs.mapM f) := by
  induction xs with
  | nil => exact .pure _ fun _ h => h
  | cons x rest ih =>
    rw [List.mapM_cons]
    refine .bind (h x List.mem_cons_self) fun _ => ?_
    refine .bind (ih fun y hy => h y (List.mem_cons_of_mem _ hy)) fun _ => ?_
    exact .pure _ fun _ h => h

/-- An operation that never fails. -/
theorem Meets.succeeds (h : Meets P op Q fun _ => False) : Ends P op Q F :=
  Ends.mono h (fun _ hw => hw) (fun _ _ hw => hw) fun _ _ hw => hw.elim

/-- Two operations do the same in worlds with a property. -/
def SameOn (P : World → Prop) (op op' : Operation α) : Prop :=
  ∀ w, P w → op.runIn w = op'.runIn w

theorem SameOn.refl (P : World → Prop) (op : Operation α) : SameOn P op op :=
  fun _ _ => rfl

theorem SameOn.bind {op op' : Operation α} {f f' : α → Operation β} (hop : SameOn P op op')
    (hmeets : Meets P op Q E) (hf : ∀ a, SameOn (Q a) (f a) (f' a)) :
    SameOn P (op >>= f) (op' >>= f') := by
  intro w hw
  have hQ := hmeets.outcome w hw
  change ExceptT.bindCont f (op.runIn w).1 (op.runIn w).2 =
    ExceptT.bindCont f' (op'.runIn w).1 (op'.runIn w).2
  rw [← hop w hw]
  split at hQ
  · next hrun =>
    rw [hrun]
    exact hf _ _ hQ
  · next hrun => rw [hrun]; rfl

theorem SameOn.mapM {f f' : α → Operation β} {xs : List α}
    (hf : ∀ x ∈ xs, SameOn P (f x) (f' x)) (hmeets : ∀ x ∈ xs, Meets P (f x) (fun _ => P) E) :
    SameOn P (xs.mapM f) (xs.mapM f') := by
  induction xs with
  | nil => exact .refl P _
  | cons x rest ih =>
    rw [List.mapM_cons, List.mapM_cons]
    refine .bind (hf x List.mem_cons_self) (hmeets x List.mem_cons_self) fun _ => ?_
    have hrest : Meets P (rest.mapM f) (fun _ => P) E :=
      Ends.mapM (J := fun _ => P) (fun _ y hy => hmeets y (List.mem_cons_of_mem x hy)) []
    refine .bind (ih (fun y hy => hf y (List.mem_cons_of_mem x hy))
      fun y hy => hmeets y (List.mem_cons_of_mem x hy)) hrest fun _ => ?_
    exact .refl P _

end Operation

end ThemeLocales
