/-
Registering jobs. A call looks its name up, builds the job, hands it to the scheduler underneath and enters the name, and
other calls run between these: two of one name that look it up before either has entered it are both scheduled.
-/
import Genzh.Lib.Interleaving

namespace Genzh.Cron.Registration

open Genzh.Lib

/-- Something went wrong scheduling a job. -/
inductive CronSchedulerError where
  /-- The scheduler underneath refused. -/
  | backend
  /-- Two jobs claimed the same name. -/
  | duplicateJob (name : String)
  deriving DecidableEq, Repr

/-- A job to register, and what the scheduler underneath makes of it: whether it can be built with its schedule, and
whether it is added. -/
structure CronJob where
  name : String
  built : Bool
  added : Bool
  deriving DecidableEq, Repr

/-- The names that are entered, and whose jobs the scheduler underneath has. -/
structure CronScheduler (I : Type*) where
  jobs : List String
  scheduled : List I

/-- How far a call has come. -/
inductive Register where
  | checking
  /-- The name was not there. -/
  | building
  | adding
  /-- The job is scheduled; its name is entered next. -/
  | entering
  | finished (outcome : Except CronSchedulerError Unit)
  deriving DecidableEq

namespace Register

/-- Has the call passed its check, and not failed? -/
def holds : Register → Bool
  | building | adding | entering | finished (.ok _) => true
  | checking | finished (.error _) => false

/-- Is it on its way from the check to entering the name? -/
def onItsWay : Register → Bool
  | building | adding | entering => true
  | checking | finished _ => false

/-- Has the job of the call been scheduled? -/
def placed : Register → Bool
  | entering | finished (.ok _) => true
  | checking | building | adding | finished (.error _) => false

end Register

section Calls

variable {I : Type*}

/-- The next operation of a call. A job that the scheduler underneath refuses is not scheduled. -/
def advance (job : I → CronJob) (i : I) : Register → CronScheduler I → Register × CronScheduler I
  | .checking, s => (if (job i).name ∈ s.jobs then .finished (.error (.duplicateJob (job i).name)) else .building, s)
  | .building, s => (if (job i).built then .adding else .finished (.error .backend), s)
  | .adding, s => if (job i).added then (.entering, { s with scheduled := i :: s.scheduled }) else (.finished (.error .backend), s)
  | .entering, s => (.finished (.ok ()), { s with jobs := (job i).name :: s.jobs })
  | .finished outcome, s => (.finished outcome, s)

abbrev Calls (I : Type*) := System (CronScheduler I) I Register

/-- A new scheduler, and calls that have not begun. -/
def begin : Calls I := ⟨⟨[], []⟩, fun _ => .checking⟩

variable [DecidableEq I]

/-- The operation of the call whose turn it is. -/
def step (job : I → CronJob) (σ : Calls I) (i : I) : Calls I :=
  System.step (advance job) (fun (_ : Empty) s => s) σ (.turn i)

/-- At most one job of a name is scheduled. -/
def Once (job : I → CronJob) (σ : Calls I) : Prop :=
  ∀ name, (σ.store.scheduled.filter fun i => (job i).name = name).length ≤ 1

/-- A call that reports a duplicate or an error has left nothing scheduled. -/
def LeavesNothing (σ : Calls I) : Prop := ∀ i e, σ.calls i = .finished (.error e) → i ∉ σ.store.scheduled

/-- No call passes its check while another of the same name is on its way. -/
def Undisturbed (job : I → CronJob) (σ : Calls I) (i : I) : Prop :=
  σ.calls i = .checking → (job i).name ∉ σ.store.jobs → ∀ j, (job j).name = (job i).name → (σ.calls j).onItsWay = false

/-! ## One operation -/

/-- What is scheduled is the jobs of the calls that have come so far, each once. -/
structure Placed (σ : Calls I) : Prop where
  scheduled : ∀ i, i ∈ σ.store.scheduled ↔ (σ.calls i).placed = true
  nodup : σ.store.scheduled.Nodup

/-- Of the calls of one name at most one has passed its check without failing, and the name of one that has ended so is
entered. -/
structure Alone (job : I → CronJob) (σ : Calls I) : Prop where
  single : ∀ i j, (σ.calls i).holds = true → (σ.calls j).holds = true → (job i).name = (job j).name → i = j
  entered : ∀ i, σ.calls i = .finished (.ok ()) → (job i).name ∈ σ.store.jobs

variable {job : I → CronJob} {σ : Calls I} {i j : I}

theorem calls_step_self : (step job σ i).calls i = (advance job i (σ.calls i) σ.store).1 := System.calls_turn_self ..

theorem calls_step_of_ne (h : j ≠ i) : (step job σ i).calls j = σ.calls j := System.calls_turn_of_ne σ i j h

theorem placed_step (h : Placed σ) (i : I) : Placed (step job σ i) := by
  have hother : ∀ j, j ≠ i → ((step job σ i).calls j).placed = (σ.calls j).placed := fun j hj => by rw [calls_step_of_ne hj]
  -- an operation that schedules nothing leaves its own call as far as it was
  have hsame : (advance job i (σ.calls i) σ.store).2.scheduled = σ.store.scheduled →
      (advance job i (σ.calls i) σ.store).1.placed = (σ.calls i).placed → Placed (step job σ i) := by
    intro hstore hcall
    have hscheduled : (step job σ i).store.scheduled = σ.store.scheduled := hstore
    refine ⟨fun j => ?_, by rw [hscheduled]; exact h.nodup⟩
    rw [hscheduled, h.scheduled]
    by_cases hj : j = i
    · subst hj
      rw [calls_step_self, hcall]
    · rw [hother j hj]
  rcases hc : σ.calls i with _ | _ | _ | _ | outcome
  · refine hsame (by rw [hc]; rfl) ?_
    rw [hc]
    simp only [advance]
    split <;> rfl
  · refine hsame (by rw [hc]; rfl) ?_
    rw [hc]
    simp only [advance]
    split <;> rfl
  · by_cases hadded : (job i).added = true
    · have hnew : i ∉ σ.store.scheduled := by
        rw [h.scheduled, hc]
        exact Bool.false_ne_true
      have hstore : (step job σ i).store.scheduled = i :: σ.store.scheduled := by
        show (advance job i (σ.calls i) σ.store).2.scheduled = _
        rw [hc]
        simp [advance, hadded]
      refine ⟨fun j => ?_, by rw [hstore]; exact List.nodup_cons.2 ⟨hnew, h.nodup⟩⟩
      rw [hstore, List.mem_cons]
      by_cases hj : j = i
      · subst hj
        rw [calls_step_self, hc]
        simp [advance, hadded, Register.placed]
      · rw [hother j hj, h.scheduled]
        simp [hj]
    · refine hsame ?_ ?_ <;> rw [hc] <;> simp [advance, hadded, Register.placed]
  · refine hsame (by rw [hc]; rfl) (by rw [hc]; rfl)
  · refine hsame (by rw [hc]; rfl) (by rw [hc]; rfl)

/-- A name that is entered stays so. -/
theorem mem_jobs_step (i : I) {name : String} (h : name ∈ σ.store.jobs) : name ∈ (step job σ i).store.jobs := by
  show name ∈ (advance job i (σ.calls i) σ.store).2.jobs
  rcases hc : σ.calls i with _ | _ | _ | _ | outcome
  · exact h
  · exact h
  · simp only [advance]
    split <;> exact h
  · exact List.mem_cons_of_mem _ h
  · exact h

omit [DecidableEq I] in
/-- A call that is neither on its way nor done with its name entered has not passed its check, or has failed. -/
theorem holds_eq_false (h : Alone job σ) (hway : (σ.calls j).onItsWay = false) (hname : (job j).name ∉ σ.store.jobs) :
    (σ.calls j).holds = false := by
  rcases hc : σ.calls j with _ | _ | _ | _ | e | u
  · rfl
  · cases hc ▸ hway
  · cases hc ▸ hway
  · cases hc ▸ hway
  · rfl
  · exact absurd (h.entered j hc) hname

omit [DecidableEq I] in
/-- Whoever holds the name after an operation held it before, but for a check that was passed, with nobody else there. -/
theorem held_before (h : Alone job σ) (hcond : Undisturbed job σ i) (hnew : (advance job i (σ.calls i) σ.store).1.holds = true) :
    (σ.calls i).holds = true ∨ ∀ j, j ≠ i → (job j).name = (job i).name → (σ.calls j).holds = false := by
  rcases hc : σ.calls i with _ | _ | _ | _ | outcome
  · right
    rintro j hj hname
    by_cases hin : (job i).name ∈ σ.store.jobs
    · rw [hc] at hnew
      simp [advance, hin, Register.holds] at hnew
    · exact holds_eq_false h (hcond hc hin j hname) (hname ▸ hin)
  · exact .inl rfl
  · exact .inl rfl
  · exact .inl rfl
  · left
    rw [hc] at hnew
    exact hnew

/-- A call that passes its check undisturbed is the only one of its name. -/
theorem alone_step (h : Alone job σ) (i : I) (hcond : Undisturbed job σ i) : Alone job (step job σ i) := by
  constructor
  · intro j k hj hk hname
    by_cases hji : j = i
    · by_cases hki : k = i
      · rw [hji, hki]
      · subst hji
        rw [calls_step_self] at hj
        rw [calls_step_of_ne hki] at hk
        rcases held_before h hcond hj with hwas | hnone
        · exact h.single j k hwas hk hname
        · rw [hnone k hki hname.symm] at hk
          cases hk
    · rw [calls_step_of_ne hji] at hj
      by_cases hki : k = i
      · subst hki
        rw [calls_step_self] at hk
        rcases held_before h hcond hk with hwas | hnone
        · exact h.single j k hj hwas hname
        · rw [hnone j hji hname] at hj
          cases hj
      · rw [calls_step_of_ne hki] at hk
        exact h.single j k hj hk hname
  · intro j hj
    by_cases hji : j = i
    · subst hji
      rw [calls_step_self] at hj
      show (job j).name ∈ (advance job j (σ.calls j) σ.store).2.jobs
      rcases hc : σ.calls j with _ | _ | _ | _ | outcome
      · rw [hc] at hj
        simp only [advance] at hj
        split at hj <;> cases hj
      · rw [hc] at hj
        simp only [advance] at hj
        split at hj <;> cases hj
      · rw [hc] at hj
        simp only [advance] at hj
        split at hj <;> cases hj
      · exact List.mem_cons_self
      · rw [hc] at hj
        cases hj
        exact h.entered j hc
    · rw [calls_step_of_ne hji] at hj
      exact mem_jobs_step i (h.entered j hj)

/-! ## Over a run -/

theorem placed_holds {c : Register} (h : c.placed = true) : c.holds = true := by
  rcases c with _ | _ | _ | _ | e | u
  · cases h
  · cases h
  · cases h
  · rfl
  · cases h
  · rfl

omit [DecidableEq I] in
theorem once_of_alone (hp : Placed σ) (h : Alone job σ) : Once job σ := by
  intro name
  have hnodup : (σ.store.scheduled.filter fun i => (job i).name = name).Nodup := hp.nodup.filter _
  rcases hl : σ.store.scheduled.filter (fun i => (job i).name = name) with _ | ⟨i, _ | ⟨j, rest⟩⟩
  · simp
  · simp
  · have hmem : ∀ k ∈ i :: j :: rest, (σ.calls k).holds = true ∧ (job k).name = name := by
      intro k hk
      rw [← hl, List.mem_filter, hp.scheduled] at hk
      exact ⟨placed_holds hk.1, by simpa using hk.2⟩
    obtain ⟨hi, hni⟩ := hmem i (by simp)
    obtain ⟨hj, hnj⟩ := hmem j (by simp)
    obtain rfl := h.single i j hi hj (hni.trans hnj.symm)
    rw [hl] at hnodup
    simp at hnodup

/-- In every run, whoever reports a duplicate or an error has left nothing scheduled; and in every run in which no call
passes its check while another of the same name is on its way, at most one job of a name is ever scheduled. -/
theorem scheduled_once (job : I → CronJob) (turns : List I) :
    Always (step job) LeavesNothing begin turns ∧
      (Along (step job) (Undisturbed job) begin turns → Always (step job) (Once job) begin turns) := by
  have hplaced : Placed (begin : Calls I) := ⟨fun i => by simp [begin, Register.placed], List.nodup_nil⟩
  have halone : Alone job (begin : Calls I) := ⟨fun i j hi => (by cases hi), fun i hi => (by cases hi)⟩
  constructor
  · refine (always_of_step (I := Placed) (fun σ i h => placed_step h i) hplaced).mono fun σ h i e he hin => ?_
    rw [h.scheduled, he] at hin
    cases hin
  · intro hrun
    have hboth := always_of_along (I := fun σ : Calls I => Placed σ ∧ Alone job σ)
      (fun σ i h hcond => ⟨placed_step h.1 i, alone_step h.2 i hcond⟩) ⟨hplaced, halone⟩ hrun
    exact hboth.mono fun σ h => once_of_alone h.1 h.2

end Calls

/-! ## Two at once -/

/-- Two jobs of one name that nothing is wrong with. -/
def counting (_ : Bool) : CronJob := ⟨"counting", true, true⟩

/-- Both look the name up before either has entered it, and both are scheduled. -/
theorem both_scheduled : ¬ Always (step counting) (Once counting) begin [false, true, false, false, true, true] := by
  intro h
  exact absurd (h.last "counting") (by decide)

/-- One after the other, the second is told of a duplicate. -/
example : (run (step counting) begin [false, false, false, false, true]).calls true =
    .finished (.error (.duplicateJob "counting")) := by decide

end Genzh.Cron.Registration
