/-
The barrier at shutdown. A scheduled run reads the flag, claims its slot, and reads the flag again before the job
starts; a manual run claims its slot and starts; a shutdown sets the flag and then waits until no slot is claimed. Each
of these is one atomic operation on the shared state, and the operations of different tasks interleave as they like.

`drained` is the barrier: once a shutdown has seen the count at zero, no scheduled job runs any more.
-/
import Genzh.Lib.Interleaving

namespace Genzh.Cron

open Genzh.Lib

/-- Whether the schedule is still running, and how much work is in flight. -/
structure RunState where
  stopped : Bool
  inFlight : Nat
  deriving DecidableEq, Repr

namespace RunState

def new : RunState := ⟨false, 0⟩

/-- Claim a slot. -/
def enter (s : RunState) : RunState := { s with inFlight := s.inFlight + 1 }

/-- Give it back. -/
def drop (s : RunState) : RunState := { s with inFlight := s.inFlight - 1 }

end RunState

/-! ## Tasks -/

/-- How far a scheduled run has come. -/
inductive Tick where
  | dispatched
  /-- The flag was not set. -/
  | admitted
  /-- A slot is claimed; the flag has to be read again. -/
  | claimed
  | running
  /-- The flag was set after all: the slot is given back. -/
  | skipping
  | done
  deriving DecidableEq, Repr

/-- How far a manual run has come. It is counted, but not gated. -/
inductive Manual where
  | asked
  | running
  | done
  deriving DecidableEq, Repr

/-- How far a shutdown has come. The scheduler underneath may refuse, and the wait is bounded: after `polls` more
looks at the count it gives up. -/
inductive Shutdown where
  | asked (backend : Bool) (polls : Nat)
  | stopping (backend : Bool) (polls : Nat)
  | draining (polls : Nat)
  | drained
  | timedOut
  | failed
  deriving DecidableEq, Repr

/-- One task of the process. -/
inductive Task where
  | tick (t : Tick)
  | manual (m : Manual)
  | shutdown (s : Shutdown)
  deriving DecidableEq, Repr

/-- Run a job on its schedule: one operation of `execute`. A job that returns or panics drops its guard. -/
def Tick.advance (s : RunState) : Tick → Tick × RunState
  | dispatched => (if s.stopped then done else admitted, s)
  | admitted => (claimed, s.enter)
  | claimed => (if s.stopped then skipping else running, s)
  | running | skipping => (done, s.drop)
  | done => (done, s)

/-- One operation of `run_now`. -/
def Manual.advance (s : RunState) : Manual → Manual × RunState
  | asked => (running, s.enter)
  | running => (done, s.drop)
  | done => (done, s)

/-- One operation of `shutdown`, its `drain` included: the flag first, then the scheduler underneath, then the wait. -/
def Shutdown.advance (s : RunState) : Shutdown → Shutdown × RunState
  | asked backend polls => (stopping backend polls, { s with stopped := true })
  | stopping backend polls => (if backend then draining polls else failed, s)
  | draining polls =>
    if 0 < s.inFlight then
      match polls with
      | 0 => (timedOut, s)
      | n + 1 => (draining n, s)
    else (drained, s)
  | drained => (drained, s)
  | timedOut => (timedOut, s)
  | failed => (failed, s)

def Task.advance (s : RunState) : Task → Task × RunState
  | tick t => ((t.advance s).map Task.tick id)
  | manual m => ((m.advance s).map Task.manual id)
  | shutdown d => ((d.advance s).map Task.shutdown id)

/-- Does the task hold a run guard? -/
def Task.holdsGuard : Task → Bool
  | tick .claimed | tick .running | tick .skipping | manual .running => true
  | _ => false

section Advance

variable {s : RunState} {t : Task}

/-- Has the shutdown made its first operation? -/
def Shutdown.begun : Shutdown → Bool
  | asked _ _ => false
  | _ => true

/-- The first operation of a shutdown sets the flag, and the others only read. -/
theorem Shutdown.store_advance (s : RunState) (d : Shutdown) :
    (d.advance s).2 = if d.begun then s else { s with stopped := true } := by
  cases d with
  | draining polls =>
    simp only [Shutdown.advance, Shutdown.begun, if_true]
    split
    · cases polls <;> rfl
    · rfl
  | _ => rfl

/-- The count goes up with a guard that is taken and down with one that is dropped. -/
theorem Task.inFlight_advance (s : RunState) (t : Task) :
    (t.advance s).2.inFlight =
      if t.holdsGuard = (t.advance s).1.holdsGuard then s.inFlight
      else if t.holdsGuard then s.inFlight - 1 else s.inFlight + 1 := by
  cases t with
  | tick t => cases t <;> cases h : s.stopped <;> simp [Task.advance, Tick.advance, Task.holdsGuard, RunState.enter, RunState.drop, h]
  | manual m => cases m <;> simp [Task.advance, Manual.advance, Task.holdsGuard, RunState.enter, RunState.drop]
  | shutdown d =>
    show (d.advance s).2.inFlight = s.inFlight
    rw [Shutdown.store_advance]
    split <;> rfl

/-- Nothing takes the flag back. -/
theorem Task.stopped_advance (h : s.stopped = true) : (t.advance s).2.stopped = true := by
  cases t with
  | tick t => cases t <;> exact h
  | manual m => cases m <;> exact h
  | shutdown d =>
    show (d.advance s).2.stopped = true
    rw [Shutdown.store_advance]
    split
    · exact h
    · rfl

/-- A shutdown that has begun has set the flag just now, or had begun before. -/
theorem Task.begun_advance {d : Shutdown} (h : (t.advance s).1 = .shutdown d) :
    (t.advance s).2.stopped = true ∨ ∃ d', t = .shutdown d' ∧ d'.begun = true := by
  cases t with
  | tick t => cases h
  | manual m => cases h
  | shutdown d' =>
    cases d' with
    | asked backend polls => exact .inl rfl
    | _ => exact .inr ⟨_, rfl, rfl⟩

/-- A job starts on its schedule only where the flag was found unset with a slot claimed. -/
theorem Task.running_advance (h : (t.advance s).1 = .tick .running) : s.stopped = false := by
  cases t with
  | tick t => cases t <;> cases hs : s.stopped <;> simp_all [Task.advance, Tick.advance]
  | manual m => cases h
  | shutdown d => cases h

/-- A shutdown reports that it drained only where it found no slot claimed. -/
theorem Task.drained_advance (h : (t.advance s).1 = .shutdown .drained) : t = .shutdown .drained ∨ s.inFlight = 0 := by
  cases t with
  | tick t => cases h
  | manual m => cases h
  | shutdown d =>
    cases d with
    | draining polls =>
      right
      by_contra hne
      have hpos : 0 < s.inFlight := Nat.pos_of_ne_zero hne
      cases polls <;> simp [Task.advance, Shutdown.advance, hpos] at h
    | stopping backend polls => cases backend <;> simp [Task.advance, Shutdown.advance] at h
    | drained => exact .inl rfl
    | _ => simp [Task.advance, Shutdown.advance] at h

end Advance

/-- What is to be run, or asked for. -/
inductive Job where
  | scheduled
  | runNow
  | stop (backend : Bool) (polls : Nat)
  deriving DecidableEq, Repr

/-- The task of it, before its first operation. -/
def Job.task : Job → Task
  | scheduled => .tick .dispatched
  | runNow => .manual .asked
  | stop backend polls => .shutdown (.asked backend polls)

/-! ## The barrier -/

section Barrier

variable {I : Type*}

/-- The scheduler with its tasks. -/
abbrev CronScheduler (I : Type*) := System RunState I Task

/-- The scheduler before any of its tasks has run. -/
def start (jobs : I → Job) : CronScheduler I := ⟨.new, fun i => (jobs i).task⟩

variable [DecidableEq I]

/-- The operation of the task whose turn it is; nothing else touches the state. -/
def step (σ : CronScheduler I) (i : I) : CronScheduler I := System.step (fun _ task s => task.advance s) (fun (_ : Empty) s => s) σ (.turn i)

variable [Fintype I]

/-- How many run guards are alive. -/
def guards (σ : CronScheduler I) : Nat := System.tally (fun t => t.holdsGuard = true) σ.calls

/-- What holds between any two operations. -/
structure Barrier (σ : CronScheduler I) : Prop where
  counted : σ.store.inFlight = guards σ
  /-- A shutdown that has begun has set the flag. -/
  flagged : ∀ i d, σ.calls i = .shutdown d → d.begun = true → σ.store.stopped = true
  /-- Once one has drained, no scheduled job is running. -/
  quiet : ∀ i j, σ.calls i = .shutdown .drained → σ.calls j ≠ .tick .running

omit [DecidableEq I] in
theorem barrier_start (jobs : I → Job) : Barrier (start jobs) where
  counted := by
    refine (System.tally_eq_zero fun i => ?_).symm
    show ¬ (jobs i).task.holdsGuard = true
    cases jobs i <;> simp [Job.task, Task.holdsGuard]
  flagged := fun i d hd hb => by
    change (jobs i).task = _ at hd
    cases hj : jobs i <;> rw [hj] at hd <;> cases hd
    cases hb
  quiet := fun i j hi => by
    change (jobs i).task = _ at hi
    cases hj : jobs i <;> rw [hj] at hi <;> cases hi

variable {σ : CronScheduler I}

theorem Barrier.counted_step (h : Barrier σ) (i : I) : (step σ i).store.inFlight = guards (step σ i) := by
  have hcount := Task.inFlight_advance σ.store (σ.calls i)
  show ((σ.calls i).advance σ.store).2.inFlight =
    System.tally (fun t => t.holdsGuard = true) (Function.update σ.calls i ((σ.calls i).advance σ.store).1)
  have hguards : σ.store.inFlight = System.tally (fun t => t.holdsGuard = true) σ.calls := h.counted
  by_cases hsame : (σ.calls i).holdsGuard = ((σ.calls i).advance σ.store).1.holdsGuard
  · rw [if_pos hsame] at hcount
    rw [hcount, hguards, System.tally_update_of_iff (by rw [hsame])]
  · rw [if_neg hsame] at hcount
    cases hheld : (σ.calls i).holdsGuard
    · rw [hheld] at hsame hcount
      rw [hcount, System.tally_update_of_new (by simpa using Ne.symm hsame) (by simp [hheld]), ← hguards]
      rfl
    · rw [hheld] at hsame hcount
      have hless : System.tally (fun t => t.holdsGuard = true) (Function.update σ.calls i ((σ.calls i).advance σ.store).1) + 1 =
          System.tally (fun t => t.holdsGuard = true) σ.calls := System.tally_update_of_old (by simpa using Ne.symm hsame) hheld
      rw [hcount, if_pos rfl]
      omega

theorem Barrier.step (h : Barrier σ) (i : I) : Barrier (step σ i) where
  counted := h.counted_step i
  flagged := fun j d hd hb => by
    by_cases hj : j = i
    · subst hj
      have hd' : ((σ.calls j).advance σ.store).1 = .shutdown d := by
        simpa [Cron.step] using hd
      rcases Task.begun_advance hd' with hset | ⟨d', hcall, hb'⟩
      · exact hset
      · exact Task.stopped_advance (h.flagged j d' hcall hb')
    · rw [show (Cron.step σ i).calls j = σ.calls j from System.calls_turn_of_ne σ i j hj] at hd
      exact Task.stopped_advance (h.flagged j d hd hb)
  quiet := fun j k hj hk => by
    by_cases hki : k = i
    · -- the job that starts has read the flag unset, which a drained shutdown has set
      subst hki
      have hunset : σ.store.stopped = false := Task.running_advance (by simpa [Cron.step] using hk)
      have hjk : j ≠ k := by
        rintro rfl
        rw [hj] at hk
        cases hk
      rw [show (Cron.step σ k).calls j = σ.calls j from System.calls_turn_of_ne σ k j hjk] at hj
      rw [h.flagged j .drained hj rfl] at hunset
      cases hunset
    · rw [show (Cron.step σ i).calls k = σ.calls k from System.calls_turn_of_ne σ i k hki] at hk
      by_cases hji : j = i
      · -- the shutdown that drains has read the count at zero, and the running job is counted
        subst hji
        rcases Task.drained_advance (by simpa [Cron.step] using hj) with hwas | hzero
        · exact h.quiet j k hwas hk
        · have hpos : 0 < guards σ := System.tally_pos (show (σ.calls k).holdsGuard = true by rw [hk]; rfl)
          rw [← h.counted, hzero] at hpos
          exact absurd hpos (lt_irrefl 0)
      · rw [show (Cron.step σ i).calls j = σ.calls j from System.calls_turn_of_ne σ i j hji] at hj
        exact h.quiet j k hj hk

omit [Fintype I] in
/-- Once a shutdown has drained it stays so. -/
theorem drained_step {j : I} (h : σ.calls j = .shutdown .drained) (i : I) : (step σ i).calls j = .shutdown .drained := by
  by_cases hj : j = i
  · subst hj
    show (System.step _ _ σ (.turn j)).calls j = _
    rw [System.calls_turn_self, h]
    rfl
  · rw [show (step σ i).calls j = σ.calls j from System.calls_turn_of_ne σ i j hj]
    exact h

/-- Whatever is scheduled, asked for and stopped, and in whatever order the operations of the tasks run: the count is
the number of live run guards, and from the moment the drain of a shutdown reported that it drained, no scheduled job is
running, then or after any further operations. -/
theorem drained (jobs : I → Job) (turns later : List I) :
    (run step (start jobs) turns).store.inFlight = guards (run step (start jobs) turns) ∧
      ((∃ i, (run step (start jobs) turns).calls i = .shutdown .drained) →
        ∀ j, (run step (start jobs) (turns ++ later)).calls j ≠ .tick .running) := by
  have hbarrier : ∀ turns, Barrier (run step (start jobs) turns) := fun turns =>
    run_of_step (fun _ i h => h.step i) (barrier_start jobs)
  refine ⟨(hbarrier turns).counted, ?_⟩
  rintro ⟨i, hi⟩ j
  have hstill : (run step (start jobs) (turns ++ later)).calls i = .shutdown .drained := by
    rw [run_append]
    exact run_of_step (I := fun σ : CronScheduler I => σ.calls i = .shutdown .drained) (fun _ k h => drained_step h k) hi
  exact (hbarrier (turns ++ later)).quiet i j hstill

end Barrier

end Genzh.Cron
