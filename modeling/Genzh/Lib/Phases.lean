/-
The shape of a script with one transaction: what it asks before it, in it, and after it. `Obeys` says so of the script
that a call begins with; `Follows` is what it comes to for the call in every state of a run, whatever the others do.
-/
import Genzh.Lib.Transactions

namespace Genzh.Lib

/-- How far a script has come with its transaction. -/
inductive Phase where
  | before
  | inside
  | after
  deriving DecidableEq, Repr

section Obeys

variable {Q : Type} {R : Q → Type} {E α β : Type} {p : Phase → Q → Prop} {ph : Phase}

/-- Whatever the script asks from here on, it asks in its phase; and it has one transaction at most. -/
def Obeys (p : Phase → Q → Prop) : Script (Command.Answer R) E α → Phase → Prop
  | .done _, _ => True
  | .fail _, _ => True
  | .ask .begin next, ph => ph = .before ∧ Obeys p (next ()) .inside
  | .ask .commit next, ph => ph = .inside ∧ Obeys p (next ()) .after
  | .ask (.stmt q) next, ph => p ph q ∧ ∀ r, Obeys p (next r) ph

theorem Obeys.map {f : α → β} {script : Script (Command.Answer R) E α} (h : Obeys p script ph) : Obeys p (f <$> script) ph := by
  induction script generalizing ph with
  | done a => trivial
  | fail e => trivial
  | ask q next ih =>
    match q with
    | .begin => exact ⟨h.1, ih _ h.2⟩
    | .commit => exact ⟨h.1, ih _ h.2⟩
    | .stmt _ => exact ⟨h.1, fun r => ih r (h.2 r)⟩

theorem Obeys.ensure {c : Bool} {e : E} {k : Unit → Script (Command.Answer R) E β} (h : Obeys p (k ()) ph) :
    Obeys p (Script.ensure c e >>= k) ph := by
  cases c with
  | false => trivial
  | true => exact h

theorem Obeys.found {o : Option α} {e : E} {k : α → Script (Command.Answer R) E β} (h : ∀ a, Obeys p (k a) ph) :
    Obeys p (Script.found e o >>= k) ph := by
  cases o with
  | none => trivial
  | some a => exact h a

theorem Obeys.lift {x : Except E α} {k : α → Script (Command.Answer R) E β} (h : ∀ a, Obeys p (k a) ph) :
    Obeys p (Script.lift x >>= k) ph := by
  cases x with
  | error e => trivial
  | ok a => exact h a

theorem Obeys.begin {k : Unit → Script (Command.Answer R) E β} (h : Obeys p (k ()) .inside) :
    Obeys p (Script.query Command.begin >>= k) .before := ⟨rfl, h⟩

theorem Obeys.commit {k : Unit → Script (Command.Answer R) E β} (h : Obeys p (k ()) .after) :
    Obeys p (Script.query Command.commit >>= k) .inside := ⟨rfl, h⟩

theorem Obeys.stmt {q : Q} {k : R q → Script (Command.Answer R) E β} (hq : p ph q) (h : ∀ r, Obeys p (k r) ph) :
    Obeys p (Script.query (Command.stmt q) >>= k) ph := ⟨hq, h⟩

end Obeys

section Follows

variable {S T W K Q : Type} {R : Q → Type} {E α : Type} {D : Database S T W K R E} {p : Phase → Q → Prop}

/-- The call has asked what it asked in its phase, and will. -/
def Follows (p : Phase → Q → Prop) (c : Call S T W K R E α) : Prop :=
  ∃ ph, Obeys p c.script ph ∧ (ph = .inside ↔ c.txn.isSome) ∧ ∀ x ∈ c.log, ∃ ph', p ph' x.stmt ∧ (ph = .before → ph' = .before)

/-- In a transaction, it asks what it may ask there. -/
theorem Follows.inside {c : Call S T W K R E α} (h : Follows p c) {t : Txn T W K} (ht : c.txn = some t) : Obeys p c.script .inside := by
  obtain ⟨ph, hobeys, hph, -⟩ := h
  rwa [hph.2 (by rw [ht]; rfl)] at hobeys

/-- Outside of one, it is before or after it. -/
theorem Follows.outside {c : Call S T W K R E α} (h : Follows p c) (ht : c.txn = none) : ∃ ph, ph ≠ .inside ∧ Obeys p c.script ph := by
  obtain ⟨ph, hobeys, hph, -⟩ := h
  refine ⟨ph, fun hinside => ?_, hobeys⟩
  have := hph.1 hinside
  rw [ht] at this
  cases this

/-- Where a transaction begins, everything it has asked it has asked before. -/
theorem Follows.begins {c : Call S T W K R E α} (h : Follows p c) {next} (hs : c.script = .ask .begin next) :
    ∀ x ∈ c.log, p .before x.stmt := by
  obtain ⟨ph, hobeys, -, hlog⟩ := h
  rw [hs] at hobeys
  intro x hx
  obtain ⟨ph', hp, hbefore⟩ := hlog x hx
  rwa [hbefore hobeys.1] at hp

theorem Follows.initial {script : Script (Command.Answer R) E α} (h : Obeys p script .before) :
    Follows p (Call.start script : Call S T W K R E α) :=
  ⟨.before, h, by simp [Call.start], fun _ hx => (List.not_mem_nil hx).elim⟩

variable {I A : Type} [DecidableEq K] [DecidableEq I] {other : A → S → S} {i : I}

/-- A turn keeps a call to its phases. -/
theorem Follows.turn {c c' : Call S T W K R E α} {σ σ' : Served S K I} (h : Follows p c) (hturn : D.Turn i c σ c' σ') : Follows p c' := by
  obtain ⟨ph, hobeys, hph, hlog⟩ := h
  cases hturn with
  | stays => exact ⟨ph, hobeys, hph, hlog⟩
  | begins next hs ht =>
    rw [hs] at hobeys
    exact ⟨.inside, hobeys.2, by simp, fun x hx => (hlog x hx).imp fun ph' hp => ⟨hp.1, by nofun⟩⟩
  | refused q next e hs ht hx => exact ⟨ph, trivial, hph, hlog⟩
  | executes q next r ws hs ht hallow hx hlogged =>
    rw [hs] at hobeys
    refine ⟨ph, hobeys.2 r, by rw [hph, ht], fun x hx => ?_⟩
    rcases List.mem_cons.1 hx with rfl | hx
    · exact ⟨ph, hobeys.1, id⟩
    · exact hlog x hx
  | breaks t ht => exact ⟨.after, trivial, by simp, fun x hx => (hlog x hx).imp fun ph' hp => ⟨hp.1, by nofun⟩⟩
  | refusedIn q next t e hs ht => exact ⟨ph, trivial, hph, hlog⟩
  | writes q next t r ws hs ht hallow hx hlogged =>
    rw [hs] at hobeys
    refine ⟨ph, hobeys.2 r, by rw [hph, ht]; simp, fun x hx => ?_⟩
    rcases List.mem_cons.1 hx with rfl | hx
    · exact ⟨ph, hobeys.1, id⟩
    · exact hlog x hx
  | commits next t hs ht =>
    rw [hs] at hobeys
    exact ⟨.after, hobeys.2, by simp, fun x hx => (hlog x hx).imp fun ph' hp => ⟨hp.1, by nofun⟩⟩
  | drops t hs ht =>
    refine ⟨.after, ?_, by simp, fun x hx => (hlog x hx).imp fun ph' hp => ⟨hp.1, by nofun⟩⟩
    rcases hs with ⟨a, hs⟩ | ⟨e, hs⟩ <;> rw [hs] <;> trivial

theorem Follows.step {σ : System (Served S K I) I (Call S T W K R E α)} (h : Follows p (σ.calls i)) (e : Event I (Outside I A)) :
    Follows p ((D.step other σ e).calls i) :=
  Database.call_step (fun _ _ _ _ hturn h => h.turn hturn) h e

end Follows

end Genzh.Lib
