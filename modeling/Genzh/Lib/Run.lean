/-
Runs of a state machine with a total step function: the state a list of labels leads to, what
holds in every state a run visits (`Always`), and what holds of every step it takes (`Along`).

Two rules carry the developments built on this. `always_of_along` is the usual invariant rule,
relative to a condition on the steps: an invariant kept by every step that meets the condition
holds all along a run whose steps meet it. `always_iff_along` says when the condition is exact:
if, from a state with the invariant, a step keeps it exactly when it meets the condition, then
the runs that keep the invariant are exactly the runs whose steps meet the condition.
-/
import Mathlib.Tactic

namespace Genzh.Lib

section Run

variable {S L : Type*} (step : S → L → S)

/-- The state after a run. -/
def run (s : S) (ls : List L) : S := ls.foldl step s

/-- `I` holds in every state the run visits, the first and the last included. -/
def Always (I : S → Prop) : S → List L → Prop
  | s, [] => I s
  | s, l :: ls => I s ∧ Always I (step s l) ls

/-- `P` holds of every step the run takes. -/
def Along (P : S → L → Prop) : S → List L → Prop
  | _, [] => True
  | s, l :: ls => P s l ∧ Along P (step s l) ls

variable {step}

@[simp] theorem run_nil (s : S) : run step s [] = s := rfl

@[simp] theorem run_cons (s : S) (l : L) (ls : List L) : run step s (l :: ls) = run step (step s l) ls := rfl

theorem run_append (s : S) (ls ms : List L) : run step s (ls ++ ms) = run step (run step s ls) ms :=
  List.foldl_append

@[simp] theorem always_nil (I : S → Prop) (s : S) : Always step I s [] ↔ I s := Iff.rfl

@[simp] theorem always_cons (I : S → Prop) (s : S) (l : L) (ls : List L) :
    Always step I s (l :: ls) ↔ I s ∧ Always step I (step s l) ls := Iff.rfl

@[simp] theorem along_nil (P : S → L → Prop) (s : S) : Along step P s [] := trivial

@[simp] theorem along_cons (P : S → L → Prop) (s : S) (l : L) (ls : List L) :
    Along step P s (l :: ls) ↔ P s l ∧ Along step P (step s l) ls := Iff.rfl

/-! ## What holds in every state -/

theorem Always.head {I : S → Prop} {s : S} {ls : List L} (h : Always step I s ls) : I s := by
  cases ls with
  | nil => exact h
  | cons l ls => exact h.1

theorem Always.last {I : S → Prop} : ∀ {ls : List L} {s : S}, Always step I s ls → I (run step s ls)
  | [], _, h => h
  | _ :: _, _, h => h.2.last

theorem Always.mono {I J : S → Prop} (hIJ : ∀ s, I s → J s) :
    ∀ {ls : List L} {s : S}, Always step I s ls → Always step J s ls
  | [], _, h => hIJ _ h
  | _ :: _, _, h => ⟨hIJ _ h.1, h.2.mono hIJ⟩

/-! ## What holds of every step -/

theorem Along.mono {P Q : S → L → Prop} (hPQ : ∀ s l, P s l → Q s l) :
    ∀ {ls : List L} {s : S}, Along step P s ls → Along step Q s ls
  | [], _, _ => trivial
  | _ :: _, _, h => ⟨hPQ _ _ h.1, h.2.mono hPQ⟩

theorem along_and {P Q : S → L → Prop} {ls : List L} {s : S} :
    Along step (fun s l => P s l ∧ Q s l) s ls ↔ Along step P s ls ∧ Along step Q s ls := by
  induction ls generalizing s with
  | nil => simp
  | cons l ls ih =>
    simp only [along_cons, ih]
    tauto

theorem along_append {P : S → L → Prop} {ls ms : List L} {s : S} :
    Along step P s (ls ++ ms) ↔ Along step P s ls ∧ Along step P (run step s ls) ms := by
  induction ls generalizing s with
  | nil => simp
  | cons l ls ih => simp only [List.cons_append, along_cons, run_cons, ih, and_assoc]

/-- What is asked of the labels alone. -/
theorem along_forall {P : L → Prop} {ls : List L} {s : S} : Along step (fun _ l => P l) s ls ↔ ∀ l ∈ ls, P l := by
  induction ls generalizing s with
  | nil => simp
  | cons l ls ih => rw [along_cons, ih, List.forall_mem_cons]

theorem run_map {M : Type*} (f : M → L) (s : S) (ms : List M) : run step s (ms.map f) = run (fun s m => step s (f m)) s ms :=
  List.foldl_map

theorem along_map {M : Type*} {P : S → L → Prop} (f : M → L) {ms : List M} {s : S} :
    Along step P s (ms.map f) ↔ Along (fun s m => step s (f m)) (fun s m => P s (f m)) s ms := by
  induction ms generalizing s with
  | nil => simp
  | cons m ms ih => rw [List.map_cons, along_cons, along_cons, ih]

instance decidableAlong {P : S → L → Prop} [∀ s l, Decidable (P s l)] : ∀ (s : S) (ls : List L), Decidable (Along step P s ls)
  | _, [] => .isTrue trivial
  | s, l :: ls => @instDecidableAnd _ _ _ (decidableAlong (step s l) ls)

/-! ## Invariants -/

/-- An invariant kept by every step that meets `C` holds all along a run whose steps meet `C`. -/
theorem always_of_along {I : S → Prop} {C : S → L → Prop} (hstep : ∀ s l, I s → C s l → I (step s l)) :
    ∀ {ls : List L} {s : S}, I s → Along step C s ls → Always step I s ls
  | [], _, h0, _ => h0
  | _ :: _, _, h0, h => ⟨h0, always_of_along hstep (hstep _ _ h0 h.1) h.2⟩

/-- What every step from a state with the invariant has, where the steps meet `C`. -/
theorem along_of_along {I : S → Prop} {P C : S → L → Prop} (hstep : ∀ s l, I s → C s l → I (step s l) ∧ P s l) :
    ∀ {ls : List L} {s : S}, I s → Along step C s ls → Along step P s ls
  | [], _, _, _ => trivial
  | _ :: _, _, h0, h => ⟨(hstep _ _ h0 h.1).2, along_of_along hstep (hstep _ _ h0 h.1).1 h.2⟩

/-- An invariant of the step function holds all along every run. -/
theorem always_of_step {I : S → Prop} (hstep : ∀ s l, I s → I (step s l)) :
    ∀ {ls : List L} {s : S}, I s → Always step I s ls
  | [], _, h0 => h0
  | _ :: _, _, h0 => ⟨h0, always_of_step hstep (hstep _ _ h0)⟩

theorem run_of_step {I : S → Prop} (hstep : ∀ s l, I s → I (step s l)) {ls : List L} {s : S} (h0 : I s) :
    I (run step s ls) :=
  (always_of_step hstep h0).last

/-- The exact condition of an invariant `I` together with a property `P` of the steps, where only the steps that `K` holds of
are known to keep the background invariant `J`: when, in a state with `I` and `J`, such a step meets `C` exactly if it has `P`
and leads to `I` again, the runs that keep `I` and have `P` all along are exactly the runs whose steps meet `C`. -/
theorem always_along_iff_of_along {J I : S → Prop} {K P C : S → L → Prop} (hJ : ∀ s l, J s → K s l → J (step s l))
    (hstep : ∀ s l, J s → I s → K s l → (P s l ∧ I (step s l) ↔ C s l)) {ls : List L} {s : S} (hj : J s) (h0 : I s)
    (hk : Along step K s ls) : Always step I s ls ∧ Along step P s ls ↔ Along step C s ls := by
  induction ls generalizing s with
  | nil => simp [h0]
  | cons l ls ih =>
    rw [always_cons, along_cons, along_cons]
    constructor
    · rintro ⟨⟨-, h⟩, hp, hps⟩
      exact ⟨(hstep s l hj h0 hk.1).1 ⟨hp, h.head⟩, (ih (hJ s l hj hk.1) h.head hk.2).1 ⟨h, hps⟩⟩
    · rintro ⟨hc, hcs⟩
      obtain ⟨hp, h1⟩ := (hstep s l hj h0 hk.1).2 hc
      obtain ⟨h, hps⟩ := (ih (hJ s l hj hk.1) h1 hk.2).2 hcs
      exact ⟨⟨h0, h⟩, hp, hps⟩

theorem along_true {ls : List L} {s : S} : Along step (fun _ _ => True) s ls := by
  induction ls generalizing s with
  | nil => exact trivial
  | cons l ls ih => exact ⟨trivial, ih⟩

/-- The same, where every step keeps `J`. -/
theorem always_along_iff {J I : S → Prop} {P C : S → L → Prop} (hJ : ∀ s l, J s → J (step s l))
    (hstep : ∀ s l, J s → I s → (P s l ∧ I (step s l) ↔ C s l)) {ls : List L} {s : S} (hj : J s) (h0 : I s) :
    Always step I s ls ∧ Along step P s ls ↔ Along step C s ls :=
  always_along_iff_of_along (fun s l h _ => hJ s l h) (fun s l h h' _ => hstep s l h h') hj h0 along_true

/-- The exact condition of an invariant alone. -/
theorem always_iff_along {J I : S → Prop} {C : S → L → Prop} (hJ : ∀ s l, J s → J (step s l))
    (hstep : ∀ s l, J s → I s → (I (step s l) ↔ C s l)) {ls : List L} {s : S} (hj : J s) (h0 : I s) :
    Always step I s ls ↔ Along step C s ls := by
  rw [← always_along_iff (P := fun _ _ => True) hJ (fun s l hj hi => by simpa using hstep s l hj hi) hj h0]
  exact (and_iff_left along_true).symm

/-- Two step conditions that agree in every state with the invariant `J` agree along every run. -/
theorem along_congr {J : S → Prop} {P Q : S → L → Prop} (hJ : ∀ s l, J s → J (step s l))
    (hPQ : ∀ s l, J s → (P s l ↔ Q s l)) {ls : List L} {s : S} (hj : J s) :
    Along step P s ls ↔ Along step Q s ls := by
  induction ls generalizing s with
  | nil => simp
  | cons l ls ih => rw [along_cons, along_cons, hPQ s l hj, ih (hJ s l hj)]

/-- The same, where only the steps that `K` holds of are known to keep `J`, and the two to agree for them. -/
theorem along_congr_of_along {J : S → Prop} {K P Q : S → L → Prop} (hJ : ∀ s l, J s → K s l → J (step s l))
    (hPQ : ∀ s l, J s → K s l → (P s l ↔ Q s l)) {ls : List L} {s : S} (hj : J s) (hk : Along step K s ls) :
    Along step P s ls ↔ Along step Q s ls := by
  induction ls generalizing s with
  | nil => simp
  | cons l ls ih => rw [along_cons, along_cons, hPQ s l hj hk.1, ih (hJ s l hj hk.1) hk.2]

end Run

end Genzh.Lib

namespace Genzh.Lib

/-! ## What a run writes

Registers of a machine, and what its steps write into them. Where every step either leaves a register or writes a known
value to it, the register holds what was written last, and what was written last was written at some point of the run and
not since.
-/

variable {S L V : Type*} (step : S → L → S) (writes : S → L → Option V)

/-- What the steps of a run write, in order. -/
def written : S → List L → List V
  | _, [] => []
  | s, l :: ls => (writes s l).toList ++ written (step s l) ls

variable {step writes} {s : S} {ls ms : List L}

@[simp] theorem written_nil : written step writes s [] = [] := rfl

@[simp] theorem written_cons (l : L) :
    written step writes s (l :: ls) = (writes s l).toList ++ written step writes (step s l) ls := rfl

theorem written_append : written step writes s (ls ++ ms) = written step writes s ls ++ written step writes (run step s ls) ms := by
  induction ls generalizing s with
  | nil => rfl
  | cons l ls ih => rw [List.cons_append, written_cons, written_cons, ih, List.append_assoc, run_cons]

theorem written_singleton (l : L) : written step writes s [l] = (writes s l).toList := by
  rw [written_cons, written_nil, List.append_nil]

/-- A step that writes nothing here adds nothing. -/
theorem written_snoc_of_none {l : L} (h : writes (run step s ls) l = none) :
    written step writes s (ls ++ [l]) = written step writes s ls := by
  rw [written_append, written_singleton, h, Option.toList_none, List.append_nil]

theorem written_snoc_of_some {l : L} {v : V} (h : writes (run step s ls) l = some v) :
    written step writes s (ls ++ [l]) = written step writes s ls ++ [v] := by
  rw [written_append, written_singleton, h, Option.toList_some]

/-- The rule for what a run has to say of its own past: what the empty run says of the first state, each step carries on. -/
theorem run_past {P : List L → S → Prop} (h0 : P [] s) (hstep : ∀ ls, P ls (run step s ls) → ∀ l, P (ls ++ [l]) (step (run step s ls) l)) :
    P ls (run step s ls) := by
  induction ls using List.reverseRecOn with
  | nil => exact h0
  | append_singleton ls l ih =>
    rw [run_append, run_cons, run_nil]
    exact hstep ls ih l

end Genzh.Lib

namespace Genzh.Lib

/-! ## Unwinding

Steps that are hidden from whoever watches a machine. A relation unwinds the machine when a hidden step on either side
leaves related states related, and a step that is not hidden leads related states to related ones. Then two runs with the
same steps that are not hidden end in related states, whatever the hidden ones were and wherever they stood.
-/

variable {S L : Type*}

/-- The labels that are not hidden. -/
def purge (hidden : L → Bool) (ls : List L) : List L := ls.filter fun l => !hidden l

/-- Related states look the same, and no hidden step tells them apart. -/
structure Unwinds (step : S → L → S) (hidden : L → Bool) (R : S → S → Prop) : Prop where
  hides_left : ∀ {s t l}, hidden l = true → R s t → R (step s l) t
  hides_right : ∀ {s t l}, hidden l = true → R s t → R s (step t l)
  shows : ∀ {s t l}, hidden l = false → R s t → R (step s l) (step t l)

namespace Unwinds

variable {step : S → L → S} {hidden : L → Bool} {R : S → S → Prop} {s t : S} {ls ms : List L}

theorem run_hidden_right (h : Unwinds step hidden R) (hr : R s t) (hms : ∀ m ∈ ms, hidden m = true) : R s (run step t ms) := by
  induction ms generalizing t with
  | nil => exact hr
  | cons m ms ih =>
    obtain ⟨hm, hms⟩ := List.forall_mem_cons.1 hms
    exact ih (h.hides_right hm hr) hms

/-- Runs that are the same once purged lead related states to related states. -/
theorem run (h : Unwinds step hidden R) (hr : R s t) (hpurge : purge hidden ls = purge hidden ms) :
    R (run step s ls) (run step t ms) := by
  induction ls generalizing s t ms with
  | nil =>
    have hms : ∀ m ∈ ms, hidden m = true := by
      intro m hm
      have hnil := List.filter_eq_nil_iff.1 hpurge.symm m hm
      simpa using hnil
    exact h.run_hidden_right hr hms
  | cons l ls ih =>
    rcases hl : hidden l with _ | _
    · rw [purge, List.filter_cons_of_pos (by rw [hl]; rfl)] at hpurge
      obtain ⟨pre, post, rfl, hpre, -, hpost⟩ := List.filter_eq_cons_iff.1 hpurge.symm
      -- the other run may do something hidden first
      have hr' : R s (Lib.run step t pre) := h.run_hidden_right hr fun m hm => by simpa using hpre m hm
      rw [run_cons, run_append, run_cons]
      exact ih (h.shows hl hr') hpost.symm
    · rw [purge, List.filter_cons_of_neg (by rw [hl]; simp)] at hpurge
      exact ih (h.hides_left hl hr) hpurge

end Unwinds

end Genzh.Lib
