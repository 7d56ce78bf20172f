/-
Loops that need not end: `while` over a state, run with fuel. A loop is over when its condition fails, and never
over when every turn keeps an invariant under which the condition holds.
-/
import Mathlib.Logic.Basic

namespace Genzh.Lib

section Loop

variable {S : Type*} {turn : S → Option S} {s : S}

/-- `while`, over within `n` turns. A turn is `none` where the condition fails. -/
def loop (turn : S → Option S) : Nat → S → Option S
  | 0, _ => none
  | n + 1, s =>
    match turn s with
    | none => some s
    | some s' => loop turn n s'

theorem loop_of_none (h : turn s = none) (n : Nat) : loop turn (n + 1) s = some s := by
  unfold loop
  rw [h]

theorem loop_of_some {s' : S} (h : turn s = some s') (n : Nat) : loop turn (n + 1) s = loop turn n s' := by
  rw [loop, h]

/-- A loop is never over if each turn leaves a state in which there is another. -/
theorem loop_eq_none (I : S → Prop) (hturn : ∀ s, I s → ∃ s', turn s = some s' ∧ I s') (n : Nat) (hs : I s) :
    loop turn n s = none := by
  induction n generalizing s with
  | zero => rfl
  | succ n ih =>
    obtain ⟨s', h, hs'⟩ := hturn s hs
    rw [loop_of_some h]
    exact ih hs'

end Loop

end Genzh.Lib
