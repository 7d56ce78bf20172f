/-
Calls that run at the same time on one store, one statement of one of them after the other. A call is its
local state, `advance` is its next statement together with what the caller computes up to the one after
it, and a schedule says whose turn it is; what else may happen to the store is an event of its own.

`Outline` is the form the invariants of such systems take: a condition on the store, an assertion of each
call about its local state and the store, and a part of the calls' states that at most one call is in at
a time. `Outline.turn` is the rule for it: the call that moves restores its own assertion, and leaves
those of the others true.
-/
import Genzh.Lib.Run

namespace Genzh.Lib

/-- A store, and how far every call on it has come. -/
structure System (S I L : Type*) where
  store : S
  calls : I → L

/-- The turn of a call, or something that happens to the store. -/
inductive Event (I A : Type*) where
  | turn (i : I)
  | outside (a : A)
  deriving DecidableEq, Repr

namespace System

variable {S I L A : Type*} [DecidableEq I]

section Step

variable (advance : I → L → S → L × S) (outside : A → S → S)

/-- One event. -/
def step (σ : System S I L) : Event I A → System S I L
  | .turn i =>
    { store := (advance i (σ.calls i) σ.store).2
      calls := Function.update σ.calls i (advance i (σ.calls i) σ.store).1 }
  | .outside a => { σ with store := outside a σ.store }

variable {advance outside} (σ : System S I L) (i j : I) (a : A)

@[simp] theorem store_turn : (step advance outside σ (.turn i)).store = (advance i (σ.calls i) σ.store).2 := rfl

@[simp] theorem calls_turn_self :
    (step advance outside σ (.turn i)).calls i = (advance i (σ.calls i) σ.store).1 := Function.update_self ..

theorem calls_turn_of_ne (h : j ≠ i) : (step advance outside σ (.turn i)).calls j = σ.calls j :=
  Function.update_of_ne h ..

@[simp] theorem store_outside : (step advance outside σ (.outside a)).store = outside a σ.store := rfl

@[simp] theorem calls_outside : (step advance outside σ (.outside a)).calls = σ.calls := rfl

/-- A call all by itself: any number of turns in a row. -/
def alone (advance : I → L → S → L × S) (i : I) (n : Nat) (l : L) (s : S) : L × S :=
  (fun p : L × S => advance i p.1 p.2)^[n] (l, s)

omit [DecidableEq I] in
theorem alone_succ (n : Nat) (l : L) (s : S) :
    alone advance i (n + 1) l s = alone advance i n (advance i l s).1 (advance i l s).2 := rfl

omit [DecidableEq I] in
theorem alone_add (m n : Nat) (l : L) (s : S) :
    alone advance i (m + n) l s = alone advance i n (alone advance i m l s).1 (alone advance i m l s).2 := by
  unfold alone
  rw [Nat.add_comm, Function.iterate_add_apply]

/-- By itself, a call comes from one state to another. -/
def Reaches (advance : I → L → S → L × S) (i : I) (l : L) (s : S) (l' : L) (s' : S) : Prop :=
  ∃ n, alone advance i n l s = (l', s')

namespace Reaches

omit [DecidableEq I]

variable {l l' : L} {s s' : S} {i : I}

theorem refl : Reaches advance i l s l s := ⟨0, rfl⟩

theorem head (l₁ : L) (s₁ : S) (h : advance i l s = (l₁, s₁)) (h' : Reaches advance i l₁ s₁ l' s') :
    Reaches advance i l s l' s' := by
  obtain ⟨n, hn⟩ := h'
  exact ⟨n + 1, by rw [alone_succ, h]; exact hn⟩

theorem one (h : advance i l s = (l', s')) : Reaches advance i l s l' s' := head _ _ h refl

theorem trans {l₁ : L} {s₁ : S} (h : Reaches advance i l s l₁ s₁) (h' : Reaches advance i l₁ s₁ l' s') :
    Reaches advance i l s l' s' := by
  obtain ⟨m, hm⟩ := h
  obtain ⟨n, hn⟩ := h'
  exact ⟨m + n, by rw [alone_add, hm]; exact hn⟩

end Reaches

end Step

/-! ## How many calls -/

section Tally

variable {advance : I → L → S → L × S} {outside : A → S → S} [Fintype I] (p : L → Prop) [DecidablePred p]

/-- How many calls have come to a state with `p`. -/
def tally (calls : I → L) : Nat := (Finset.univ.filter fun i => p (calls i)).card

variable {p} {calls : I → L} {i : I} {l : L}

theorem tally_update_of_iff (h : p l ↔ p (calls i)) : tally p (Function.update calls i l) = tally p calls := by
  unfold tally
  congr 1
  ext j
  by_cases hj : j = i
  · subst hj
    simp [h]
  · simp [Function.update_of_ne hj]

theorem tally_update_of_new (hl : p l) (h : ¬ p (calls i)) : tally p (Function.update calls i l) = tally p calls + 1 := by
  have hmem : i ∉ Finset.univ.filter fun i => p (calls i) := by simp [h]
  have heq : (Finset.univ.filter fun j => p (Function.update calls i l j)) =
      insert i (Finset.univ.filter fun j => p (calls j)) := by
    ext j
    by_cases hj : j = i
    · subst hj
      simp [hl]
    · simp [hj]
  unfold tally
  rw [heq, Finset.card_insert_of_notMem hmem]

theorem tally_update_of_old (hl : ¬ p l) (h : p (calls i)) : tally p (Function.update calls i l) + 1 = tally p calls := by
  have hback : Function.update (Function.update calls i l) i (calls i) = calls := by
    rw [Function.update_idem, Function.update_eq_self]
  have hnew : ¬ p (Function.update calls i l i) := by rwa [Function.update_self]
  have := tally_update_of_new h hnew
  rw [hback] at this
  exact this.symm

omit [DecidableEq I] in
theorem tally_pos {i : I} (h : p (calls i)) : 0 < tally p calls :=
  Finset.card_pos.2 ⟨i, Finset.mem_filter.2 ⟨Finset.mem_univ i, h⟩⟩

omit [DecidableEq I] in
theorem tally_eq_zero (h : ∀ i, ¬ p (calls i)) : tally p calls = 0 := by
  unfold tally
  rw [Finset.card_eq_zero, Finset.filter_eq_empty_iff]
  intro i _
  exact h i

end Tally

/-! ## Invariants -/

/-- An invariant of a system: `G` of the store, `O i` of the local state of `i` and the store, and no
two calls in the part `X` of their states at once. -/
structure Outline (G : S → Prop) (O : I → L → S → Prop) (X : I → L → Prop) (σ : System S I L) : Prop where
  shared : G σ.store
  own : ∀ i, O i (σ.calls i) σ.store
  exclusive : ∀ i j, X i (σ.calls i) → X j (σ.calls j) → i = j

variable {G : S → Prop} {O : I → L → S → Prop} {X : I → L → Prop} {advance : I → L → S → L × S} {outside : A → S → S}
  {σ : System S I L}

/-- The rule for a turn: what the moving call must do for itself, for the others, and to enter `X`. -/
theorem Outline.turn (h : Outline G O X σ) {i : I} (hshared : G (advance i (σ.calls i) σ.store).2)
    (hself : O i (advance i (σ.calls i) σ.store).1 (advance i (σ.calls i) σ.store).2)
    (hothers : ∀ j, j ≠ i → O j (σ.calls j) (advance i (σ.calls i) σ.store).2)
    (hX : X i (advance i (σ.calls i) σ.store).1 → X i (σ.calls i) ∨ ∀ j, j ≠ i → ¬ X j (σ.calls j)) :
    Outline G O X (step advance outside σ (.turn i)) := by
  have hother : ∀ j, j ≠ i → X i (advance i (σ.calls i) σ.store).1 → ¬ X j (σ.calls j) := by
    intro j hj hx hxj
    rcases hX hx with hxi | hnone
    · exact hj (h.exclusive j i hxj hxi)
    · exact hnone j hj hxj
  refine ⟨hshared, fun j => ?_, fun j k hj hk => ?_⟩
  · by_cases hji : j = i
    · subst hji
      rw [calls_turn_self]
      exact hself
    · rw [calls_turn_of_ne σ i j hji]
      exact hothers j hji
  · by_cases hji : j = i
    · subst hji
      by_contra hne
      rw [calls_turn_self] at hj
      rw [calls_turn_of_ne σ j k (Ne.symm hne)] at hk
      exact hother k (Ne.symm hne) hj hk
    · rw [calls_turn_of_ne σ i j hji] at hj
      by_cases hki : k = i
      · subst hki
        rw [calls_turn_self] at hk
        exact absurd hj (hother j hji hk)
      · rw [calls_turn_of_ne σ i k hki] at hk
        exact h.exclusive j k hj hk

/-- The rule for what happens to the store from outside. -/
theorem Outline.elsewhere (h : Outline G O X σ) {a : A} (hshared : G (outside a σ.store))
    (hown : ∀ i, O i (σ.calls i) (outside a σ.store)) : Outline G O X (step advance outside σ (.outside a)) :=
  ⟨hshared, hown, h.exclusive⟩

end System

end Genzh.Lib
