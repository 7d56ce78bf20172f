/-
Policies by roles: users have roles, roles grant permissions, and a user holds what any of their roles
grants. A policy changes in three ways: a role is given, taken away, or granted another set.

There are two questions about a change, and a bound for each. Who gains what: what a user holds afterwards
is what they held before, or what the change grants. Who loses what: what a user held before is what they
hold afterwards, or what the change takes away. `Confined` answers the first question over any number of
changes, and `Confined.step` is its rule: it is kept by changes that are `Bounded`.
-/
import Mathlib.Data.Set.Insert
import Mathlib.Logic.Function.Basic

namespace Genzh.Lib

/-- Who has which roles, and what these grant. -/
structure Policy (U R P : Type*) where
  roles : U → Set R
  grants : R → Set P

namespace Policy

variable {U R P : Type*}

/-- What a user holds. -/
def held (pol : Policy U R P) (u : U) : Set P := {p | ∃ r ∈ pol.roles u, p ∈ pol.grants r}

theorem mem_held {pol : Policy U R P} {u : U} {p : P} : p ∈ pol.held u ↔ ∃ r ∈ pol.roles u, p ∈ pol.grants r := Iff.rfl

@[ext] theorem ext {pol pol' : Policy U R P} (hroles : ∀ u, pol.roles u = pol'.roles u)
    (hgrants : ∀ r, pol.grants r = pol'.grants r) : pol = pol' := by
  cases pol
  cases pol'
  congr 1
  · exact funext hroles
  · exact funext hgrants

section Changes

variable [DecidableEq U] [DecidableEq R] (pol : Policy U R P)

/-- Give a role to a user. -/
def giving (u : U) (r : R) : Policy U R P :=
  { pol with roles := Function.update pol.roles u (insert r (pol.roles u)) }

/-- Take a role away from a user. -/
def taking (u : U) (r : R) : Policy U R P :=
  { pol with roles := Function.update pol.roles u (pol.roles u \ {r}) }

/-- Grant a set of permissions by a role, in the place of what it granted. -/
def granting (r : R) (s : Set P) : Policy U R P := { pol with grants := Function.update pol.grants r s }

variable {pol} {u v : U} {r : R} {s : Set P} {p : P}

omit [DecidableEq R] in
theorem mem_roles_giving {r' : R} : r' ∈ (pol.giving u r).roles v ↔ r' ∈ pol.roles v ∨ (v = u ∧ r' = r) := by
  unfold giving
  by_cases hv : v = u
  · subst hv
    simp [or_comm]
  · simp [hv]

omit [DecidableEq R] in
theorem mem_roles_taking {r' : R} : r' ∈ (pol.taking u r).roles v ↔ r' ∈ pol.roles v ∧ ¬ (v = u ∧ r' = r) := by
  unfold taking
  by_cases hv : v = u
  · subst hv
    simp
  · simp [hv]

omit [DecidableEq U] in
theorem mem_grants_granting {r' : R} :
    p ∈ (pol.granting r s).grants r' ↔ if r' = r then p ∈ s else p ∈ pol.grants r' := by
  unfold granting
  by_cases hr : r' = r
  · subst hr
    simp
  · simp [hr]

/-! ## Who gains what -/

omit [DecidableEq R] in
theorem held_giving (h : p ∈ (pol.giving u r).held v) : p ∈ pol.held v ∨ p ∈ pol.grants r := by
  obtain ⟨r', hr', hp⟩ := h
  rcases mem_roles_giving.1 hr' with hold | ⟨-, rfl⟩
  · exact .inl ⟨r', hold, hp⟩
  · exact .inr hp

omit [DecidableEq R] in
theorem held_taking (h : p ∈ (pol.taking u r).held v) : p ∈ pol.held v := by
  obtain ⟨r', hr', hp⟩ := h
  exact ⟨r', (mem_roles_taking.1 hr').1, hp⟩

omit [DecidableEq U] in
theorem held_granting (h : p ∈ (pol.granting r s).held v) : p ∈ pol.held v ∨ p ∈ s := by
  obtain ⟨r', hr', hp⟩ := h
  rw [mem_grants_granting] at hp
  split at hp
  · exact .inr hp
  · exact .inl ⟨r', hr', hp⟩

/-! ## Who loses what -/

omit [DecidableEq R] in
theorem held_of_giving (h : p ∈ pol.held v) : p ∈ (pol.giving u r).held v := by
  obtain ⟨r', hr', hp⟩ := h
  exact ⟨r', mem_roles_giving.2 (.inl hr'), hp⟩

omit [DecidableEq R] in
theorem held_of_taking (h : p ∈ pol.held v) (hr : p ∉ pol.grants r) : p ∈ (pol.taking u r).held v := by
  obtain ⟨r', hr', hp⟩ := h
  refine ⟨r', mem_roles_taking.2 ⟨hr', ?_⟩, hp⟩
  rintro ⟨-, rfl⟩
  exact hr hp

omit [DecidableEq U] in
/-- Somebody keeps a permission that a role does not grant any longer by another role only. -/
theorem held_granting_iff (hs : p ∉ s) :
    p ∈ (pol.granting r s).held v ↔ ∃ r' ∈ pol.roles v, r' ≠ r ∧ p ∈ pol.grants r' := by
  constructor
  · rintro ⟨r', hr', hp⟩
    rw [mem_grants_granting] at hp
    split at hp
    · exact absurd hp hs
    · exact ⟨r', hr', ‹_›, hp⟩
  · rintro ⟨r', hr', hne, hp⟩
    refine ⟨r', hr', ?_⟩
    rw [mem_grants_granting, if_neg hne]
    exact hp

end Changes

/-! ## Confinement -/

section Confinement

variable [DecidableEq U] [DecidableEq R]

/-- A change that hands out permissions in `B` only: nothing but these comes with a role that is given, or
into the set a role grants. -/
inductive Bounded (B : Set P) (pol : Policy U R P) : Policy U R P → Prop where
  | none : Bounded B pol pol
  | giving (u : U) (r : R) (h : ∀ p ∈ pol.grants r, p ∈ B) : Bounded B pol (pol.giving u r)
  | taking (u : U) (r : R) : Bounded B pol (pol.taking u r)
  | granting (r : R) (s : Set P) (h : ∀ p ∈ s, p ∈ B) : Bounded B pol (pol.granting r s)

variable {old pol pol' : Policy U R P} {B : Set P}

/-- Such changes leave a role that grants permissions in `B` only like that. -/
theorem Bounded.grants (h : Bounded B pol pol') {r : R} (hr : ∀ p ∈ pol.grants r, p ∈ B) : ∀ p ∈ pol'.grants r, p ∈ B := by
  intro p hp
  cases h with
  | none => exact hr p hp
  | giving => exact hr p hp
  | taking => exact hr p hp
  | granting r' s hs =>
    rw [mem_grants_granting] at hp
    split at hp
    · exact hs p hp
    · exact hr p hp

omit [DecidableEq U] [DecidableEq R] in
/-- Nobody holds more than they held in the policy `old`, but for permissions in `B`. -/
def Confined (old : Policy U R P) (B : Set P) (pol : Policy U R P) : Prop := ∀ u p, p ∈ pol.held u → p ∈ old.held u ∨ p ∈ B

omit [DecidableEq U] [DecidableEq R] in
theorem Confined.refl (pol : Policy U R P) (B : Set P) : Confined pol B pol := fun _ _ h => .inl h

/-- A policy stays confined through changes that are. -/
theorem Confined.step (hc : Confined old B pol) (h : Bounded B pol pol') : Confined old B pol' := by
  intro v p hp
  cases h with
  | none => exact hc v p hp
  | giving u r hr =>
    rcases held_giving hp with hp | hp
    · exact hc v p hp
    · exact .inr (hr p hp)
  | taking u r => exact hc v p (held_taking hp)
  | granting r s hs =>
    rcases held_granting hp with hp | hp
    · exact hc v p hp
    · exact .inr (hs p hp)

end Confinement

end Policy

end Genzh.Lib
