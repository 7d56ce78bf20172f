/-
Locks of two modes: any number of owners share the lock of a key, or one has it to itself. What is granted is the list
of the grants; all those of an owner go together, as the locks of a transaction do when it ends.
-/
import Mathlib.Tactic

namespace Genzh.Lib

inductive LockMode where
  | shared
  | exclusive
  deriving DecidableEq, Repr

/-- A lock of a key, in one of the two modes. -/
structure Lock (K : Type) where
  key : K
  mode : LockMode
  deriving DecidableEq, Repr

namespace Lock

variable {K : Type}

def shared (k : K) : Lock K := ⟨k, .shared⟩

def exclusive (k : K) : Lock K := ⟨k, .exclusive⟩

/-- May two owners hold these locks at the same time? -/
def Compatible (m n : Lock K) : Prop := m.key = n.key → m.mode = .shared ∧ n.mode = .shared

instance [DecidableEq K] (m n : Lock K) : Decidable (m.Compatible n) :=
  inferInstanceAs (Decidable (m.key = n.key → m.mode = .shared ∧ n.mode = .shared))

theorem Compatible.symm {m n : Lock K} (h : m.Compatible n) : n.Compatible m := fun hk => (h hk.symm).symm

/-- Nothing is compatible with a lock of the same key that is held exclusively. -/
theorem Compatible.ne {k : K} {n : Lock K} (h : n.Compatible (exclusive k)) : n.key ≠ k := fun hk => by
  have := (h hk).2
  cases this

end Lock

/-- The locks that are granted, and to whom. -/
structure Grants (K I : Type) where
  list : List (I × Lock K)

namespace Grants

variable {K I : Type}

def none : Grants K I := ⟨[]⟩

/-- Does `i` hold this lock? -/
def Holds (g : Grants K I) (i : I) (n : Lock K) : Prop := (i, n) ∈ g.list

/-- May `i` take these locks, whatever the others hold? -/
def Allow (g : Grants K I) (i : I) (ns : List (Lock K)) : Prop :=
  ∀ h ∈ g.list, h.1 ≠ i → ∀ n ∈ ns, h.2.Compatible n

instance [DecidableEq K] [DecidableEq I] (g : Grants K I) (i : I) (ns : List (Lock K)) : Decidable (g.Allow i ns) :=
  inferInstanceAs (Decidable (∀ h ∈ g.list, h.1 ≠ i → ∀ n ∈ ns, h.2.Compatible n))

/-- `i` takes these locks. -/
def take (i : I) (ns : List (Lock K)) (g : Grants K I) : Grants K I := ⟨ns.map (fun n => (i, n)) ++ g.list⟩

/-- `i` gives its locks back. -/
def release [DecidableEq I] (i : I) (g : Grants K I) : Grants K I := ⟨g.list.filter fun h => h.1 ≠ i⟩

variable {g : Grants K I} {i j : I} {n : Lock K} {ns : List (Lock K)}

theorem holds_take_self (h : n ∈ ns) : (g.take i ns).Holds i n :=
  List.mem_append_left _ (List.mem_map_of_mem h)

theorem Holds.take (h : g.Holds j n) : (g.take i ns).Holds j n := List.mem_append_right _ h

/-- The others keep their locks. -/
theorem Holds.release [DecidableEq I] (h : g.Holds j n) (hij : j ≠ i) : (g.release i).Holds j n :=
  List.mem_filter.2 ⟨h, by simpa using hij⟩

/-- What `i` may take is compatible with what the others hold. -/
theorem Allow.compatible (h : g.Allow i ns) (hj : g.Holds j n) (hij : j ≠ i) : ∀ m ∈ ns, m.Compatible n :=
  fun m hm => (h (j, n) hj hij m hm).symm

/-- No two owners hold locks that exclude each other. -/
def Coherent (g : Grants K I) : Prop := ∀ i j m n, i ≠ j → g.Holds i m → g.Holds j n → m.Compatible n

theorem coherent_none : (none : Grants K I).Coherent := fun _ _ _ _ _ h => by cases h

theorem Coherent.take (hg : g.Coherent) (h : g.Allow i ns) : (g.take i ns).Coherent := by
  intro a b m n hab ha hb
  rcases List.mem_append.1 ha with ha | ha <;> rcases List.mem_append.1 hb with hb | hb
  · obtain ⟨m', -, hm'⟩ := List.mem_map.1 ha
    obtain ⟨n', -, hn'⟩ := List.mem_map.1 hb
    cases hm'
    cases hn'
    exact absurd rfl hab
  · obtain ⟨m', hm, hm'⟩ := List.mem_map.1 ha
    cases hm'
    exact h.compatible hb (Ne.symm hab) _ hm
  · obtain ⟨n', hn, hn'⟩ := List.mem_map.1 hb
    cases hn'
    exact (h.compatible ha hab _ hn).symm
  · exact hg a b m n hab ha hb

theorem Coherent.release [DecidableEq I] (hg : g.Coherent) : (g.release i).Coherent :=
  fun a b m n hab ha hb => hg a b m n hab (List.mem_filter.1 ha).1 (List.mem_filter.1 hb).1

end Grants

end Genzh.Lib

namespace Genzh.Lib

/-! ## Locks of rows

Row locks: who holds the lock of each key, if anybody does. A lock is taken where nobody else holds it, and
all the locks of an owner go together, as those of a transaction do when it ends.
-/

/-- The owner of each key's lock. -/
structure RowLocks (K I : Type*) where
  owner : K → Option I

namespace RowLocks

variable {K I : Type*} [DecidableEq K] [DecidableEq I]

/-- Nobody holds a lock. -/
def none : RowLocks K I := ⟨fun _ => .none⟩

/-- Does `i` hold the lock of `k`? -/
def holds (l : RowLocks K I) (i : I) (k : K) : Bool := l.owner k = some i

/-- Does nobody but `i` hold the lock of `k`? -/
def free (l : RowLocks K I) (i : I) (k : K) : Bool := (l.owner k).all fun j => j = i

/-- `i` takes the lock of `k`. -/
def take (i : I) (k : K) (l : RowLocks K I) : RowLocks K I := ⟨Function.update l.owner k (some i)⟩

/-- `i` gives its locks back. -/
def release (i : I) (l : RowLocks K I) : RowLocks K I := ⟨fun k => (l.owner k).filter fun j => j ≠ i⟩

variable {l : RowLocks K I} {i j : I} {k k' : K}

omit [DecidableEq K] in
@[simp] theorem free_none : (none : RowLocks K I).free i k = true := rfl

omit [DecidableEq K] in
theorem holds_iff : l.holds i k = true ↔ l.owner k = some i := decide_eq_true_iff

omit [DecidableEq K] in
/-- A lock has one holder. -/
theorem holds_unique (hi : l.holds i k = true) (hj : l.holds j k = true) : i = j := by
  rw [holds_iff] at hi hj
  exact Option.some.inj (hi.symm.trans hj)

omit [DecidableEq K] in
theorem eq_of_free (hf : l.free j k = true) (hi : l.holds i k = true) : i = j := by
  unfold free at hf
  rw [holds_iff.1 hi] at hf
  simpa using hf

omit [DecidableEq I] in
theorem owner_take_of_ne (hk : k' ≠ k) : (l.take i k).owner k' = l.owner k' := Function.update_of_ne hk ..

@[simp] theorem holds_take_self : (l.take i k).holds i k = true := by
  simp [holds, take]

/-- What a lock's new holder takes, it takes from nobody. -/
theorem holds_take (hf : l.free j k = true) (hi : l.holds i k' = true) : (l.take j k).holds i k' = true := by
  by_cases hk : k' = k
  · subst hk
    rw [eq_of_free hf hi]
    exact holds_take_self
  · rw [holds_iff, owner_take_of_ne hk]
    exact holds_iff.1 hi

/-- What `i` takes is still free to it, and so is what was. -/
theorem free_take (hf : l.free i k' = true) : (l.take i k).free i k' = true := by
  by_cases hk : k' = k
  · subst hk
    simp [free, take]
  · unfold free
    rw [owner_take_of_ne hk]
    exact hf

omit [DecidableEq K] in
/-- The others keep their locks. -/
theorem holds_release (hij : i ≠ j) (hi : l.holds i k = true) : (l.release j).holds i k = true := by
  rw [holds_iff] at hi ⊢
  simp [release, hi, hij]

end RowLocks

end Genzh.Lib
