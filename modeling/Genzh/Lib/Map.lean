/-
Maps: tables whose rows are a key and its value. `get`, `set`, `erase` and `retain` are those of a hash map.
-/
import Genzh.Lib.Table

namespace Genzh.Lib

/-- A key and its value. -/
structure Entry (κ ν : Type*) where
  key : κ
  val : ν
  deriving DecidableEq, Repr

instance {κ ν : Type*} : HasKey (Entry κ ν) κ := ⟨Entry.key⟩

/-- A map from keys to values. -/
abbrev Map (κ ν : Type*) := Table (Entry κ ν)

namespace Map

variable {κ ν : Type*}

/-- The map without entries. -/
def empty : Map κ ν := Table.empty

def size (m : Map κ ν) : Nat := m.rows.length

/-- The values, in the order of their keys' first insertion. -/
def values (m : Map κ ν) : List ν := m.rows.map Entry.val

/-- Keep the entries that satisfy `p`. -/
def retain (p : κ → ν → Bool) (m : Map κ ν) : Map κ ν := m.deleteWhere fun e => !p e.key e.val

variable [DecidableEq κ]

def get (m : Map κ ν) (k : κ) : Option ν := (m.find k).map Entry.val

def set (m : Map κ ν) (k : κ) (v : ν) : Map κ ν := m.put ⟨k, v⟩

def erase (m : Map κ ν) (k : κ) : Map κ ν := m.delete k

variable {m : Map κ ν} {k k' : κ} {v : ν}

@[simp] theorem get_empty : (empty : Map κ ν).get k = none := rfl

theorem get_set : (m.set k v).get k' = if k = k' then some v else m.get k' := by
  unfold get set
  rw [Table.find_put]
  by_cases hk : k = k'
  · rw [if_pos hk, if_pos (show HasKey.key (Entry.mk k v) = k' from hk)]
    rfl
  · rw [if_neg hk, if_neg (show ¬ HasKey.key (Entry.mk k v) = k' from hk)]

@[simp] theorem get_set_self : (m.set k v).get k = some v := by rw [get_set, if_pos rfl]

theorem get_set_of_ne (h : k ≠ k') : (m.set k v).get k' = m.get k' := by rw [get_set, if_neg h]

theorem get_erase : (m.erase k).get k' = if k = k' then none else m.get k' := by
  unfold get erase
  rw [Table.find_delete]
  by_cases hk : k = k' <;> simp [hk]

@[simp] theorem get_erase_self : (m.erase k).get k = none := by rw [get_erase, if_pos rfl]

theorem get_erase_of_ne (h : k ≠ k') : (m.erase k).get k' = m.get k' := by rw [get_erase, if_neg h]

theorem find_eq_some {e : Entry κ ν} : m.find k = some e ↔ e.key = k ∧ m.get k = some e.val := by
  unfold get
  constructor
  · intro h
    exact ⟨Table.find_key h, by rw [h]; rfl⟩
  · rintro ⟨rfl, h⟩
    obtain ⟨e', he', hval⟩ := Option.map_eq_some_iff.1 h
    have hkey : e'.key = e.key := Table.find_key he'
    obtain rfl : e' = e := by
      cases e'
      cases e
      simp_all
    exact he'

theorem mem_rows {e : Entry κ ν} : e ∈ m.rows ↔ m.get e.key = some e.val := by
  rw [Table.mem_iff_find]
  exact find_eq_some.trans (and_iff_right rfl)

theorem mem_values : v ∈ m.values ↔ ∃ k, m.get k = some v := by
  unfold values
  rw [List.mem_map]
  constructor
  · rintro ⟨e, he, rfl⟩
    exact ⟨e.key, mem_rows.1 he⟩
  · rintro ⟨k, hk⟩
    exact ⟨⟨k, v⟩, mem_rows.2 hk, rfl⟩

theorem get_retain {p : κ → ν → Bool} : (m.retain p).get k = (m.get k).filter (p k) := by
  unfold get retain
  rw [Table.find_deleteWhere]
  rcases h : m.find k with _ | e
  · rfl
  · have hkey : e.key = k := Table.find_key h
    subst hkey
    cases hp : p e.key e.val <;> simp [Option.filter, hp]

/-- A map is empty when it has no value at any key. -/
theorem rows_eq_nil : m.rows = [] ↔ ∀ k, m.get k = none := by
  constructor
  · intro h k
    rcases hg : m.get k with _ | v
    · rfl
    · have : (⟨k, v⟩ : Entry κ ν) ∈ m.rows := mem_rows.2 hg
      rw [h] at this
      cases this
  · intro h
    rw [List.eq_nil_iff_forall_not_mem]
    intro e he
    have := mem_rows.1 he
    rw [h] at this
    cases this

/-- A map filled from a list, each value made from the one before it: at a key, the fold of what the list has there. -/
theorem get_foldl_set {α : Type*} (key : α → κ) (f : Option ν → α → ν) (l : List α) (m : Map κ ν) (k : κ) :
    (l.foldl (fun m a => m.set (key a) (f (m.get (key a)) a)) m).get k =
      (l.filter fun a => key a = k).foldl (fun v a => some (f v a)) (m.get k) := by
  induction l generalizing m with
  | nil => rfl
  | cons a l ih =>
    rw [List.foldl_cons, ih, List.filter_cons]
    by_cases hk : key a = k
    · rw [if_pos (decide_eq_true hk), List.foldl_cons, get_set, if_pos hk, hk]
    · rw [if_neg (by simpa using hk), get_set_of_ne hk]

end Map

end Genzh.Lib
