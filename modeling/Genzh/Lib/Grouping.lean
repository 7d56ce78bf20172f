/-
Rows grouped under a key in a hash map, each pushed onto the list of its key, and the groups taken out again one key after
another. A group keeps the order of its rows, and a key that comes once is given its whole group.
-/
import Genzh.Lib.Map

namespace Genzh.Lib

variable {κ ν : Type} [DecidableEq κ]

/-- `out.entry(key).or_default().push(value)`. -/
def Map.push (m : Map κ (List ν)) (row : κ × ν) : Map κ (List ν) := m.set row.1 ((m.get row.1).getD [] ++ [row.2])

/-- The rows under their keys. -/
def grouped (rows : List (κ × ν)) : Map κ (List ν) := rows.foldl Map.push Map.empty

/-- The rows of one key, in their order. -/
def groupOf (rows : List (κ × ν)) (k : κ) : List ν := (rows.filter fun row => row.1 = k).map Prod.snd

theorem groupOf_cons (row : κ × ν) (rows : List (κ × ν)) (k : κ) :
    groupOf (row :: rows) k = if row.1 = k then row.2 :: groupOf rows k else groupOf rows k := by
  unfold groupOf
  by_cases h : row.1 = k <;> simp [h]

theorem mem_groupOf {rows : List (κ × ν)} {k : κ} {v : ν} : v ∈ groupOf rows k ↔ (k, v) ∈ rows := by
  unfold groupOf
  simp only [List.mem_map, List.mem_filter, decide_eq_true_eq, Prod.exists, exists_eq_right]

/-- A group is in the order its rows are in. -/
theorem pairwise_groupOf {R : ν → ν → Prop} {rows : List (κ × ν)} (h : rows.Pairwise fun a b => a.1 = b.1 → R a.2 b.2) (k : κ) :
    (groupOf rows k).Pairwise R := by
  unfold groupOf
  rw [List.pairwise_map]
  refine (h.sublist List.filter_sublist).imp_of_mem fun ha hb hR => ?_
  simp only [List.mem_filter, decide_eq_true_eq] at ha hb
  exact hR (ha.2.trans hb.2.symm)

theorem get_foldl_push (rows : List (κ × ν)) (m : Map κ (List ν)) (k : κ) :
    ((rows.foldl Map.push m).get k).getD [] = (m.get k).getD [] ++ groupOf rows k := by
  induction rows generalizing m with
  | nil => simp [groupOf]
  | cons row rows ih =>
    rw [List.foldl_cons, ih, groupOf_cons, Map.push, Map.get_set]
    by_cases h : row.1 = k
    · subst h
      rw [if_pos rfl, if_pos rfl, Option.getD_some, List.append_assoc, List.singleton_append]
    · rw [if_neg h, if_neg h]

theorem get_grouped (rows : List (κ × ν)) (k : κ) : ((grouped rows).get k).getD [] = groupOf rows k := by
  rw [grouped, get_foldl_push]
  rfl

/-- `map.remove(&key).unwrap_or_default()`, one key after another. -/
def takeGroups (m : Map κ (List ν)) : List κ → List (List ν)
  | [] => []
  | k :: ks => (m.get k).getD [] :: takeGroups (m.erase k) ks

/-- Taking a group out leaves those of the other keys. -/
theorem takeGroups_eq {m : Map κ (List ν)} {ks : List κ} (h : ks.Nodup) : takeGroups m ks = ks.map fun k => (m.get k).getD [] := by
  induction ks generalizing m with
  | nil => rfl
  | cons k ks ih =>
    rw [List.nodup_cons] at h
    rw [takeGroups, ih h.2, List.map_cons]
    congr 1
    refine List.map_congr_left fun k' hk' => ?_
    have hne : k ≠ k' := fun heq => h.1 (heq.symm ▸ hk')
    rw [Map.get_erase_of_ne hne]

end Genzh.Lib
