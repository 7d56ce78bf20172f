/-
Tables of rows under a primary key, in insertion order. The key's uniqueness is a field of the
structure, so a table with two rows of one key cannot be built and every write below keeps it.

The reads are `find` (the row of a key), `select` (the rows that satisfy a predicate, in insertion
order) and `count`. The writes are the four statements of SQL: `insert` (with `ON CONFLICT DO
NOTHING`), `upsert` (with `ON CONFLICT DO UPDATE`), `updateWhere` and `deleteWhere`. For every
write there is one equation for each read.
-/
import Mathlib.Tactic
import Mathlib.Data.List.Nodup

namespace Genzh.Lib

/-- Rows that carry their own primary key. -/
class HasKey (ρ : Type*) (κ : outParam Type*) where
  key : ρ → κ

export HasKey (key)

/-- A table: its rows in insertion order, no two of one key. -/
structure Table (ρ : Type*) {κ : Type*} [HasKey ρ κ] where
  rows : List ρ
  nodup : (rows.map key).Nodup

namespace Table

variable {ρ κ : Type*} [HasKey ρ κ]

@[ext] theorem ext {t t' : Table ρ} (h : t.rows = t'.rows) : t = t' := by
  cases t; cases t'; congr

def empty : Table ρ := ⟨[], List.nodup_nil⟩

/-- `SELECT .. WHERE p`, in insertion order. -/
def select (t : Table ρ) (p : ρ → Bool) : List ρ := t.rows.filter p

/-- `SELECT COUNT(*) .. WHERE p`. -/
def count (t : Table ρ) (p : ρ → Bool) : Nat := t.rows.countP p

/-- The first row of a list under an order, the earlier one of two that tie. -/
def firstBy (before : ρ → ρ → Bool) : List ρ → Option ρ
  | [] => none
  | r :: rs =>
    match firstBy before rs with
    | none => some r
    | some r' => some (if before r' r then r' else r)

/-- `SELECT .. WHERE p ORDER BY .. LIMIT 1`. -/
def selectFirst (t : Table ρ) (p : ρ → Bool) (before : ρ → ρ → Bool) : Option ρ := firstBy before (t.select p)

/-- `UPDATE .. SET f WHERE p`, for an `f` that leaves the key alone. -/
def updateWhere (t : Table ρ) (p : ρ → Bool) (f : ρ → ρ) (hf : ∀ r, key (f r) = key r) : Table ρ where
  rows := t.rows.map fun r => if p r then f r else r
  nodup := by
    have : (key ∘ fun r => if p r then f r else r) = (key : ρ → κ) := by
      funext r
      by_cases h : p r <;> simp [h, hf]
    rw [List.map_map, this]
    exact t.nodup

/-- `DELETE .. WHERE p`. -/
def deleteWhere (t : Table ρ) (p : ρ → Bool) : Table ρ where
  rows := t.rows.filter fun r => !p r
  nodup := t.nodup.sublist (List.filter_sublist.map key)

theorem mem_select {t : Table ρ} {p : ρ → Bool} {r : ρ} : r ∈ t.select p ↔ r ∈ t.rows ∧ p r := List.mem_filter

/-- Where one row alone satisfies a predicate, it is all that is selected. -/
theorem select_eq_singleton {t : Table ρ} {p : ρ → Bool} {r : ρ} (hr : r ∈ t.rows)
    (hp : ∀ r' ∈ t.rows, p r' = true ↔ r' = r) : t.select p = [r] := by
  classical
  have hsame : t.select p = t.rows.filter (· = r) := List.filter_congr fun r' hr' => by
    rw [Bool.eq_iff_iff, hp r' hr', decide_eq_true_eq]
  rw [hsame, List.filter_eq, List.count_eq_one_of_mem (t.nodup.of_map key) hr, List.replicate_one]

omit [HasKey ρ κ] in
theorem firstBy_mem {before : ρ → ρ → Bool} : ∀ {rs : List ρ} {r : ρ}, firstBy before rs = some r → r ∈ rs
  | a :: rs, r, h => by
    unfold firstBy at h
    split at h
    · cases h
      exact List.mem_cons_self
    · rename_i r' hr'
      split at h
      · cases h
        exact List.mem_cons_of_mem _ (firstBy_mem hr')
      · cases h
        exact List.mem_cons_self

omit [HasKey ρ κ] in
theorem firstBy_eq_none {before : ρ → ρ → Bool} {rs : List ρ} : firstBy before rs = none ↔ rs = [] := by
  cases rs with
  | nil => simp [firstBy]
  | cons r rs =>
    simp only [firstBy, reduceCtorEq, iff_false]
    split <;> simp

theorem selectFirst_mem {t : Table ρ} {p : ρ → Bool} {before : ρ → ρ → Bool} {r : ρ}
    (h : t.selectFirst p before = some r) : r ∈ t.rows ∧ p r = true :=
  mem_select.1 (firstBy_mem h)

theorem selectFirst_eq_none {t : Table ρ} {p : ρ → Bool} {before : ρ → ρ → Bool} :
    t.selectFirst p before = none ↔ ∀ r ∈ t.rows, p r = false := by
  simp [selectFirst, firstBy_eq_none, select]

theorem mem_updateWhere {t : Table ρ} {p : ρ → Bool} {f : ρ → ρ} {hf} {r' : ρ} :
    r' ∈ (t.updateWhere p f hf).rows ↔ ∃ r ∈ t.rows, (if p r then f r else r) = r' := List.mem_map

theorem mem_deleteWhere {t : Table ρ} {p : ρ → Bool} {r : ρ} :
    r ∈ (t.deleteWhere p).rows ↔ r ∈ t.rows ∧ p r = false := by simp [deleteWhere]

theorem count_eq_zero {t : Table ρ} {p : ρ → Bool} : t.count p = 0 ↔ ∀ r ∈ t.rows, p r = false := by
  simp [count, List.countP_eq_zero]

/-- Two counts of which one asks for more are the same number only where they count the same rows. -/
theorem count_eq_iff {t : Table ρ} {p q : ρ → Bool} (h : ∀ r ∈ t.rows, p r = true → q r = true) :
    t.count p = t.count q ↔ ∀ r ∈ t.rows, q r = true → p r = true := by
  have hnarrow : t.rows.countP p = (t.rows.filter q).countP p := by
    rw [List.countP_filter]
    refine List.countP_congr fun r hr => ?_
    rw [Bool.and_eq_true]
    exact (and_iff_left_of_imp (h r hr)).symm
  unfold count
  rw [hnarrow, List.countP_eq_length_filter (p := q), List.countP_eq_length]
  exact ⟨fun hall r hr hq => hall r (List.mem_filter.2 ⟨hr, hq⟩),
    fun hall r hr => hall r (List.mem_filter.1 hr).1 (List.mem_filter.1 hr).2⟩

/-- Two updates that pick the same rows are one. -/
theorem updateWhere_congr {t : Table ρ} {p q : ρ → Bool} {f : ρ → ρ} {hf} (h : ∀ r ∈ t.rows, p r = q r) :
    t.updateWhere p f hf = t.updateWhere q f hf := by
  apply ext
  apply List.map_congr_left
  intro r hr
  simp only [h r hr]

/-- A write that changes no row's standing under `p` keeps the count. -/
theorem count_updateWhere (t : Table ρ) (p q : ρ → Bool) (f : ρ → ρ) (hf) (hq : ∀ r, q (f r) = q r) :
    (t.updateWhere p f hf).count q = t.count q := by
  unfold count updateWhere
  rw [List.countP_map]
  apply List.countP_congr
  intro r _
  by_cases h : p r <;> simp [h, hq]

/-- A write after which no row written counts: those that counted before are gone from the count. -/
theorem count_updateWhere_out (t : Table ρ) (p q : ρ → Bool) (f : ρ → ρ) (hf) (hq : ∀ r, q (f r) = false) :
    (t.updateWhere p f hf).count q + t.count (fun r => q r && p r) = t.count q := by
  have hleft : (t.updateWhere p f hf).count q = t.rows.countP fun r => q r && !p r := by
    unfold count updateWhere
    rw [List.countP_map]
    apply List.countP_congr
    intro r _
    by_cases h : p r <;> simp [h, hq]
  rw [hleft, count, count, List.countP_eq_countP_filter_add t.rows q p, List.countP_filter, List.countP_filter, Nat.add_comm]

theorem count_deleteWhere (t : Table ρ) (p q : ρ → Bool) :
    (t.deleteWhere p).count q = t.count fun r => q r && !p r := by
  unfold count deleteWhere
  rw [List.countP_filter]

variable [DecidableEq κ]

/-- The row of a key. -/
def find (t : Table ρ) (k : κ) : Option ρ := t.rows.find? fun r => key r = k

/-- Is there a row of this key? -/
def contains (t : Table ρ) (k : κ) : Bool := (t.find k).isSome

theorem find_eq_some {t : Table ρ} {k : κ} {r : ρ} : t.find k = some r ↔ r ∈ t.rows ∧ key r = k := by
  constructor
  · intro h
    exact ⟨List.mem_of_find?_eq_some h, by simpa using List.find?_some h⟩
  · rintro ⟨hr, rfl⟩
    rcases hf : t.find (key r) with _ | r'
    · have := List.find?_eq_none.1 hf r hr
      simp at this
    · have hk : key r' = key r := by simpa using List.find?_some hf
      rw [List.inj_on_of_nodup_map t.nodup (List.mem_of_find?_eq_some hf) hr hk]

theorem find_eq_none {t : Table ρ} {k : κ} : t.find k = none ↔ ∀ r ∈ t.rows, key r ≠ k := by
  simp [find, List.find?_eq_none]

theorem find_key {t : Table ρ} {k : κ} {r : ρ} (h : t.find k = some r) : key r = k := (find_eq_some.1 h).2

theorem mem_iff_find {t : Table ρ} {r : ρ} : r ∈ t.rows ↔ t.find (key r) = some r := by simp [find_eq_some]

theorem contains_iff {t : Table ρ} {k : κ} : t.contains k = true ↔ ∃ r, t.find k = some r :=
  Option.isSome_iff_exists

theorem contains_eq_false {t : Table ρ} {k : κ} : t.contains k = false ↔ t.find k = none := by simp [contains]

/-- `INSERT .. ON CONFLICT DO NOTHING`. -/
def insert (t : Table ρ) (r : ρ) : Table ρ :=
  if h : t.contains (key r) then t
  else ⟨t.rows ++ [r], by
    rw [Bool.not_eq_true, contains_eq_false, find_eq_none] at h
    rw [List.map_append, List.nodup_append]
    refine ⟨t.nodup, by simp, ?_⟩
    intro k hk k' hk'
    obtain ⟨r', hr', rfl⟩ := List.mem_map.1 hk
    obtain rfl : k' = key r := by simpa using hk'
    exact h r' hr'⟩

/-- `INSERT .. ON CONFLICT (key) DO UPDATE SET f`. -/
def upsert (t : Table ρ) (r : ρ) (f : ρ → ρ) (hf : ∀ r, key (f r) = key r) : Table ρ :=
  if t.contains (key r) then t.updateWhere (fun r' => key r' = key r) f hf else t.insert r

/-- Set the row of a key, whether there is one or not. -/
def put (t : Table ρ) (r : ρ) : Table ρ :=
  if t.contains (key r) then
    { rows := t.rows.map fun r' => if key r' = key r then r else r'
      nodup := by
        have : (key ∘ fun r' => if key r' = key r then r else r') = (key : ρ → κ) := by
          funext r'
          by_cases h : key r' = key r <;> simp [h]
        rw [List.map_map, this]
        exact t.nodup }
  else t.insert r

/-- `UPDATE .. SET f WHERE key = k`. -/
def update (t : Table ρ) (k : κ) (f : ρ → ρ) (hf : ∀ r, key (f r) = key r) : Table ρ :=
  t.updateWhere (fun r => key r = k) f hf

theorem mem_update (t : Table ρ) (k : κ) (f : ρ → ρ) (hf) {r' : ρ} :
    r' ∈ (t.update k f hf).rows ↔ (∃ r ∈ t.rows, key r = k ∧ f r = r') ∨ (r' ∈ t.rows ∧ key r' ≠ k) := by
  refine List.mem_map.trans ⟨?_, ?_⟩
  · rintro ⟨r, hr, rfl⟩
    by_cases hk : key r = k
    · exact .inl ⟨r, hr, hk, by simp [hk]⟩
    · exact .inr (by simp [hk, hr])
  · rintro (⟨r, hr, hk, rfl⟩ | ⟨hr, hk⟩)
    · exact ⟨r, hr, by simp [hk]⟩
    · exact ⟨r', hr, by simp [hk]⟩

/-- `DELETE .. WHERE key = k`. -/
def delete (t : Table ρ) (k : κ) : Table ρ := t.deleteWhere fun r => key r = k

/-- A delete that finds nothing changes nothing, and neither does an update. -/
theorem delete_of_absent {t : Table ρ} {k : κ} (h : t.contains k = false) : t.delete k = t := by
  apply ext
  refine List.filter_eq_self.2 fun r hr => ?_
  simp [find_eq_none.1 (contains_eq_false.1 h) r hr]

theorem update_of_absent {t : Table ρ} {k : κ} {f : ρ → ρ} {hf} (h : t.contains k = false) : t.update k f hf = t := by
  apply ext
  refine (List.map_congr_left fun r hr => ?_).trans (List.map_id t.rows)
  simp [find_eq_none.1 (contains_eq_false.1 h) r hr]

/-! ## The row of a key after a write -/

@[simp] theorem find_empty (k : κ) : (empty : Table ρ).find k = none := rfl

theorem find_insert (t : Table ρ) (r : ρ) (k : κ) :
    (t.insert r).find k = (t.find k).or (if key r = k then some r else none) := by
  unfold insert
  split
  · rename_i h
    obtain ⟨r', h⟩ := contains_iff.1 h
    by_cases hk : key r = k
    · subst hk; simp [h]
    · simp [hk]
  · by_cases hk : key r = k <;> simp [find, List.find?_append, hk]

theorem find_updateWhere (t : Table ρ) (p : ρ → Bool) (f : ρ → ρ) (hf) (k : κ) :
    (t.updateWhere p f hf).find k = (t.find k).map fun r => if p r then f r else r := by
  have : ((fun r => decide (key r = k)) ∘ fun r => if p r then f r else r) = fun r : ρ => decide (key r = k) := by
    funext r
    by_cases h : p r <;> simp [h, hf]
  simp only [find, updateWhere, List.find?_map, this]

theorem find_deleteWhere (t : Table ρ) (p : ρ → Bool) (k : κ) :
    (t.deleteWhere p).find k = (t.find k).filter fun r => !p r := by
  rcases h : t.find k with _ | r
  · rw [Option.filter_none, find_eq_none]
    intro r hr
    exact find_eq_none.1 h r (List.mem_filter.1 hr).1
  · obtain ⟨hr, rfl⟩ := find_eq_some.1 h
    by_cases hp : p r
    · rw [Option.filter_some_neg (by simp [hp]), find_eq_none]
      intro r' hr' hk
      obtain ⟨hr', hp'⟩ := List.mem_filter.1 hr'
      rw [List.inj_on_of_nodup_map t.nodup hr' hr hk] at hp'
      simp [hp] at hp'
    · rw [Option.filter_some_pos (by simp [hp]), find_eq_some]
      exact ⟨List.mem_filter.2 ⟨hr, by simp [hp]⟩, rfl⟩

theorem find_update (t : Table ρ) (k k' : κ) (f : ρ → ρ) (hf) :
    (t.update k f hf).find k' = if k = k' then (t.find k').map f else t.find k' := by
  rw [update, find_updateWhere]
  rcases h : t.find k' with _ | r
  · simp
  · obtain rfl := find_key h
    by_cases hk : key r = k
    · simp [hk]
    · simp [hk, Ne.symm hk]

theorem find_delete (t : Table ρ) (k k' : κ) :
    (t.delete k).find k' = if k = k' then none else t.find k' := by
  rw [delete, find_deleteWhere]
  rcases h : t.find k' with _ | r
  · simp
  · obtain rfl := find_key h
    by_cases hk : key r = k
    · simp [hk]
    · simp [hk, Ne.symm hk]

theorem find_upsert (t : Table ρ) (r : ρ) (f : ρ → ρ) (hf) (k : κ) :
    (t.upsert r f hf).find k = if key r = k then some ((t.find k).elim r f) else t.find k := by
  unfold upsert
  split
  · rename_i h
    obtain ⟨r', h⟩ := contains_iff.1 h
    have := find_update t (key r) k f hf
    rw [update] at this
    rw [this]
    by_cases hk : key r = k
    · subst hk; simp [h]
    · simp [hk]
  · rename_i h
    rw [Bool.not_eq_true, contains_eq_false] at h
    rw [find_insert]
    by_cases hk : key r = k
    · subst hk; simp [h]
    · simp [hk]

theorem find_put (t : Table ρ) (r : ρ) (k : κ) : (t.put r).find k = if key r = k then some r else t.find k := by
  unfold put
  split
  · rename_i h
    have hsame : ((fun r' => decide (key r' = k)) ∘ fun r' => if key r' = key r then r else r') =
        fun r' : ρ => decide (key r' = k) := by
      funext r'
      by_cases h : key r' = key r <;> simp [h]
    rw [find, List.find?_map, hsame]
    change (t.find k).map _ = _
    obtain ⟨r₀, hr₀⟩ := contains_iff.1 h
    by_cases hk : key r = k
    · subst hk
      simp [hr₀, find_key hr₀]
    · rw [if_neg hk]
      rcases hf : t.find k with _ | r'
      · rfl
      · obtain rfl := find_key hf
        simp [Ne.symm hk]
  · rename_i h
    rw [Bool.not_eq_true, contains_eq_false] at h
    rw [find_insert]
    by_cases hk : key r = k
    · subst hk; simp [h]
    · simp [hk]

/-- Rows put in one after the other are found before those that were there. -/
theorem find_foldl_put {k : κ} : ∀ (rows : List ρ) (t : Table ρ), (rows.map key).Nodup →
    (rows.foldl put t).find k = (rows.find? fun r => decide (key r = k)).or (t.find k)
  | [], t, _ => rfl
  | r :: rows, t, h => by
    obtain ⟨hnot, h⟩ := List.nodup_cons.1 h
    rw [List.foldl_cons, find_foldl_put rows (t.put r) h, find_put, List.find?_cons]
    by_cases hk : key r = k
    · have hnone : rows.find? (fun r => decide (key r = k)) = none := by
        refine List.find?_eq_none.2 fun r' hr' => ?_
        simp only [decide_eq_true_eq]
        exact fun heq => hnot (List.mem_map.2 ⟨r', hr', heq.trans hk.symm⟩)
      rw [hnone, if_pos hk, Option.none_or, decide_eq_true hk, Option.some_or]
    · rw [if_neg hk, decide_eq_false hk]

/-! ## The keys after a write -/

theorem contains_insert (t : Table ρ) (r : ρ) (k : κ) : (t.insert r).contains k = (t.contains k || decide (key r = k)) := by
  unfold contains
  rw [find_insert]
  by_cases hk : key r = k <;> simp [hk]

theorem contains_updateWhere (t : Table ρ) (p : ρ → Bool) (f : ρ → ρ) (hf) (k : κ) :
    (t.updateWhere p f hf).contains k = t.contains k := by
  unfold contains
  rw [find_updateWhere, Option.isSome_map]

theorem contains_upsert (t : Table ρ) (r : ρ) (f : ρ → ρ) (hf) (k : κ) :
    (t.upsert r f hf).contains k = (t.contains k || decide (key r = k)) := by
  unfold contains
  rw [find_upsert]
  by_cases hk : key r = k <;> simp [hk]

theorem contains_delete (t : Table ρ) (k k' : κ) : (t.delete k).contains k' = (t.contains k' && decide (k ≠ k')) := by
  unfold contains
  rw [find_delete]
  by_cases hk : k = k' <;> simp [hk]

/-! ## Rows and counts after an insert -/

theorem rows_insert {t : Table ρ} {r : ρ} (h : t.contains (key r) = false) : (t.insert r).rows = t.rows ++ [r] := by
  unfold insert
  rw [dif_neg (by simp [h])]

/-- Rows that a selection leaves out under one key are left out before and after that key is written. -/
theorem select_upsert_of_not (t : Table ρ) (r : ρ) (f : ρ → ρ) (hf) {p : ρ → Bool} (h : ∀ r', key r' = key r → p r' = false) :
    (t.upsert r f hf).select p = t.select p := by
  unfold upsert
  split
  · unfold select updateWhere
    simp only
    induction t.rows with
    | nil => rfl
    | cons r' rows ih =>
      rw [List.map_cons, List.filter_cons, List.filter_cons, ih]
      by_cases hk : key r' = key r
      · simp [hk, h r' hk, h (f r') ((hf r').trans hk)]
      · simp [hk]
  · rename_i hnew
    unfold select
    rw [rows_insert (Bool.eq_false_iff.2 hnew), List.filter_append, List.filter_singleton, h r rfl]
    exact List.append_nil _

theorem mem_insert {t : Table ρ} {r r' : ρ} :
    r' ∈ (t.insert r).rows ↔ r' ∈ t.rows ∨ (r' = r ∧ t.contains (key r) = false) := by
  unfold insert
  split
  · rename_i h; simp [h]
  · rename_i h; simp [h]

theorem count_insert (t : Table ρ) (r : ρ) (p : ρ → Bool) :
    (t.insert r).count p = t.count p + if t.contains (key r) = false ∧ p r then 1 else 0 := by
  unfold insert
  split
  · rename_i h; simp [h]
  · rename_i h
    by_cases hp : p r <;> simp [count, List.countP_append, h, hp]

theorem count_upsert (t : Table ρ) (r : ρ) (f : ρ → ρ) (hf) (p : ρ → Bool) (hp : ∀ r, p (f r) = p r) :
    (t.upsert r f hf).count p = t.count p + if t.contains (key r) = false ∧ p r then 1 else 0 := by
  unfold upsert
  split
  · rename_i h
    rw [count_updateWhere t _ p f hf hp]
    simp [h]
  · exact count_insert t r p

/-! ## Sums over the rows -/

section Sum

variable {M : Type*} [AddCommMonoid M] (g : ρ → M)

/-- `SELECT SUM(g) ..`. -/
def sum (t : Table ρ) : M := (t.rows.map g).sum

variable {g}

theorem sum_insert (t : Table ρ) (r : ρ) (h : t.contains (key r) = false) : (t.insert r).sum g = t.sum g + g r := by
  unfold sum
  rw [rows_insert h]
  simp

omit [DecidableEq κ] in
theorem sum_updateWhere (t : Table ρ) (p : ρ → Bool) (f : ρ → ρ) (hf) (hg : ∀ r, g (f r) = g r) :
    (t.updateWhere p f hf).sum g = t.sum g := by
  unfold sum updateWhere
  rw [List.map_map]
  congr 1
  apply List.map_congr_left
  intro r _
  by_cases h : p r <;> simp [h, hg]

/-- An update of one row changes the sum by that row. -/
theorem sum_update (t : Table ρ) (k : κ) (f : ρ → ρ) (hf) {r : ρ} (h : t.find k = some r) :
    (t.update k f hf).sum g + g r = t.sum g + g (f r) := by
  obtain ⟨hr, rfl⟩ := find_eq_some.1 h
  have hlist : ∀ l : List ρ, (l.map key).Nodup → r ∈ l →
      ((l.map fun r' => if key r' = key r then f r' else r').map g).sum + g r = (l.map g).sum + g (f r) := by
    intro l
    induction l with
    | nil => simp
    | cons a l ih =>
      intro hnd hmem
      rw [List.map_cons, List.nodup_cons] at hnd
      rcases List.mem_cons.1 hmem with rfl | hmem
      · -- the rest has other keys
        have hrest : (l.map fun r' => if key r' = key r then f r' else r') = l := by
          refine (List.map_congr_left fun r' hr' => ?_).trans (List.map_id l)
          have hne : key r' ≠ key r := fun he => hnd.1 (he ▸ List.mem_map_of_mem hr')
          simp [hne]
        rw [List.map_cons, hrest, if_pos rfl]
        simp only [List.map_cons, List.sum_cons]
        rw [add_comm (g (f r)), add_right_comm, add_comm (g r)]
      · have hne : key a ≠ key r := fun he => hnd.1 (he ▸ List.mem_map_of_mem hmem)
        rw [List.map_cons, if_neg hne]
        simp only [List.map_cons, List.sum_cons]
        rw [add_assoc, ih hnd.2 hmem, add_assoc]
  unfold sum update updateWhere
  simpa using hlist t.rows t.nodup hr

end Sum

end Table

end Genzh.Lib
