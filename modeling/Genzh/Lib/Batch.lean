/-
Passes over a list of items: each item is taken once, in order of its first occurrence, and where one fails the pass goes
on. What is collected are the results of the items by themselves, each on the store that those before it left.
-/
import Genzh.Lib.Prog
import Genzh.Lib.Run

namespace Genzh.Lib.Prog

variable {S E α β : Type}

/-- `match m`: the result is looked at, and nothing stops. -/
def result {E' : Type} (m : Prog S E α) : Prog S E' (Except E α) := fun s => (.ok (m.exec s).1, (m.exec s).2)

/-- The results of those items that have not been seen. -/
def collectFrom [DecidableEq α] (f : α → Prog S E β) (seen : List α) : List α → Prog S E (List (α × Except E β))
  | [] => pure []
  | a :: as =>
    if a ∈ seen then collectFrom f seen as
    else do
      let r ← result (f a)
      let rs ← collectFrom f (a :: seen) as
      pure ((a, r) :: rs)

/-- A pass over the items. -/
def collect [DecidableEq α] (f : α → Prog S E β) (as : List α) : Prog S E (List (α × Except E β)) := collectFrom f [] as

/-- The store that an item leaves. -/
def left (f : α → Prog S E β) (s : S) (r : α × Except E β) : S := ((f r.1).exec s).2

theorem exec_result_bind (m : Prog S E α) (f : Except E α → Prog S E β) (s : S) :
    (result m >>= f).exec s = (f (m.exec s).1).exec (m.exec s).2 := rfl

/-- The first item, and the other ones. -/
theorem eraseDups_filter_cons [DecidableEq α] {seen : List α} {a : α} (h : a ∉ seen) (as : List α) :
    ((a :: as).filter (· ∉ seen)).eraseDups = a :: (as.filter (· ∉ a :: seen)).eraseDups := by
  rw [List.filter_cons_of_pos (by simpa using h), List.eraseDups_cons, List.filter_filter]
  congr 2
  refine List.filter_congr fun b _ => ?_
  rw [Bool.eq_iff_iff]
  simp [List.mem_cons]

theorem exec_collectFrom [DecidableEq α] (f : α → Prog S E β) (seen as : List α) (s : S) :
    ∃ rs, (collectFrom f seen as).exec s = (.ok rs, run (left f) s rs) ∧
      rs.map Prod.fst = (as.filter (· ∉ seen)).eraseDups ∧
      Along (left f) (fun s r => r.2 = ((f r.1).exec s).1) s rs := by
  -- whatever has been seen, and whatever the items before have left
  induction as generalizing seen s with
  | nil => exact ⟨[], rfl, rfl, trivial⟩
  | cons a as ih =>
    unfold collectFrom
    split
    · rename_i hseen
      rw [List.filter_cons_of_neg (by simpa using hseen)]
      exact ih seen s
    · rename_i hfresh
      obtain ⟨rs, hrs, hitems, halong⟩ := ih (a :: seen) ((f a).exec s).2
      refine ⟨(a, ((f a).exec s).1) :: rs, ?_, ?_, rfl, halong⟩
      · rw [exec_result_bind, exec_bind_ok hrs]
        rfl
      · rw [List.map_cons, hitems, eraseDups_filter_cons hfresh]

/-- What a pass collects, and what it leaves. -/
theorem exec_collect [DecidableEq α] (f : α → Prog S E β) (as : List α) (s : S) :
    ∃ rs, (collect f as).exec s = (.ok rs, run (left f) s rs) ∧ rs.map Prod.fst = as.eraseDups ∧
      Along (left f) (fun s r => r.2 = ((f r.1).exec s).1) s rs := by
  obtain ⟨rs, hrs, hitems, halong⟩ := exec_collectFrom f [] as s
  refine ⟨rs, hrs, ?_, halong⟩
  rw [hitems, List.filter_eq_self.2 fun a _ => by simp]

/-- A pass leads wherever its items, one after another, lead. -/
theorem Leads.collect [DecidableEq α] {R : S → S → Prop} (hrefl : ∀ s, R s s) (htrans : ∀ s s' s'', R s s' → R s' s'' → R s s'')
    {f : α → Prog S E β} (hf : ∀ a, Leads R (f a)) (as : List α) : Leads R (Prog.collect f as) := by
  intro s
  obtain ⟨rs, hrs, -, -⟩ := exec_collect f as s
  rw [hrs]
  show R s (run (left f) s rs)
  clear hrs
  induction rs generalizing s with
  | nil => exact hrefl s
  | cons r rs ih => exact htrans _ _ _ (hf r.1 s) (ih _)

end Genzh.Lib.Prog
