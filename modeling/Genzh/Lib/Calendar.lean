/-
The Gregorian calendar, before its beginning too. Days are counted from the first of January of the year 0, and the
calendar repeats itself every four hundred years: an era.
-/
import Mathlib.Tactic
import Genzh.Lib.Lexical

namespace Genzh.Lib.Calendar

open Genzh.Lib.Lexical

def isLeap (year : Nat) : Bool := year % 4 = 0 && (year % 100 ≠ 0 || year % 400 = 0)

/-- The days of an era before one of its years. -/
def daysBeforeYear (year : Nat) : Nat := 365 * year + (year + 3) / 4 - (year + 99) / 100 + (year + 399) / 400

def monthLengths (leap : Bool) : List Nat := [31, if leap then 29 else 28, 31, 30, 31, 30, 31, 31, 30, 31, 30, 31]

/-- The days of a year before one of its months, the first being the month 0. -/
def daysBeforeMonth (leap : Bool) (month : Nat) : Nat := ((monthLengths leap).take month).sum

structure Date where
  year : Int
  month : Nat
  day : Nat
  deriving DecidableEq, Repr

/-- The year of an era that a day of it is in. -/
def yearOf (day : Nat) : Nat := Nat.findGreatest (fun year => daysBeforeYear year ≤ day) 399

/-- The month that a day of a year is in. -/
def monthOf (leap : Bool) (day : Nat) : Nat := Nat.findGreatest (fun month => daysBeforeMonth leap month ≤ day) 11

def dayOfEra (day : Int) : Nat := (day % 146097).toNat

def dayOfYear (day : Int) : Nat := dayOfEra day - daysBeforeYear (yearOf (dayOfEra day))

/-- The date of a day. -/
def date (day : Int) : Date :=
  let leap := isLeap (yearOf (dayOfEra day))
  let month := monthOf leap (dayOfYear day)
  { year := day / 146097 * 400 + yearOf (dayOfEra day)
    month := month + 1
    day := dayOfYear day - daysBeforeMonth leap month + 1 }

/-! ## Years -/

theorem dayOfEra_lt (day : Int) : dayOfEra day < 146097 := by
  unfold dayOfEra
  omega

theorem yearOf_le (day : Nat) : yearOf day ≤ 399 := Nat.findGreatest_le _

theorem daysBeforeYear_yearOf (day : Nat) : daysBeforeYear (yearOf day) ≤ day :=
  Nat.findGreatest_spec (P := fun year => daysBeforeYear year ≤ day) (Nat.zero_le 399) (Nat.zero_le day)

theorem yearOf_mono : Monotone yearOf :=
  fun _ _ h => Nat.findGreatest_mono_left (fun _ hyear => hyear.trans h) 399

theorem isLeap_iff {year : Nat} : isLeap year = true ↔ year % 4 = 0 ∧ (year % 100 ≠ 0 ∨ year % 400 = 0) := by
  simp [isLeap]

theorem daysBeforeYear_succ (year : Nat) :
    daysBeforeYear (year + 1) = daysBeforeYear year + (if isLeap year then 366 else 365) := by
  have hfour : (year + 1 + 3) / 4 = (year + 3) / 4 + if year % 4 = 0 then 1 else 0 := by split <;> omega
  have hhundred : (year + 1 + 99) / 100 = (year + 99) / 100 + if year % 100 = 0 then 1 else 0 := by split <;> omega
  have hera : (year + 1 + 399) / 400 = (year + 399) / 400 + if year % 400 = 0 then 1 else 0 := by split <;> omega
  have hmost : (year + 99) / 100 ≤ year := by omega
  have h400 : year % 400 = 0 → year % 100 = 0 := by omega
  have h100 : year % 100 = 0 → year % 4 = 0 := by omega
  unfold daysBeforeYear
  rw [hfour, hhundred, hera]
  generalize (year + 3) / 4 = a, (year + 99) / 100 = b at *
  by_cases hleap : isLeap year = true
  · rw [if_pos hleap]
    rw [isLeap_iff] at hleap
    split_ifs <;> omega
  · rw [if_neg hleap]
    rw [isLeap_iff] at hleap
    split_ifs <;> omega

theorem lt_daysBeforeYear {day : Nat} (h : day < 146097) : day < daysBeforeYear (yearOf day + 1) := by
  rcases (yearOf_le day).lt_or_eq with hlt | heq
  · have hnot : ¬daysBeforeYear (yearOf day + 1) ≤ day :=
      Nat.findGreatest_is_greatest (P := fun year => daysBeforeYear year ≤ day) (Nat.lt_succ_self _) hlt
    exact Nat.lt_of_not_le hnot
  · rw [heq]
    exact h

theorem dayOfYear_lt (day : Int) : dayOfYear day < if isLeap (yearOf (dayOfEra day)) then 366 else 365 := by
  have hnext := lt_daysBeforeYear (dayOfEra_lt day)
  have hstart := daysBeforeYear_yearOf (dayOfEra day)
  rw [daysBeforeYear_succ] at hnext
  unfold dayOfYear
  omega

/-! ## Months -/

theorem monthOf_le (leap : Bool) (day : Nat) : monthOf leap day ≤ 11 := Nat.findGreatest_le _

theorem daysBeforeMonth_monthOf (leap : Bool) (day : Nat) : daysBeforeMonth leap (monthOf leap day) ≤ day :=
  Nat.findGreatest_spec (P := fun month => daysBeforeMonth leap month ≤ day) (Nat.zero_le 11) (Nat.zero_le day)

theorem monthOf_mono (leap : Bool) : Monotone (monthOf leap) :=
  fun _ _ h => Nat.findGreatest_mono_left (fun _ hmonth => hmonth.trans h) 11

theorem daysBeforeMonth_succ (leap : Bool) {month : Nat} (h : month ≤ 11) :
    daysBeforeMonth leap (month + 1) ≤ daysBeforeMonth leap month + 31 := by
  have hlt : month < (monthLengths leap).length := Nat.lt_succ_of_le h
  have hmost : ∀ n ∈ monthLengths leap, n ≤ 31 := by cases leap <;> simp [monthLengths]
  unfold daysBeforeMonth
  rw [List.sum_take_succ _ _ hlt]
  exact Nat.add_le_add_left (hmost _ (List.getElem_mem hlt)) _

theorem lt_daysBeforeMonth {leap : Bool} {day : Nat} (h : day < if leap then 366 else 365) :
    day < daysBeforeMonth leap (monthOf leap day + 1) := by
  rcases (monthOf_le leap day).lt_or_eq with hlt | heq
  · have hnot : ¬daysBeforeMonth leap (monthOf leap day + 1) ≤ day :=
      Nat.findGreatest_is_greatest (P := fun month => daysBeforeMonth leap month ≤ day) (Nat.lt_succ_self _) hlt
    exact Nat.lt_of_not_le hnot
  · rw [heq]
    cases leap <;> exact h

/-! ## Dates -/

theorem month_le (day : Int) : (date day).month ≤ 12 := Nat.succ_le_succ (monthOf_le _ _)

theorem day_le (day : Int) : (date day).day ≤ 31 := by
  have hnext := lt_daysBeforeMonth (dayOfYear_lt day)
  have hmonth := monthOf_le (isLeap (yearOf (dayOfEra day))) (dayOfYear day)
  have hsucc := daysBeforeMonth_succ (isLeap (yearOf (dayOfEra day))) hmonth
  unfold date
  dsimp only
  omega

theorem year_mono : Monotone fun day => (date day).year := by
  intro x y h
  have hx := yearOf_le (dayOfEra x)
  change x / 146097 * 400 + (yearOf (dayOfEra x) : Int) ≤ y / 146097 * 400 + (yearOf (dayOfEra y) : Int)
  rcases (Int.ediv_le_ediv (by norm_num) h : x / 146097 ≤ y / 146097).lt_or_eq with hlt | heq
  · omega
  · have hday : dayOfEra x ≤ dayOfEra y := by
      unfold dayOfEra
      omega
    have hyear := yearOf_mono hday
    omega

/-- The days of one year are told apart by their number in it. -/
theorem lt_iff_of_year_eq {x y : Int} (h : (date x).year = (date y).year) :
    yearOf (dayOfEra x) = yearOf (dayOfEra y) ∧ (x < y ↔ dayOfYear x < dayOfYear y) := by
  change x / 146097 * 400 + (yearOf (dayOfEra x) : Int) = y / 146097 * 400 + (yearOf (dayOfEra y) : Int) at h
  have hx := yearOf_le (dayOfEra x)
  have hy := yearOf_le (dayOfEra y)
  have hyear : yearOf (dayOfEra x) = yearOf (dayOfEra y) := by omega
  have hxstart := daysBeforeYear_yearOf (dayOfEra x)
  have hystart := daysBeforeYear_yearOf (dayOfEra y)
  refine ⟨hyear, ?_⟩
  unfold dayOfYear
  rw [hyear] at h hxstart ⊢
  unfold dayOfEra at *
  omega

/-- Within a year, by the month and then by the day of the month. -/
theorem lt_iff_month (leap : Bool) (a b : Nat) : a < b ↔ monthOf leap a < monthOf leap b ∨ monthOf leap a = monthOf leap b ∧
    a - daysBeforeMonth leap (monthOf leap a) < b - daysBeforeMonth leap (monthOf leap b) := by
  refine lt_iff_parts (f := monthOf leap) (g := fun day => day - daysBeforeMonth leap (monthOf leap day)) (monthOf_mono leap)
    (fun a b heq => ?_) a b
  have ha := daysBeforeMonth_monthOf leap a
  have hb := daysBeforeMonth_monthOf leap b
  change a < b ↔ a - daysBeforeMonth leap (monthOf leap a) < b - daysBeforeMonth leap (monthOf leap b)
  rw [heq] at ha ⊢
  omega

/-- Days are in the order of their dates. -/
theorem lt_iff_date (x y : Int) : x < y ↔ (date x).year < (date y).year ∨ (date x).year = (date y).year ∧
    toLex ((date x).month, (date x).day) < toLex ((date y).month, (date y).day) := by
  refine lt_iff_parts (f := fun day => (date day).year) (g := fun day => toLex ((date day).month, (date day).day)) year_mono
    (fun x y h => ?_) x y
  obtain ⟨hyear, hday⟩ := lt_iff_of_year_eq h
  rw [hday, Prod.Lex.toLex_lt_toLex, lt_iff_month (isLeap (yearOf (dayOfEra x)))]
  unfold date
  dsimp only
  rw [← hyear]
  omega

/-- The first of January 1970, a leap day, and the day before the first. -/
example : date 719528 = ⟨1970, 1, 1⟩ ∧ date (719528 + 11016) = ⟨2000, 2, 29⟩ ∧ date (-1) = ⟨-1, 12, 31⟩ := by
  decide +kernel

end Genzh.Lib.Calendar
