/-
Regular expressions as a backtracking matcher reads them: the ways a pattern matches from a place in the text, in the
order they are tried, and the matches of a text from left to right. Classes are predicates on characters, and only a
class is repeated.
-/
import Mathlib.Data.List.DropRight
import Mathlib.Tactic

namespace Genzh.Lib

inductive Regex (α : Type*) where
  | empty
  | one (p : α → Bool)
  /-- `^` -/
  | start
  | seq (a b : Regex α)
  | alt (a b : Regex α)
  /-- A class any number of times, as often as possible first. -/
  | star (p : α → Bool)
  /-- A class once or not at all, once first. -/
  | opt (p : α → Bool)
  | group (a : Regex α)

/-- Where a matcher stands, and what the groups that have closed have captured. -/
structure Cursor (α : Type*) where
  index : Nat
  rest : List α
  groups : List (List α)

namespace Regex

variable {α : Type*} {p q : α → Bool} {a b : Regex α} {k : Cursor α} {c : α} {rest : List α}

/-- Past the next `n` characters. -/
def skip (k : Cursor α) (n : Nat) : Cursor α := { k with index := k.index + n, rest := k.rest.drop n }

def step (p : α → Bool) (k : Cursor α) : List (Cursor α) := if k.rest.head?.any p then [skip k 1] else []

/-- How many characters of the class can be taken, the most first. -/
def counts (p : α → Bool) : List α → List Nat
  | [] => [0]
  | c :: rest => if p c then (counts p rest).map (· + 1) ++ [0] else [0]

/-- The places where a match from here can end, in the order they are tried. -/
def ends : Regex α → Cursor α → List (Cursor α)
  | empty, k => [k]
  | one p, k => step p k
  | start, k => if k.index = 0 then [k] else []
  | seq a b, k => (ends a k).flatMap (ends b)
  | alt a b, k => ends a k ++ ends b k
  | star p, k => (counts p k.rest).map (skip k)
  | opt p, k => step p k ++ [k]
  | group a, k => (ends a k).map fun e => { e with groups := e.groups ++ [k.rest.take (e.index - k.index)] }

/-- The match the matcher settles on, where there is one. -/
def matchAt (r : Regex α) (index : Nat) (rest : List α) : Option (Cursor α) := (r.ends ⟨index, rest, []⟩).head?

/-- The matches of the text from here on, each looked for from where the last one ended; after a match of nothing
the next is looked for one character on. -/
def matchAll (r : Regex α) (index : Nat) (rest : List α) : List (Cursor α) :=
  match rest with
  | [] => (r.matchAt index []).toList
  | c :: rest =>
    match r.matchAt index (c :: rest) with
    | none => matchAll r (index + 1) rest
    | some e =>
      if e.rest.length < rest.length + 1 then e :: matchAll r e.index e.rest
      else e :: matchAll r (index + 1) rest
termination_by rest.length

/-- These characters, one after the other. -/
def lit [BEq α] : List α → Regex α
  | [] => empty
  | c :: w => seq (one (· == c)) (lit w)

/-! ## What the patterns match -/

@[simp] theorem skip_zero (k : Cursor α) : skip k 0 = k := rfl

@[simp] theorem skip_skip (k : Cursor α) (m n : Nat) : skip (skip k m) n = skip k (m + n) := by
  unfold skip
  simp only [List.drop_drop, Nat.add_assoc]

theorem step_cons (h : k.rest = c :: rest) : step p k = if p c then [skip k 1] else [] := by
  unfold step
  rw [h]
  rfl

theorem step_nil (h : k.rest = []) : step p k = [] := by
  unfold step
  rw [h]
  rfl

/-- A literal matches where the text goes on with it. -/
theorem ends_lit [BEq α] [LawfulBEq α] (w : List α) (k : Cursor α) :
    (lit w).ends k = if w.isPrefixOf k.rest then [skip k w.length] else [] := by
  induction w generalizing k with
  | nil => rfl
  | cons c w ih =>
    unfold lit ends
    rcases hk : k.rest with _ | ⟨d, rest⟩
    · simp [ends, step_nil hk]
    · have hrest : (skip k 1).rest = rest := by
        unfold skip
        rw [hk]
        rfl
      rw [ends, step_cons hk]
      by_cases hd : c = d
      · subst hd
        have hprefix : (c :: w).isPrefixOf (c :: rest) = w.isPrefixOf rest := by
          rw [List.isPrefixOf_cons_cons, beq_self_eq_true, Bool.true_and]
        rw [if_pos (beq_self_eq_true c), List.flatMap_singleton, ih, hrest, skip_skip, hprefix, List.length_cons, Nat.add_comm]
      · have hprefix : (c :: w).isPrefixOf (d :: rest) = false := by
          rw [List.isPrefixOf_cons_cons, beq_eq_false_iff_ne.2 hd, Bool.false_and]
        rw [if_neg (by rw [beq_iff_eq]; exact Ne.symm hd), hprefix]
        rfl

theorem rdropWhile_cons (c : α) (l : List α) :
    (c :: l).rdropWhile p = if l.rdropWhile p = [] then (if p c then [] else [c]) else c :: l.rdropWhile p := by
  unfold List.rdropWhile
  rw [List.reverse_cons, List.dropWhile_append]
  simp only [List.isEmpty_iff, List.reverse_eq_nil_iff]
  split
  · cases h : p c <;> simp [h]
  · simp

/-- Trying the counts one by one comes upon the last character of the narrower class. -/
theorem find_counts (hpq : ∀ c, q c = true → p c = true) (rest : List α) :
    (counts p rest).find? (fun n => (rest.drop n).head?.any q) =
      if (rest.takeWhile p).rdropWhile (fun c => !q c) = [] then none
      else some (((rest.takeWhile p).rdropWhile fun c => !q c).length - 1) := by
  induction rest with
  | nil => simp [counts, List.rdropWhile]
  | cons c rest ih =>
    by_cases hp : p c = true
    · rw [List.takeWhile_cons_of_pos hp, rdropWhile_cons]
      unfold counts
      rw [if_pos hp, List.find?_append, List.find?_map]
      have hshift : ((fun n => ((c :: rest).drop n).head?.any q) ∘ fun n => n + 1) = fun n => (rest.drop n).head?.any q := by
        funext n
        rfl
      rw [hshift, ih]
      by_cases hnil : (rest.takeWhile p).rdropWhile (fun c => !q c) = []
      · -- no later character will do, and this one is the last to try
        rw [if_pos hnil, if_pos hnil]
        cases hq : q c <;> simp [hq]
      · rw [if_neg hnil, if_neg hnil]
        have hpos := List.length_pos_of_ne_nil hnil
        simp
        omega
    · have hq : q c = false := Bool.eq_false_iff.2 fun hq => hp (hpq c hq)
      rw [List.takeWhile_cons_of_neg hp]
      simp [counts, hp, hq, List.rdropWhile]

theorem head_step (ns : List Nat) (k : Cursor α) :
    ((ns.map (skip k)).flatMap (step q)).head? =
      (ns.find? fun n => (k.rest.drop n).head?.any q).map fun n => skip k (n + 1) := by
  induction ns with
  | nil => rfl
  | cons n ns ih =>
    rw [List.map_cons, List.flatMap_cons, List.head?_append, ih, List.find?_cons]
    unfold step
    have hrest : (skip k n).rest = k.rest.drop n := rfl
    rw [hrest]
    cases h : (k.rest.drop n).head?.any q <;> simp [skip_skip]

/-- The characters of a class, and a last one of a narrower class: the longest run of the wider class, less what
follows the last character of the narrower in it. -/
theorem head_star_one (hpq : ∀ c, q c = true → p c = true) (k : Cursor α) :
    ((seq (star p) (one q)).ends k).head? =
      if (k.rest.takeWhile p).rdropWhile (fun c => !q c) = [] then none
      else some (skip k ((k.rest.takeWhile p).rdropWhile fun c => !q c).length) := by
  change (((counts p k.rest).map (skip k)).flatMap (step q)).head? = _
  rw [head_step, find_counts hpq]
  split
  · rfl
  · rename_i hnil
    have hpos := List.length_pos_of_ne_nil hnil
    rw [Option.map_some, Nat.sub_add_cancel hpos]

/-! ## The matches of a text -/

variable {r : Regex α} {index : Nat}

theorem matchAll_nil : matchAll r index [] = (r.matchAt index []).toList := by rw [matchAll]

theorem matchAll_of_none (h : r.matchAt index (c :: rest) = none) :
    matchAll r index (c :: rest) = matchAll r (index + 1) rest := by rw [matchAll, h]

theorem matchAll_of_some {e : Cursor α} (h : r.matchAt index (c :: rest) = some e) (hlt : e.rest.length < rest.length + 1) :
    matchAll r index (c :: rest) = e :: matchAll r e.index e.rest := by
  rw [matchAll, h]
  simp only
  rw [if_pos hlt]

theorem head_flatMap {β : Type*} (f : α → List β) (xs ys : List α) :
    ((xs ++ ys).flatMap f).head? = (xs.flatMap f).head?.or (ys.flatMap f).head? := by
  rw [List.flatMap_append, List.head?_append]

end Regex

end Genzh.Lib
