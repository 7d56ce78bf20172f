/-
Keyset paging: a page is the first rows past a cursor, in descending order of their keys, and its last row is the
cursor of the next page; one more row is fetched to learn whether there is one. Following the cursors reads what
was there at the first request, once and in order, also while rows with higher keys are inserted.
-/
import Mathlib.Tactic
import Mathlib.Data.List.Sort

namespace Genzh.Lib.Keyset

variable {α κ : Type*} [LinearOrder κ] (keyOf : α → κ) (limit : Nat)

/-- The rows past a cursor, highest key first. -/
def rows (cursor : Option κ) (content : List α) : List α :=
  (content.filter fun a => cursor.all fun c => decide (keyOf a < c)).insertionSort fun a b => keyOf b ≤ keyOf a

/-- A page, and the cursor of the next one. -/
def page (cursor : Option κ) (content : List α) : List α × Option κ :=
  let fetched := (rows keyOf cursor content).take (limit + 1)
  let page := fetched.take limit
  (page, if limit < fetched.length then page.getLast?.map keyOf else none)

/-- Follow the cursor from the `k`-th request on until there is none, `contents k` being what the `k`-th request finds. -/
def follow (contents : Nat → List α) : Nat → Nat → Option κ → Option (List α)
  | 0, _, _ => none
  | fuel + 1, k, cursor =>
    match page keyOf limit cursor (contents k) with
    | (items, none) => some items
    | (items, some next) => (follow contents fuel (k + 1) (some next)).map (items ++ ·)

variable {keyOf limit}

/-- Sorting by the keys, highest first, does so. -/
theorem pairwise_descending (keyOf : α → κ) (content : List α) :
    (content.insertionSort fun a b => keyOf b ≤ keyOf a).Pairwise fun a b => keyOf b ≤ keyOf a := by
  have htotal : Std.Total (fun a b : α => keyOf b ≤ keyOf a) := ⟨fun a b => le_total (keyOf b) (keyOf a)⟩
  have htrans : IsTrans α (fun a b => keyOf b ≤ keyOf a) := ⟨fun _ _ _ hab hbc => hbc.trans hab⟩
  exact List.pairwise_insertionSort _ _

theorem pairwise_rows (cursor : Option κ) (content : List α) :
    (rows keyOf cursor content).Pairwise fun a b => keyOf b ≤ keyOf a := pairwise_descending keyOf _

theorem mem_rows {cursor : Option κ} {content : List α} {a : α} :
    a ∈ rows keyOf cursor content ↔ a ∈ content ∧ ∀ c, cursor = some c → keyOf a < c := by
  unfold rows
  rw [List.mem_insertionSort, List.mem_filter, Option.all_eq_true]
  simp

/-- A query that sorts what it found past the cursor, by the keys, has the rows. -/
theorem insertionSort_eq_rows {r : α → α → Prop} [DecidableRel r] (hr : ∀ a b, r a b ↔ keyOf b ≤ keyOf a) {wanted past : α → Bool}
    {cursor : Option κ} (hpast : ∀ a, past a = cursor.all fun c => decide (keyOf a < c)) (content : List α) :
    (content.filter fun a => wanted a && past a).insertionSort r = rows keyOf cursor (content.filter wanted) := by
  obtain rfl : r = fun a b => keyOf b ≤ keyOf a := by
    funext a b
    exact propext (hr a b)
  unfold rows
  rw [List.filter_filter]
  congr 2
  funext a
  rw [hpast, Bool.and_comm]

/-- Without a cursor the rows are all there are. -/
theorem perm_rows_none {content : List α} : (rows keyOf none content).Perm content := by
  have hperm := List.perm_insertionSort (fun a b => keyOf b ≤ keyOf a) (content.filter fun a => (none : Option κ).all fun c => decide (keyOf a < c))
  have hall : (content.filter fun a => (none : Option κ).all fun c => decide (keyOf a < c)) = content :=
    List.filter_eq_self.2 fun a _ => rfl
  unfold rows
  rw [hall] at hperm ⊢
  exact hperm

theorem nodup_rows {cursor : Option κ} {content : List α} (h : (content.map keyOf).Nodup) :
    ((rows keyOf cursor content).map keyOf).Nodup := by
  have hperm := List.perm_insertionSort (fun a b => keyOf b ≤ keyOf a) (content.filter fun a => cursor.all fun c => decide (keyOf a < c))
  unfold rows
  rw [(hperm.map keyOf).nodup_iff]
  exact h.sublist (List.filter_sublist.map _)

theorem mem_of_mem_page {cursor : Option κ} {content : List α} {a : α} (h : a ∈ (page keyOf limit cursor content).1) : a ∈ content :=
  (mem_rows.1 (List.mem_of_mem_take (List.mem_of_mem_take h))).1

/-- A row past the cursor is on the page, or past the cursor of the next one. -/
theorem mem_page_or_next {cursor : Option κ} {content : List α} {a : α} (h : (content.map keyOf).Nodup) (hlimit : 0 < limit)
    (ha : a ∈ content) (hcursor : ∀ c, cursor = some c → keyOf a < c) :
    a ∈ (page keyOf limit cursor content).1 ∨ ∃ next, (page keyOf limit cursor content).2 = some next ∧ keyOf a < next := by
  have hmem : a ∈ rows keyOf cursor content := mem_rows.2 ⟨ha, hcursor⟩
  have hnodup : ((rows keyOf cursor content).map keyOf).Nodup := nodup_rows h
  have hsorted : (rows keyOf cursor content).Pairwise fun a b => keyOf b ≤ keyOf a := pairwise_rows cursor content
  unfold page
  generalize rows keyOf cursor content = l at hmem hnodup hsorted ⊢
  have htake : (l.take (limit + 1)).take limit = l.take limit := by
    rw [List.take_take, Nat.min_eq_left (Nat.le_succ limit)]
  simp only [htake]
  rw [← List.take_append_drop limit l] at hmem hnodup hsorted
  rcases List.mem_append.1 hmem with hpage | hrest
  · exact .inl hpage
  · right
    have hlong : limit < l.length := by
      by_contra hshort
      rw [List.drop_eq_nil_of_le (Nat.le_of_not_lt hshort)] at hrest
      cases hrest
    have hne : l.take limit ≠ [] := by
      intro hnil
      have hlen := congrArg List.length hnil
      rw [List.length_take, List.length_nil] at hlen
      omega
    refine ⟨keyOf ((l.take limit).getLast hne), ?_, ?_⟩
    · rw [if_pos (by rw [List.length_take]; omega), List.getLast?_eq_some_getLast hne]
      rfl
    · have hlast := List.getLast_mem hne
      refine lt_of_le_of_ne ((List.pairwise_append.1 hsorted).2.2 _ hlast a hrest) fun heq => ?_
      rw [List.map_append, List.nodup_append] at hnodup
      exact hnodup.2.2 _ (List.mem_map_of_mem hlast) _ (List.mem_map_of_mem hrest) heq.symm

/-- Rows that come and stay: those of the first request are there at every later one, and the others have higher keys. -/
structure OnlyHigher (keyOf : α → κ) (contents : Nat → List α) : Prop where
  nodup : ∀ k, ((contents k).map keyOf).Nodup
  kept : ∀ k, ∀ a ∈ contents 0, a ∈ contents k
  higher : ∀ k, ∀ a ∈ contents k, a ∈ contents 0 ∨ ∀ b ∈ contents 0, keyOf b < keyOf a

variable {contents : Nat → List α}

/-- Strictly descending, as distinct keys are. -/
theorem descending (h : OnlyHigher keyOf contents) : (rows keyOf none (contents 0)).Pairwise fun a b => keyOf b < keyOf a := by
  have hnodup : ((rows keyOf none (contents 0)).map keyOf).Nodup := nodup_rows (h.nodup 0)
  rw [List.Nodup, List.pairwise_map] at hnodup
  exact (pairwise_rows none (contents 0)).imp₂ (fun a b hle hne => lt_of_le_of_ne hle (Ne.symm hne)) hnodup

/-- Past one of the rows of the first request, every later request finds the rest of them. -/
theorem rows_after (h : OnlyHigher keyOf contents) {before after : List α} {x : α}
    (hsplit : rows keyOf none (contents 0) = before ++ x :: after) (k : Nat) :
    rows keyOf (some (keyOf x)) (contents k) = after := by
  have hdesc := descending h
  rw [hsplit, List.pairwise_append, List.pairwise_cons] at hdesc
  obtain ⟨-, ⟨hlower, hafter⟩, hupper⟩ := hdesc
  have hfirst : ∀ a, a ∈ contents 0 ↔ a ∈ before ++ x :: after := by
    intro a
    rw [← hsplit, mem_rows]
    simp
  have hx : x ∈ contents 0 := (hfirst x).2 (List.mem_append_right _ List.mem_cons_self)
  have hmem : ∀ a, a ∈ rows keyOf (some (keyOf x)) (contents k) ↔ a ∈ after := by
    intro a
    rw [mem_rows]
    constructor
    · rintro ⟨ha, hlt⟩
      have hlt := hlt _ rfl
      rcases h.higher k a ha with hold | hnew
      · rcases List.mem_append.1 ((hfirst a).1 hold) with hb | hxa
        · exact absurd (hupper a hb x List.mem_cons_self) (lt_asymm hlt)
        · rcases List.mem_cons.1 hxa with rfl | hin
          · exact absurd hlt (lt_irrefl _)
          · exact hin
      · exact absurd (hnew x hx) (lt_asymm hlt)
    · intro ha
      have hold : a ∈ contents 0 := (hfirst a).2 (List.mem_append_right _ (List.mem_cons_of_mem _ ha))
      exact ⟨h.kept k a hold, fun c hc => by cases hc; exact hlower a ha⟩
  have hsorted : (rows keyOf (some (keyOf x)) (contents k)).Pairwise fun a b => keyOf b ≤ keyOf a := pairwise_rows _ _
  have hkeys : ((rows keyOf (some (keyOf x)) (contents k)).map keyOf).Nodup := nodup_rows (h.nodup k)
  have hnodup : (rows keyOf (some (keyOf x)) (contents k)).Nodup := hkeys.of_map _
  have hnodup' : after.Nodup := hafter.imp fun hlt heq => by rw [heq] at hlt; exact lt_irrefl _ hlt
  have hperm := (List.perm_ext_iff_of_nodup hnodup hnodup').2 hmem
  refine hperm.eq_of_pairwise ?_ hsorted (hafter.imp le_of_lt)
  intro a b ha hb hab hba
  exact List.inj_on_of_nodup_map hkeys ha ((hmem b).2 hb) (le_antisymm hba hab)

/-- From a request that finds the rest of the rows on, following the cursor reads the rest of them. -/
theorem follow_rest (h : OnlyHigher keyOf contents) (hlimit : 0 < limit) {before rest : List α} {cursor : Option κ} {k fuel : Nat}
    (hsplit : rows keyOf none (contents 0) = before ++ rest) (hrest : rows keyOf cursor (contents k) = rest)
    (hfuel : rest.length < fuel) : follow keyOf limit contents fuel k cursor = some rest := by
  induction fuel generalizing before rest cursor k with
  | zero => omega
  | succ fuel ih =>
    have hpage : ((rest.take (limit + 1)).take limit) = rest.take limit := by
      rw [List.take_take, min_eq_left (Nat.le_succ limit)]
    simp only [follow, page, hrest, hpage, List.length_take]
    by_cases hmore : limit < rest.length
    · rw [if_pos (lt_min (Nat.lt_succ_self limit) hmore)]
      have hne : rest.take limit ≠ [] := by
        rw [Ne, List.take_eq_nil_iff]
        rintro (rfl | rfl)
        · exact lt_irrefl _ hlimit
        · exact Nat.not_lt_zero _ hmore
      have hlast : rest.take limit = (rest.take limit).dropLast ++ [(rest.take limit).getLast hne] :=
        (List.dropLast_append_getLast hne).symm
      have hnext : rows keyOf none (contents 0) =
          (before ++ (rest.take limit).dropLast) ++ (rest.take limit).getLast hne :: rest.drop limit := by
        calc rows keyOf none (contents 0) = before ++ (rest.take limit ++ rest.drop limit) := by rw [List.take_append_drop, hsplit]
          _ = _ := by
            conv_lhs => rw [hlast]
            simp
      have hsplit' : rows keyOf none (contents 0) = (before ++ rest.take limit) ++ rest.drop limit := by
        rw [List.append_assoc, List.take_append_drop, hsplit]
      have hread := ih hsplit' (rows_after h hnext (k + 1)) (by rw [List.length_drop]; omega)
      rw [List.getLast?_eq_getLast_of_ne_nil hne, Option.map_some]
      simp only [hread, Option.map_some, List.take_append_drop]
    · rw [if_neg (by omega)]
      simp only [List.take_of_length_le (not_lt.1 hmore)]

/-- Following the cursor reads every row of the first request once, highest key first, and ends. -/
theorem follow_eq (h : OnlyHigher keyOf contents) (hlimit : 0 < limit) :
    follow keyOf limit contents ((contents 0).length + 1) 0 none = some (rows keyOf none (contents 0)) := by
  refine follow_rest h hlimit (List.nil_append _).symm rfl ?_
  unfold rows
  rw [List.length_insertionSort]
  exact Nat.lt_succ_of_le (List.length_filter_le _ _)

end Genzh.Lib.Keyset

namespace Genzh.Lib.Offset

/-! ## Pages by offset

Offset paging: a page is so many rows of an ordered list, from a position on, and the next one begins where it ends. A
page that is not full is the last.
-/

variable {α : Type*}

/-- `LIMIT limit OFFSET offset` -/
def window (rows : List α) (limit offset : Int) : List α := (rows.drop offset.toNat).take limit.toNat

/-- The offset to ask for next: a full page means there is probably another, and a short one is the end. -/
def next (items : List α) (limit offset : Int) : Option Int :=
  if (items.length : Int) = limit then some (offset + limit) else none

/-- Follow the offset from the `k`-th request on until there is none, `ask k` being the answer to the `k`-th request. -/
def follow (ask : Nat → Int → List α × Option Int) : Nat → Nat → Int → Option (List α)
  | 0, _, _ => none
  | fuel + 1, k, offset =>
    match ask k offset with
    | (items, none) => some items
    | (items, some offset') => (follow ask fuel (k + 1) offset').map (items ++ ·)

variable {ask : Nat → Int → List α × Option Int} {rows : List α} {limits : Nat → Int}

theorem length_window (limit offset : Int) :
    (window rows limit offset).length = min limit.toNat (rows.length - offset.toNat) := by
  unfold window
  rw [List.length_take, List.length_drop]

/-- A page and all that comes from its end on are what comes from its beginning on. -/
theorem window_append_drop {limit offset : Int} (hlimit : 0 < limit) (hoffset : 0 ≤ offset) :
    window rows limit offset ++ rows.drop (offset + limit).toNat = rows.drop offset.toNat := by
  have hsum : (offset + limit).toNat = offset.toNat + limit.toNat := by omega
  rw [hsum, ← List.drop_drop]
  exact List.take_append_drop ..

/-- Where every request finds the same rows, whatever the size of its page, following the offset reads every row from
there on, once and in order, and ends. -/
theorem follow_eq (hask : ∀ k offset, 0 ≤ offset →
      ask k offset = (window rows (limits k) offset, next (window rows (limits k) offset) (limits k) offset))
    (hlimits : ∀ k, 0 < limits k) {fuel k : Nat} {offset : Int} (hoffset : 0 ≤ offset) (hsome : 0 < fuel)
    (hfuel : rows.length < fuel + offset.toNat) : follow ask fuel k offset = some (rows.drop offset.toNat) := by
  induction fuel generalizing k offset with
  | zero => exact absurd hsome (lt_irrefl 0)
  | succ fuel ih =>
    have hpos := hlimits k
    have hlength : (window rows (limits k) offset).length = min (limits k).toNat (rows.length - offset.toNat) :=
      length_window ..
    simp only [follow, hask k offset hoffset, next]
    by_cases hfull : ((window rows (limits k) offset).length : Int) = limits k
    · rw [if_pos hfull]
      -- a full page lies within the rows, so there is less left to read
      have hrest := @ih (k + 1) (offset + limits k) (by omega) (by omega) (by omega)
      simp only [hrest, Option.map_some, window_append_drop hpos hoffset]
    · rw [if_neg hfull]
      have hshort : rows.length - offset.toNat ≤ (limits k).toNat := by omega
      simp only [Option.some.injEq]
      exact List.take_of_length_le (by rw [List.length_drop]; exact hshort)

end Genzh.Lib.Offset
