/-
Paging by a key that several rows may share. The cursor is the key of a page's last row, so a page that ends among rows
of one key passes over the rest of them. Rows of one key come in any order, and need not come in the same one again.
-/
import Mathlib.Tactic
import Mathlib.Data.List.Sort

namespace Genzh.Lib.Crowded

variable {α κ : Type*} [LinearOrder κ]

/-- Is the row past the cursor? -/
def past (keyOf : α → κ) (cursor : Option κ) (a : α) : Bool := cursor.all fun k => decide (keyOf a < k)

/-- What queries for what is past a cursor find, highest key first. -/
structure Fetched (keyOf : α → κ) (content : List α) where
  rows : Option κ → List α
  perm : ∀ c, (rows c).Perm (content.filter (past keyOf c))
  sorted : ∀ c, (rows c).Pairwise fun a b => keyOf b ≤ keyOf a

/-- A page, and the cursor of the next one. -/
def page (keyOf : α → κ) (limit : Nat) (rows : List α) : List α × Option κ :=
  let fetched := rows.take (limit + 1)
  let page := fetched.take limit
  (page, if limit < fetched.length then page.getLast?.map keyOf else none)

/-- Follow the cursor until there is none. -/
def follow (keyOf : α → κ) (limit : Nat) (rows : Option κ → List α) : Nat → Option κ → Option (List α)
  | 0, _ => none
  | fuel + 1, cursor =>
    match page keyOf limit (rows cursor) with
    | (items, none) => some items
    | (items, some next) => (follow keyOf limit rows fuel (some next)).map (items ++ ·)

/-- No page of this size ends between two keys that are the same. -/
def Uncut (limit : Nat) (keys : List κ) : Prop :=
  ∀ k, 0 < k → k * limit < keys.length → keys[k * limit - 1]? ≠ keys[k * limit]?

/-- The keys there are, highest first. -/
def descending (keys : List κ) : List κ := keys.insertionSort (· ≥ ·)

variable {keyOf : α → κ} {limit : Nat} {content : List α}

omit [LinearOrder κ] in
/-- The first page does not end between two keys that are the same, nor does one of what follows. -/
theorem uncut_iff (hlimit : 0 < limit) {keys : List κ} (hlong : limit < keys.length) :
    Uncut limit keys ↔ keys[limit - 1]? ≠ keys[limit]? ∧ Uncut limit (keys.drop limit) := by
  have hshift : ∀ k, 0 < k → (k + 1) * limit - 1 = limit + (k * limit - 1) ∧ (k + 1) * limit = limit + k * limit := by
    intro k hk
    have hpos : 0 < k * limit := Nat.mul_pos hk hlimit
    rw [Nat.succ_mul]
    omega
  constructor
  · intro h
    refine ⟨by simpa using h 1 Nat.one_pos (by simpa using hlong), fun k hk hin => ?_⟩
    obtain ⟨hprev, hnext⟩ := hshift k hk
    rw [List.length_drop] at hin
    have hcut := h (k + 1) (Nat.succ_pos k) (by omega)
    rwa [List.getElem?_drop, List.getElem?_drop, ← hprev, ← hnext]
  · rintro ⟨hfirst, hrest⟩ k hk hin
    rcases k with _ | _ | k
    · exact absurd hk (lt_irrefl 0)
    · simpa using hfirst
    · obtain ⟨hprev, hnext⟩ := hshift (k + 1) (Nat.succ_pos k)
      have hcut := hrest (k + 1) (Nat.succ_pos k) (by rw [List.length_drop]; omega)
      rwa [List.getElem?_drop, List.getElem?_drop, ← hprev, ← hnext] at hcut

/-- Rows in descending order have their keys in the one descending order there is. -/
theorem map_eq_descending {rows l : List α} (hperm : rows.Perm l) (hsorted : rows.Pairwise fun a b => keyOf b ≤ keyOf a) :
    rows.map keyOf = descending (l.map keyOf) := by
  have hkeys : (rows.map keyOf).Pairwise (· ≥ ·) := List.pairwise_map.2 hsorted
  have hsort : (descending (l.map keyOf)).Pairwise (· ≥ ·) := List.pairwise_insertionSort _ _
  refine ((hperm.map keyOf).trans (List.perm_insertionSort _ _).symm).eq_of_pairwise ?_ hkeys hsort
  exact fun a b _ _ hab hba => le_antisymm hba hab

omit [LinearOrder κ] in
theorem page_of_short {rows : List α} (h : rows.length ≤ limit) : page keyOf limit rows = (rows, none) := by
  have hall : rows.take (limit + 1) = rows := List.take_of_length_le (by omega)
  simp [page, hall, List.take_of_length_le h, Nat.not_lt.2 h]

omit [LinearOrder κ] in
theorem page_of_long {front back : List α} {last : α} (hfront : front.length + 1 = limit) (hback : back ≠ []) :
    page keyOf limit (front ++ last :: back) = (front ++ [last], some (keyOf last)) := by
  obtain ⟨next, rest, rfl⟩ := List.exists_cons_of_ne_nil hback
  have hfetched : (front ++ last :: next :: rest).take (limit + 1) = front ++ [last, next] := by
    rw [← hfront, List.take_append]
    simp [Nat.add_assoc]
  have hpage : (front ++ [last, next]).take limit = front ++ [last] := by
    rw [← hfront, List.take_append]
    simp
  simp only [page, hfetched, hpage]
  rw [if_pos (by simp; omega)]
  simp

/-- Past the last row of a page are the rows of the rest that have lower keys. -/
theorem Fetched.rows_next (f : Fetched keyOf content) {c : Option κ} {front back : List α} {last : α}
    (hsplit : f.rows c = front ++ last :: back) :
    (f.rows (some (keyOf last))).Perm (back.filter fun a => keyOf a < keyOf last) := by
  have hsorted := f.sorted c
  rw [hsplit, List.pairwise_append, List.pairwise_cons] at hsorted
  have hlast : last ∈ content.filter (past keyOf c) :=
    (f.perm c).mem_iff.1 (by rw [hsplit]; exact List.mem_append_right _ List.mem_cons_self)
  have hpast : past keyOf c last = true := (List.mem_filter.1 hlast).2
  -- whatever is past the last row is past the cursor it came with
  have hnarrow : content.filter (past keyOf (some (keyOf last))) =
      (content.filter (past keyOf c)).filter fun a => keyOf a < keyOf last := by
    rw [List.filter_filter]
    refine List.filter_congr fun a _ => ?_
    cases c with
    | none => simp [past]
    | some k =>
      simp only [past, Option.all_some, decide_eq_true_eq] at hpast ⊢
      rw [Bool.eq_iff_iff]
      simp only [decide_eq_true_eq, Bool.and_eq_true]
      exact ⟨fun h => ⟨h, h.trans hpast⟩, And.left⟩
  have hfront : front.filter (fun a => keyOf a < keyOf last) = [] :=
    List.filter_eq_nil_iff.2 fun a ha => by simpa using hsorted.2.2 a ha last List.mem_cons_self
  calc (f.rows (some (keyOf last))).Perm (content.filter (past keyOf (some (keyOf last)))) := f.perm _
    _ = (content.filter (past keyOf c)).filter fun a => keyOf a < keyOf last := hnarrow
    List.Perm _ ((f.rows c).filter fun a => keyOf a < keyOf last) := ((f.perm c).filter _).symm
    _ = back.filter fun a => keyOf a < keyOf last := by rw [hsplit]; simp [hfront]

/-- Rows of the first page left out for their key are not there any more; all of the rest is if there are none. -/
theorem perm_back_iff (f : Fetched keyOf content) {c : Option κ} {front back : List α} {last : α}
    (hsplit : f.rows c = front ++ last :: back) (hfront : front.length + 1 = limit) (hback : back ≠ []) :
    (f.rows (some (keyOf last))).Perm back ↔ ((f.rows c).map keyOf)[limit - 1]? ≠ ((f.rows c).map keyOf)[limit]? := by
  obtain ⟨next, rest, rfl⟩ := List.exists_cons_of_ne_nil hback
  have hsorted := f.sorted c
  rw [hsplit, List.pairwise_append, List.pairwise_cons, List.pairwise_cons] at hsorted
  obtain ⟨-, ⟨hlast, hnext, -⟩, -⟩ := hsorted
  have hkeys : ((f.rows c).map keyOf)[limit - 1]? = some (keyOf last) ∧ ((f.rows c).map keyOf)[limit]? = some (keyOf next) := by
    rw [hsplit, ← hfront]
    simp
  rw [hkeys.1, hkeys.2, Ne, Option.some.injEq]
  have hrest := f.rows_next hsplit
  constructor
  · rintro hperm heq
    have hmem := hrest.mem_iff.1 (hperm.mem_iff.2 (List.mem_cons_self (a := next)))
    simp [heq] at hmem
  · intro hne
    refine hrest.trans (List.Perm.of_eq (List.filter_eq_self.2 fun a ha => ?_))
    have hlower : keyOf next < keyOf last := lt_of_le_of_ne (hlast next List.mem_cons_self) (Ne.symm hne)
    rcases List.mem_cons.1 ha with rfl | ha
    · exact decide_eq_true hlower
    · exact decide_eq_true ((hnext a ha).trans_lt hlower)

omit [LinearOrder κ] in
/-- Where there is something behind a page, the page has a last row. -/
theorem exists_last (hlimit : 0 < limit) {rows : List α} (hlong : limit < rows.length) :
    ∃ front last back, rows = front ++ last :: back ∧ front.length + 1 = limit ∧ back ≠ [] := by
  refine ⟨rows.take (limit - 1), rows[limit - 1], rows.drop limit, ?_, ?_, ?_⟩
  · conv_lhs => rw [← List.take_append_drop (limit - 1) rows]
    rw [List.drop_eq_getElem_cons (by omega), Nat.sub_add_cancel hlimit]
  · rw [List.length_take]
    omega
  · simpa [List.drop_eq_nil_iff] using hlong

/-- A page and what is read behind it are all there is exactly if no page ends between two that share a key, given that
what is fetched next is read so. -/
theorem perm_page_iff (f : Fetched keyOf content) (hlimit : 0 < limit) {c : Option κ} {front back items : List α} {last : α}
    (hsplit : f.rows c = front ++ last :: back) (hfront : front.length + 1 = limit) (hback : back ≠ [])
    (hfew : items.length ≤ (f.rows (some (keyOf last))).length)
    (hall : items.Perm (f.rows (some (keyOf last))) ↔ Uncut limit ((f.rows (some (keyOf last))).map keyOf)) :
    (front ++ [last] ++ items).Perm (f.rows c) ↔ Uncut limit ((f.rows c).map keyOf) := by
  have hrest := f.rows_next hsplit
  have hwhole : f.rows c = (front ++ [last]) ++ back := by rw [hsplit]; simp
  have hlong : limit < ((f.rows c).map keyOf).length := by
    have hpos := List.length_pos_iff.2 hback
    simp only [hwhole, List.length_map, List.length_append, List.length_singleton]
    omega
  have hsorted := f.sorted c
  rw [hwhole, List.pairwise_append] at hsorted
  have hdrop : ((f.rows c).map keyOf).drop limit = back.map keyOf := by
    rw [hwhole, List.map_append, List.drop_left' (by simpa using hfront)]
  rw [uncut_iff hlimit hlong, ← perm_back_iff f hsplit hfront hback, hdrop, hwhole, List.perm_append_left_iff]
  -- the rest has the same keys in the same order as what is fetched next
  have hkeys : (f.rows (some (keyOf last))).Perm back → (f.rows (some (keyOf last))).map keyOf = back.map keyOf := by
    intro hperm
    exact (map_eq_descending hperm (f.sorted _)).trans (map_eq_descending (.refl back) hsorted.2.1).symm
  constructor
  · intro hperm
    have hfull : (back.filter fun a => keyOf a < keyOf last).length = back.length := by
      rw [← hrest.length_eq]
      have hshorter : (f.rows (some (keyOf last))).length ≤ back.length := hrest.length_eq ▸ List.length_filter_le ..
      have hcount := hperm.length_eq
      omega
    have hsame : (f.rows (some (keyOf last))).Perm back :=
      hrest.trans (List.Perm.of_eq ((List.filter_sublist).eq_of_length hfull))
    exact ⟨hsame, hkeys hsame ▸ hall.1 (hperm.trans hsame.symm)⟩
  · rintro ⟨hsame, huncut⟩
    exact (hall.2 (hkeys hsame ▸ huncut)).trans hsame

/-- Following the cursor from any point ends, reads rows past it only and in descending order, and reads all of them
exactly if no page ends between two that share a key. -/
theorem follow_from (f : Fetched keyOf content) (hlimit : 0 < limit) {fuel : Nat} {c : Option κ}
    (hfuel : (f.rows c).length < fuel) : ∃ items, follow keyOf limit f.rows fuel c = some items ∧
      items.length ≤ (f.rows c).length ∧ (∀ a ∈ items, a ∈ f.rows c) ∧ (items.Pairwise fun a b => keyOf b ≤ keyOf a) ∧
      (items.Perm (f.rows c) ↔ Uncut limit ((f.rows c).map keyOf)) := by
  induction fuel generalizing c with
  | zero => omega
  | succ fuel ih =>
    by_cases hlong : limit < (f.rows c).length
    · -- a full page, and something behind it
      obtain ⟨front, last, back, hsplit, hfront, hback⟩ := exists_last hlimit hlong
      have hrest := f.rows_next hsplit
      have hwhole : f.rows c = (front ++ [last]) ++ back := by rw [hsplit]; simp
      have hsorted := f.sorted c
      rw [hwhole, List.pairwise_append] at hsorted
      obtain ⟨hpage, -, hacross⟩ := hsorted
      have hshorter : (f.rows (some (keyOf last))).length ≤ back.length := by
        rw [hrest.length_eq]
        exact List.length_filter_le ..
      have hlength : (f.rows c).length = limit + back.length := by
        rw [hwhole, List.length_append, List.length_append, List.length_singleton, hfront]
      obtain ⟨items, hfollow, hfew, hmem, hdesc, hall⟩ := ih (c := some (keyOf last)) (by omega)
      have hin : ∀ a ∈ items, a ∈ back := fun a ha => (List.mem_filter.1 (hrest.mem_iff.1 (hmem a ha))).1
      refine ⟨front ++ [last] ++ items, ?_, ?_, ?_, ?_, perm_page_iff f hlimit hsplit hfront hback hfew hall⟩
      · simp only [follow, hsplit, page_of_long hfront hback, hfollow, Option.map_some]
      · simp only [List.length_append, List.length_singleton]
        omega
      · intro a ha
        rw [hwhole]
        rcases List.mem_append.1 ha with ha | ha
        · exact List.mem_append_left _ ha
        · exact List.mem_append_right _ (hin a ha)
      · exact List.pairwise_append.2 ⟨hpage, hdesc, fun a ha b hb => hacross a ha b (hin b hb)⟩
    · -- the last page
      refine ⟨f.rows c, ?_, le_rfl, fun a ha => ha, f.sorted c, iff_of_true (.refl _) fun k hk hin => ?_⟩
      · simp only [follow, page_of_short (not_lt.1 hlong)]
      · have hle : limit ≤ k * limit := Nat.le_mul_of_pos_left limit hk
        rw [List.length_map] at hin
        omega

/-- Following the cursor from the first page on reads every row once, highest key first, and ends, exactly if no page
ends between two rows that share a key. -/
theorem follow_iff (f : Fetched keyOf content) (hlimit : 0 < limit) :
    (∃ items, follow keyOf limit f.rows (content.length + 1) none = some items ∧ items.Perm content ∧
      items.Pairwise fun a b => keyOf b ≤ keyOf a) ↔ Uncut limit (descending (content.map keyOf)) := by
  have hperm : (f.rows none).Perm content := by
    refine (f.perm none).trans (List.Perm.of_eq (List.filter_eq_self.2 fun a _ => rfl))
  have hfuel : (f.rows none).length < content.length + 1 := by
    rw [hperm.length_eq]
    omega
  obtain ⟨items, hfollow, -, -, hdesc, hall⟩ := follow_from f hlimit hfuel
  rw [← map_eq_descending hperm (f.sorted none), ← hall]
  constructor
  · rintro ⟨items', hfollow', hperm', -⟩
    rw [hfollow, Option.some.injEq] at hfollow'
    subst hfollow'
    exact hperm'.trans hperm.symm
  · intro h
    exact ⟨items, hfollow, h.trans hperm, hdesc⟩

end Genzh.Lib.Crowded

namespace Genzh.Lib.Crowded

/-! ## Mirrors

A list kept in step with rows that change, down to a floor: highest key first, each row once. A row that is given a key above
all others is lifted to the front of the list; pages are taken in below it. -/

section Mirrors

variable {α κ ι : Type*} [LinearOrder κ] {keyOf : α → κ} {content content' l : List α} {floor : Option κ} {limit : Nat} {a : α}

/-- Is the row at or above the floor? -/
def reached (keyOf : α → κ) (floor : Option κ) (a : α) : Bool := floor.all fun k => decide (k ≤ keyOf a)

/-- The list holds the rows that reach the floor, strictly from the highest key down. -/
structure Mirrors (keyOf : α → κ) (content : List α) (floor : Option κ) (l : List α) : Prop where
  mem : ∀ a, a ∈ l ↔ a ∈ content ∧ reached keyOf floor a = true
  sorted : l.Pairwise fun a b => keyOf b < keyOf a

/-- The row first, and no second time. -/
def lift [DecidableEq ι] (idOf : α → ι) (a : α) (l : List α) : List α := a :: l.filter fun b => idOf b ≠ idOf a

/-- A row whose key is now above all others. -/
theorem Mirrors.lift [DecidableEq ι] {idOf : α → ι} (h : Mirrors keyOf content floor l)
    (hnewest : ∀ b ∈ content, keyOf b < keyOf a) (hreached : reached keyOf floor a = true)
    (hcontent : ∀ b, b ∈ content' ↔ b = a ∨ b ∈ content ∧ idOf b ≠ idOf a) :
    Mirrors keyOf content' floor (Crowded.lift idOf a l) := by
  constructor
  · intro b
    rw [Crowded.lift, List.mem_cons, List.mem_filter, h.mem, hcontent, decide_eq_true_eq]
    constructor
    · rintro (rfl | ⟨⟨hb, hr⟩, hid⟩)
      · exact ⟨.inl rfl, hreached⟩
      · exact ⟨.inr ⟨hb, hid⟩, hr⟩
    · rintro ⟨rfl | ⟨hb, hid⟩, hr⟩
      · exact .inl rfl
      · exact .inr ⟨⟨hb, hr⟩, hid⟩
  · refine List.pairwise_cons.2 ⟨fun b hb => ?_, h.sorted.sublist List.filter_sublist⟩
    exact hnewest b ((h.mem b).1 (List.mem_filter.1 hb).1).1

/-- Rows changed in place, their keys as they were. -/
theorem Mirrors.map {f : α → α} (hf : ∀ a, keyOf (f a) = keyOf a) (h : Mirrors keyOf content floor l) :
    Mirrors keyOf (content.map f) floor (l.map f) := by
  have hreached : ∀ a, reached keyOf floor (f a) = reached keyOf floor a := fun a => by rw [reached, reached, hf]
  constructor
  · intro b
    simp only [List.mem_map]
    constructor
    · rintro ⟨a, ha, rfl⟩
      obtain ⟨ha, hr⟩ := (h.mem a).1 ha
      exact ⟨⟨a, ha, rfl⟩, (hreached a).trans hr⟩
    · rintro ⟨⟨a, ha, rfl⟩, hr⟩
      exact ⟨a, (h.mem a).2 ⟨ha, (hreached a).symm.trans hr⟩, rfl⟩
  · rw [List.pairwise_map]
    exact h.sorted.imp fun hab => by rwa [hf, hf]

/-- Only what the content is made of counts. -/
theorem Mirrors.congr (h : Mirrors keyOf content floor l) (hcontent : ∀ a, a ∈ content' ↔ a ∈ content) :
    Mirrors keyOf content' floor l :=
  ⟨fun a => by rw [h.mem, hcontent], h.sorted⟩

/-- Two lists in step with the same rows are one. -/
theorem Mirrors.eq {l' : List α} (h : Mirrors keyOf content floor l) (h' : Mirrors keyOf content floor l') : l = l' := by
  have hnodup : ∀ {l : List α}, l.Pairwise (fun a b => keyOf b < keyOf a) → l.Nodup := fun hl =>
    hl.imp fun hab heq => absurd hab (by rw [heq]; exact lt_irrefl _)
  have hperm : l.Perm l' := (List.perm_ext_iff_of_nodup (hnodup h.sorted) (hnodup h'.sorted)).2 fun a => by rw [h.mem, h'.mem]
  refine hperm.eq_of_pairwise ?_ h.sorted h'.sorted
  exact fun a b _ _ hab hba => absurd (hab.trans hba) (lt_irrefl _)

/-- Rows that are told apart by their keys, fetched past a cursor: strictly from the highest down. -/
theorem Fetched.strict (f : Fetched keyOf content) (hnodup : content.Nodup)
    (hapart : ∀ a ∈ content, ∀ b ∈ content, keyOf a = keyOf b → a = b) (c : Option κ) :
    (f.rows c).Pairwise fun a b => keyOf b < keyOf a := by
  have hrows : (f.rows c).Nodup := (f.perm c).nodup_iff.2 (hnodup.filter _)
  refine ((f.sorted c).and hrows).imp_of_mem fun {a b} ha hb hab => lt_of_le_of_ne hab.1 fun heq => hab.2 ?_
  have hin : ∀ {a}, a ∈ f.rows c → a ∈ content := fun ha => (List.mem_filter.1 ((f.perm c).mem_iff.1 ha)).1
  exact hapart a (hin ha) b (hin hb) heq.symm

/-- A page is what lies past its cursor, down to the cursor of the next one. -/
theorem Fetched.mem_page (f : Fetched keyOf content) (hlimit : 0 < limit) (hnodup : content.Nodup)
    (hapart : ∀ a ∈ content, ∀ b ∈ content, keyOf a = keyOf b → a = b) (c : Option κ) :
    a ∈ (page keyOf limit (f.rows c)).1 ↔
      a ∈ content ∧ past keyOf c a = true ∧ reached keyOf (page keyOf limit (f.rows c)).2 a = true := by
  have hrows : ∀ b, b ∈ f.rows c ↔ b ∈ content ∧ past keyOf c b = true := fun b => by
    rw [(f.perm c).mem_iff, List.mem_filter]
  by_cases hshort : (f.rows c).length ≤ limit
  · rw [page_of_short hshort, hrows]
    simp [reached]
  · obtain ⟨front, last, back, hsplit, hfront, hback⟩ := exists_last hlimit (not_le.1 hshort)
    have hsorted := f.strict hnodup hapart c
    rw [hsplit, List.pairwise_append, List.pairwise_cons] at hsorted
    have hmem := hrows a
    rw [hsplit] at hmem ⊢
    rw [page_of_long hfront hback, ← and_assoc, ← hmem]
    simp only [reached, Option.all_some, decide_eq_true_eq, List.mem_append, List.mem_cons, List.not_mem_nil, or_false]
    constructor
    · rintro (ha | rfl)
      · exact ⟨.inl ha, (hsorted.2.2 a ha last List.mem_cons_self).le⟩
      · exact ⟨.inr (.inl rfl), le_rfl⟩
    · rintro ⟨ha | rfl | ha, hle⟩
      · exact .inl ha
      · exact .inr rfl
      · exact absurd hle (not_le.2 (hsorted.2.1.1 a ha))

theorem Fetched.pairwise_page (f : Fetched keyOf content) (hnodup : content.Nodup)
    (hapart : ∀ a ∈ content, ∀ b ∈ content, keyOf a = keyOf b → a = b) (c : Option κ) :
    (page keyOf limit (f.rows c)).1.Pairwise fun a b => keyOf b < keyOf a :=
  (f.strict hnodup hapart c).sublist ((List.take_sublist _ _).trans (List.take_sublist _ _))

/-- What is fetched, under another form of the rows. -/
def Fetched.map (f : Fetched keyOf content) (g : α → α) (hg : ∀ a, keyOf (g a) = keyOf a) : Fetched keyOf (content.map g) where
  rows c := (f.rows c).map g
  perm c := by
    rw [List.filter_map, List.filter_congr fun a _ => show (past keyOf c ∘ g) a = past keyOf c a by simp [past, hg]]
    exact (f.perm c).map g
  sorted c := by
    rw [List.pairwise_map]
    exact (f.sorted c).imp fun hab => by rwa [hg, hg]

omit [LinearOrder κ] in
theorem page_map (g : α → α) (hg : ∀ a, keyOf (g a) = keyOf a) (rows : List α) :
    page keyOf limit (rows.map g) = ((page keyOf limit rows).1.map g, (page keyOf limit rows).2) := by
  have hkey : keyOf ∘ g = keyOf := funext hg
  simp only [page, ← List.map_take, List.length_map, List.getLast?_map, Option.map_map, hkey]

/-- A page's cursor is the key of a row. -/
theorem Fetched.next_mem (f : Fetched keyOf content) {c : Option κ} {k : κ} (h : (page keyOf limit (f.rows c)).2 = some k) :
    ∃ a ∈ content, keyOf a = k := by
  unfold page at h
  dsimp only at h
  split at h
  · obtain ⟨a, ha, rfl⟩ := Option.map_eq_some_iff.1 h
    have hrow : a ∈ f.rows c := List.mem_of_mem_take (List.mem_of_mem_take (List.mem_of_getLast? ha))
    exact ⟨a, (List.mem_filter.1 ((f.perm c).mem_iff.1 hrow)).1, rfl⟩
  · cases h

/-- The first page is in step down to its cursor. -/
theorem Fetched.mirrors_first (f : Fetched keyOf content) (hlimit : 0 < limit) (hnodup : content.Nodup)
    (hapart : ∀ a ∈ content, ∀ b ∈ content, keyOf a = keyOf b → a = b) :
    Mirrors keyOf content (page keyOf limit (f.rows none)).2 (page keyOf limit (f.rows none)).1 := by
  refine ⟨fun a => ?_, f.pairwise_page hnodup hapart none⟩
  rw [f.mem_page hlimit hnodup hapart]
  simp [past]

/-- A page below a list in step with its cursor as the floor: in step down to the next cursor. -/
theorem Fetched.mirrors_next (f : Fetched keyOf content) (hlimit : 0 < limit) (hnodup : content.Nodup)
    (hapart : ∀ a ∈ content, ∀ b ∈ content, keyOf a = keyOf b → a = b) {k : κ} (h : Mirrors keyOf content (some k) l) :
    Mirrors keyOf content (page keyOf limit (f.rows (some k))).2 (l ++ (page keyOf limit (f.rows (some k))).1) := by
  have hpage := fun a => f.mem_page (a := a) hlimit hnodup hapart (some k)
  set p := page keyOf limit (f.rows (some k)) with hp
  -- the next cursor is the key of a row past this one
  have hbelow : ∀ k', p.2 = some k' → k' < k := by
    intro k' hk'
    have hlast : p.2 = if limit < ((f.rows (some k)).take (limit + 1)).length then p.1.getLast?.map keyOf else none := rfl
    rw [hlast] at hk'
    split at hk'
    · obtain ⟨b, hb, rfl⟩ := Option.map_eq_some_iff.1 hk'
      have hin := (hpage b).1 (List.mem_of_getLast? hb)
      simpa [past] using hin.2.1
    · cases hk'
  constructor
  · intro a
    rw [List.mem_append, h.mem, hpage]
    constructor
    · rintro (⟨ha, hr⟩ | ⟨ha, -, hr⟩)
      · refine ⟨ha, ?_⟩
        rcases hnext : p.2 with _ | k'
        · rfl
        · simp only [reached, Option.all_some, decide_eq_true_eq] at hr ⊢
          exact (hbelow k' hnext).le.trans hr
      · exact ⟨ha, hr⟩
    · rintro ⟨ha, hr⟩
      rcases le_or_gt k (keyOf a) with hle | hlt
      · exact .inl ⟨ha, by simpa [reached] using hle⟩
      · exact .inr ⟨ha, by simpa [past] using hlt, hr⟩
  · refine List.pairwise_append.2 ⟨h.sorted, f.pairwise_page hnodup hapart _, fun a ha b hb => ?_⟩
    have hr : k ≤ keyOf a := by simpa [reached] using ((h.mem a).1 ha).2
    have hp : keyOf b < k := by simpa [past] using ((hpage b).1 hb).2.1
    exact hp.trans_le hr

end Mirrors

end Genzh.Lib.Crowded
