/-
Fixed windows. The first event opens one, and so does every event at which the last one has run out; the
others fall in the window that is open. Windows do not overlap, so an interval as long as a window meets at
most two of them, and what is bounded in each window is bounded by twice as much in every such interval.
-/
import Mathlib.Tactic

namespace Genzh.Lib

/-- A window: how many came before it, and when it was opened. -/
structure Window where
  number : Nat
  started : Nat
  deriving DecidableEq, Repr

/-- The window of an event at `t`, after those of window `o`. -/
def Window.next (width : Nat) (o : Option Window) (t : Nat) : Window :=
  match o with
  | none => ⟨0, t⟩
  | some v => if width ≤ t - v.started then ⟨v.number + 1, t⟩ else v

section Windowed

variable {α : Type} (time : α → Nat) (width : Nat)

/-- The window that is open after some events. -/
def windowAfter (events : List α) : Option Window :=
  events.foldl (fun o a => some (Window.next width o (time a))) none

/-- Events with their windows, after those of window `o`. -/
def windowedFrom : Option Window → List α → List (Window × α)
  | _, [] => []
  | o, a :: as => (Window.next width o (time a), a) :: windowedFrom (some (Window.next width o (time a))) as

/-- Events with their windows. -/
def windowed (events : List α) : List (Window × α) := windowedFrom time width none events

variable {time width} {o : Option Window} {v : Window} {a : α} {as : List α}

@[simp] theorem windowAfter_snoc : windowAfter time width (as ++ [a]) = some (Window.next width (windowAfter time width as) (time a)) := by
  simp [windowAfter]

theorem windowedFrom_append {as bs : List α} {o : Option Window} :
    windowedFrom time width o (as ++ bs) = windowedFrom time width o as ++
      windowedFrom time width (as.foldl (fun o a => some (Window.next width o (time a))) o) bs := by
  induction as generalizing o with
  | nil => rfl
  | cons a as ih => simp only [List.cons_append, windowedFrom, List.foldl_cons, ih]

/-- Event by event: each falls in the window that follows from those before it. -/
theorem windowed_snoc : windowed time width (as ++ [a]) =
    windowed time width as ++ [(Window.next width (windowAfter time width as) (time a), a)] := by
  unfold windowed
  rw [windowedFrom_append]
  rfl

@[simp] theorem windowed_nil : windowed time width [] = [] := rfl

theorem map_windowed : (windowed time width as).map Prod.snd = as := by
  induction as using List.reverseRecOn with
  | nil => rfl
  | append_singleton as a ih => rw [windowed_snoc, List.map_append, ih]; rfl

theorem windowed_eq_snoc {pre : List (Window × α)} {x : Window × α} (h : windowed time width as = pre ++ [x]) :
    ∃ before, as = before ++ [x.2] ∧ pre = windowed time width before ∧
      x.1 = Window.next width (windowAfter time width before) (time x.2) := by
  rcases List.eq_nil_or_concat as with rfl | ⟨before, a, rfl⟩
  · simp at h
  · rw [List.concat_eq_append, windowed_snoc] at h
    obtain ⟨rfl, rfl⟩ := List.append_singleton_inj.1 h
    exact ⟨before, List.concat_eq_append, rfl, rfl⟩

/-- A window given to an event follows from the events before it. -/
theorem windowed_split {pre post : List (Window × α)} {x : Window × α} (h : windowed time width as = pre ++ x :: post) :
    ∃ before after, as = before ++ x.2 :: after ∧ pre = windowed time width before ∧
      x.1 = Window.next width (windowAfter time width before) (time x.2) := by
  induction as using List.reverseRecOn generalizing post with
  | nil => simp at h
  | append_singleton as a ih =>
    rw [windowed_snoc] at h
    rcases List.eq_nil_or_concat post with rfl | ⟨post', y, rfl⟩
    · obtain ⟨rfl, rfl⟩ := List.append_singleton_inj.1 h
      exact ⟨as, [], rfl, rfl, rfl⟩
    · rw [List.concat_eq_append, ← List.cons_append, ← List.append_assoc] at h
      obtain ⟨hrest, -⟩ := List.append_singleton_inj.1 h
      obtain ⟨before, after, rfl, hpre, hx⟩ := ih hrest
      exact ⟨before, after ++ [a], by rw [List.append_assoc]; rfl, hpre, hx⟩

/-- The window that is open was opened by one of the events so far. -/
theorem started_le {bs : List α} (hv : windowAfter time width as = some v) (hsorted : ((as ++ a :: bs).map time).Pairwise (· ≤ ·)) :
    v.started ≤ time a := by
  have hbefore : ∀ b ∈ as, time b ≤ time a := by
    rw [List.map_append, List.pairwise_append] at hsorted
    exact fun b hb => hsorted.2.2 _ (List.mem_map_of_mem hb) _ (by simp)
  clear hsorted
  induction as using List.reverseRecOn generalizing v with
  | nil => cases hv
  | append_singleton as b ih =>
    rw [windowAfter_snoc] at hv
    obtain rfl := Option.some.inj hv
    have hb := hbefore b (by simp)
    rcases hlast : windowAfter time width as with _ | u
    · exact hb
    · show (if width ≤ time b - u.started then (⟨u.number + 1, time b⟩ : Window) else u).started ≤ time a
      split
      · exact hb
      · exact ih hlast fun c hc => hbefore c (by simp [hc])

/-- No event so far falls in a later window than the last one. -/
theorem number_le_windowAfter (hv : windowAfter time width as = some v) : ∀ x ∈ windowed time width as, x.1.number ≤ v.number := by
  induction as using List.reverseRecOn generalizing v with
  | nil => simp
  | append_singleton as a ih =>
    rw [windowAfter_snoc] at hv
    obtain rfl := Option.some.inj hv
    intro x hx
    rw [windowed_snoc, List.mem_append, List.mem_singleton] at hx
    rcases hx with hx | rfl
    · rcases hlast : windowAfter time width as with _ | u
      · have hnil : as = [] := by
          rcases List.eq_nil_or_concat as with rfl | ⟨as', a', rfl⟩
          · rfl
          · simp at hlast
        subst hnil
        cases hx
      · have hle := ih hlast x hx
        show x.1.number ≤ (if width ≤ time a - u.started then (⟨u.number + 1, time a⟩ : Window) else u).number
        split
        · exact hle.trans (Nat.le_succ _)
        · exact hle
    · exact le_rfl

/-- An event that is not the first of its window comes before the window has run out. -/
theorem open_of_earlier {pre post : List (Window × α)} {x y : Window × α} (h : windowed time width as = pre ++ x :: post)
    (hy : y ∈ pre) (hsame : y.1.number = x.1.number) : time x.2 - x.1.started < width := by
  obtain ⟨before, after, -, rfl, hx⟩ := windowed_split h
  rcases hlast : windowAfter time width before with _ | u
  · rcases List.eq_nil_or_concat before with rfl | ⟨before', b, rfl⟩
    · cases hy
    · simp at hlast
  · have hle := number_le_windowAfter hlast y hy
    rw [hlast] at hx
    by_cases hw : width ≤ time x.2 - u.started
    · rw [show Window.next width (some u) (time x.2) = ⟨u.number + 1, time x.2⟩ from if_pos hw] at hx
      rw [hx] at hsame
      simp only at hsame
      omega
    · rw [show Window.next width (some u) (time x.2) = u from if_neg hw] at hx
      rw [hx]
      omega

/-- The first event after a window has run out opens another. -/
theorem opens_after {pre mid post : List (Window × α)} {x y : Window × α}
    (h : windowed time width as = pre ++ x :: (mid ++ y :: post)) (hmid : ∀ z ∈ mid, time z.2 - x.1.started < width)
    (hy : width ≤ time y.2 - x.1.started) : ∀ z ∈ pre ++ x :: mid, z.1.number ≠ y.1.number := by
  have hsplit : windowed time width as = (pre ++ x :: mid) ++ y :: post := by rw [h, List.append_assoc, List.cons_append]
  obtain ⟨before, after, -, hbefore, hynext⟩ := windowed_split hsplit
  have hlast : ∀ {mid : List (Window × α)} {events : List α}, (∀ z ∈ mid, time z.2 - x.1.started < width) →
      windowed time width events = pre ++ x :: mid → windowAfter time width events = some x.1 := by
    intro mid
    induction mid using List.reverseRecOn with
    | nil =>
      intro events _ hevents
      obtain ⟨earlier, rfl, -, hx⟩ := windowed_eq_snoc hevents
      rw [windowAfter_snoc, ← hx]
    | append_singleton mid z ih =>
      intro events hmid hevents
      rw [← List.cons_append, ← List.append_assoc] at hevents
      obtain ⟨earlier, rfl, hpre, -⟩ := windowed_eq_snoc hevents
      have hopen := ih (fun z' hz' => hmid z' (List.mem_append_left _ hz')) hpre.symm
      have hwithin := hmid z (List.mem_append_right _ (List.mem_singleton_self z))
      rw [windowAfter_snoc, hopen]
      exact congrArg some (if_neg (by omega))
  have hopen := hlast hmid hbefore.symm
  rw [hopen, show Window.next width (some x.1) (time y.2) = ⟨x.1.number + 1, time y.2⟩ from if_pos hy] at hynext
  intro z hz heq
  rw [hbefore] at hz
  have hle := number_le_windowAfter hopen z hz
  rw [heq, hynext] at hle
  simp only at hle
  omega

/-! ## Windows do not overlap -/

/-- An event comes after the start of its window, and no later than its end. -/
theorem Window.next_bounds {t : Nat} (h : ∀ v, o = some v → v.started ≤ t) :
    (next width o t).started ≤ t ∧ t ≤ (next width o t).started + width := by
  unfold next
  cases o with
  | none => exact ⟨le_rfl, Nat.le_add_right ..⟩
  | some v =>
    have hv := h v rfl
    show (if width ≤ t - v.started then (⟨v.number + 1, t⟩ : Window) else v).started ≤ t ∧ _
    by_cases hw : width ≤ t - v.started
    · simp [hw]
    · simp only [hw, if_false]
      omega

/-- A window `k` numbers on starts `k` widths later at least. -/
theorem windowedFrom_spread (hsorted : (as.map time).Pairwise (· ≤ ·)) (hfirst : ∀ b ∈ as, v.started ≤ time b) :
    ∀ x ∈ windowedFrom time width (some v) as,
      v.number ≤ x.1.number ∧ v.started + (x.1.number - v.number) * width ≤ time x.2 := by
  induction as generalizing v with
  | nil => simp [windowedFrom]
  | cons a as ih =>
    rw [List.map_cons, List.pairwise_cons] at hsorted
    have hlater : ∀ b ∈ as, time a ≤ time b := fun b hb => hsorted.1 _ (List.mem_map_of_mem hb)
    have ha := hfirst a List.mem_cons_self
    intro x hx
    rw [windowedFrom, List.mem_cons] at hx
    by_cases hw : width ≤ time a - v.started
    · rw [show Window.next width (some v) (time a) = ⟨v.number + 1, time a⟩ from if_pos hw] at hx
      have hnew : v.number + 1 ≤ x.1.number ∧ time a + (x.1.number - (v.number + 1)) * width ≤ time x.2 := by
        rcases hx with rfl | hx
        · simp
        · exact ih hsorted.2 hlater x hx
      obtain ⟨hnumber, htime⟩ := hnew
      have hsplit : (x.1.number - v.number) * width = (x.1.number - (v.number + 1)) * width + width := by
        rw [← Nat.succ_mul]
        congr 1
        omega
      refine ⟨by omega, ?_⟩
      rw [hsplit]
      omega
    · rw [show Window.next width (some v) (time a) = v from if_neg hw] at hx
      rcases hx with rfl | hx
      · simpa using ha
      · exact ih hsorted.2 (fun b hb => hfirst b (List.mem_cons_of_mem _ hb)) x hx

/-- The windows of two events in order: numbered in order, and a width apart where a window lies between. -/
def Apart (time : α → Nat) (width : Nat) (x y : Window × α) : Prop :=
  x.1.number ≤ y.1.number ∧ (x.1.number + 2 ≤ y.1.number → time x.2 + width ≤ time y.2)

theorem pairwise_windowedFrom (hsorted : (as.map time).Pairwise (· ≤ ·)) (hfirst : ∀ v, o = some v → ∀ b ∈ as, v.started ≤ time b) :
    (windowedFrom time width o as).Pairwise (Apart time width) := by
  induction as generalizing o with
  | nil => exact List.Pairwise.nil
  | cons a as ih =>
    rw [List.map_cons, List.pairwise_cons] at hsorted
    have hlater : ∀ b ∈ as, time a ≤ time b := fun b hb => hsorted.1 _ (List.mem_map_of_mem hb)
    obtain ⟨hstart, hend⟩ : (Window.next width o (time a)).started ≤ time a ∧
        time a ≤ (Window.next width o (time a)).started + width :=
      Window.next_bounds fun v hv => hfirst v hv a List.mem_cons_self
    have hfrom : ∀ b ∈ as, (Window.next width o (time a)).started ≤ time b := fun b hb => hstart.trans (hlater b hb)
    rw [windowedFrom, List.pairwise_cons]
    refine ⟨fun y hy => ?_, ih hsorted.2 fun v hv => by cases hv; exact hfrom⟩
    obtain ⟨hnumber, htime⟩ := windowedFrom_spread hsorted.2 hfrom y hy
    refine ⟨hnumber, fun htwo => ?_⟩
    have hwide : 2 * width ≤ (y.1.number - (Window.next width o (time a)).number) * width :=
      Nat.mul_le_mul_right _ (by simp only at htwo; omega)
    simp only
    omega

theorem pairwise_windowed (hsorted : (as.map time).Pairwise (· ≤ ·)) : (windowed time width as).Pairwise (Apart time width) :=
  pairwise_windowedFrom hsorted fun v hv => by cases hv

end Windowed

/-! ## What is bounded in each window -/

section Bounded

variable {α : Type} {time : α → Nat} {width max : Nat} {l : List (Window × α)} {admitted charged : Window × α → Bool}

/-- Does the event fall in window `n`? -/
def inWindow (n : Nat) (x : Window × α) : Bool := x.1.number = n

/-- Does the event happen in the interval of length `width` from `t` on? -/
def inInterval (time : α → Nat) (width t : Nat) (x : Window × α) : Bool := t ≤ time x.2 && decide (time x.2 < t + width)

variable (charged) in
/-- Where an event is admitted only while fewer than `max` have been charged to its window, no more than `max`
are admitted in any window. -/
theorem countP_inWindow_le (hcharged : ∀ x ∈ l, admitted x = true → charged x = true)
    (hlimit : ∀ pre x post, l = pre ++ x :: post → admitted x = true →
      pre.countP (fun y => charged y && inWindow x.1.number y) < max) (n : Nat) :
    l.countP (fun x => admitted x && inWindow n x) ≤ max := by
  induction l using List.reverseRecOn with
  | nil => simp
  | append_singleton l x ih =>
    have hrest := ih (fun y hy => hcharged y (List.mem_append_left _ hy)) fun pre y post heq =>
      hlimit pre y (post ++ [x]) (by rw [heq, List.append_assoc, List.cons_append])
    rw [List.countP_append, List.countP_singleton]
    by_cases hx : (admitted x && inWindow n x) = true
    · obtain ⟨hadmitted, hn⟩ := Bool.and_eq_true_iff.1 hx
      have hn : x.1.number = n := by simpa [inWindow] using hn
      have hless : l.countP (fun y => admitted y && inWindow n y) ≤ l.countP (fun y => charged y && inWindow n y) := by
        apply List.countP_mono_left
        intro y hy hy'
        rw [Bool.and_eq_true] at hy' ⊢
        exact ⟨hcharged y (List.mem_append_left _ hy) hy'.1, hy'.2⟩
      have hlt := hlimit l x [] rfl hadmitted
      rw [hn] at hlt
      rw [if_pos hx]
      omega
    · rw [if_neg hx]
      exact hrest

/-- An interval as long as a window meets two windows at most. -/
theorem countP_inInterval_le (hapart : l.Pairwise (Apart time width))
    (hmax : ∀ n, l.countP (fun x => admitted x && inWindow n x) ≤ max) (t : Nat) :
    l.countP (fun x => admitted x && inInterval time width t x) ≤ 2 * max := by
  rcases hin : l.filter (inInterval time width t) with _ | ⟨x, rest⟩
  · have hnone : l.countP (fun x => admitted x && inInterval time width t x) = 0 := by
      rw [List.countP_eq_zero]
      intro y hy hy'
      have := List.filter_eq_nil_iff.1 hin y hy
      simp_all
    rw [hnone]
    exact Nat.zero_le _
  · have hsub := hapart.sublist (List.filter_sublist (p := inInterval time width t))
    rw [hin, List.pairwise_cons] at hsub
    have hx : inInterval time width t x = true := (List.mem_filter.1 (hin ▸ List.mem_cons_self)).2
    -- whatever happens in the interval falls in the window of its first event or in the next one
    have htwo : ∀ y ∈ l, inInterval time width t y = true → inWindow x.1.number y = true ∨ inWindow (x.1.number + 1) y = true := by
      intro y hy hy'
      have hmem : y ∈ x :: rest := hin ▸ List.mem_filter.2 ⟨hy, hy'⟩
      unfold inWindow
      rw [decide_eq_true_iff, decide_eq_true_iff]
      rcases List.mem_cons.1 hmem with rfl | hrest
      · exact .inl rfl
      · obtain ⟨hle, hfar⟩ := hsub.1 y hrest
        unfold inInterval at hx hy'
        rw [Bool.and_eq_true, decide_eq_true_iff, decide_eq_true_iff] at hx hy'
        by_contra hne
        have := hfar (by omega)
        omega
    calc l.countP (fun y => admitted y && inInterval time width t y)
        ≤ l.countP (fun y => (admitted y && inWindow x.1.number y) || (admitted y && inWindow (x.1.number + 1) y)) := by
          apply List.countP_mono_left
          intro y hy hy'
          rw [Bool.and_eq_true] at hy'
          rcases htwo y hy hy'.2 with h | h <;> simp [hy'.1, h]
      _ ≤ l.countP (fun y => admitted y && inWindow x.1.number y) + l.countP (fun y => admitted y && inWindow (x.1.number + 1) y) := by
          clear hin hsub htwo hapart hmax
          induction l with
          | nil => simp
          | cons y l ih =>
            simp only [List.countP_cons]
            rcases (admitted y && inWindow x.1.number y) <;> rcases (admitted y && inWindow (x.1.number + 1) y) <;> simp <;> omega
      _ ≤ 2 * max := by
          have h0 := hmax x.1.number
          have h1 := hmax (x.1.number + 1)
          omega

end Bounded

/-! ## Meters -/

/-- A 32-bit counter that is not full counts. -/
theorem toNat_succ {n : UInt32} (h : n ≠ 0xFFFFFFFF) : (n + 1).toNat = n.toNat + 1 := by
  have hne : n.toNat ≠ (0xFFFFFFFF : UInt32).toNat := fun heq => h (UInt32.toNat_inj.1 heq)
  have hlt := n.toNat_lt
  rw [show (0xFFFFFFFF : UInt32).toNat = 4294967295 from rfl] at hne
  rw [UInt32.toNat_add, show (1 : UInt32).toNat = 1 from rfl, Nat.mod_eq_of_lt (by omega)]

section Meters

variable {α : Type} {time : α → Nat} {width : Nat} {charged : Window × α → Bool} {as : List α} {o : Option (Nat × Nat)}

/-- What a meter shows, its window's start and a count: the start of the last window, and how many of the events in it
have been charged. Before the first event there is none. -/
def Meters (time : α → Nat) (width : Nat) (charged : Window × α → Bool) (as : List α) : Option (Nat × Nat) → Prop
  | none => as = []
  | some m => ∃ v, windowAfter time width as = some v ∧ m.1 = v.started ∧
      m.2 = (windowed time width as).countP fun x => charged x && inWindow v.number x

/-- The meter at `t`: a new one where there is none or the window has run out. -/
def meterAt (width : Nat) (o : Option (Nat × Nat)) (t : Nat) : Nat × Nat :=
  match o with
  | none => (t, 0)
  | some m => if width ≤ t - m.1 then (t, 0) else m

/-- The meter at an event shows the window of the event, and what has been charged to it before. -/
theorem Meters.reads (h : Meters time width charged as o) (t : Nat) :
    (meterAt width o t).1 = (Window.next width (windowAfter time width as) t).started ∧
      (meterAt width o t).2 = (windowed time width as).countP fun x =>
        charged x && inWindow (Window.next width (windowAfter time width as) t).number x := by
  cases o with
  | none =>
    obtain rfl : as = [] := h
    exact ⟨rfl, rfl⟩
  | some m =>
    obtain ⟨v, hv, hstarted, hcount⟩ := h
    rw [hv]
    show (if width ≤ t - m.1 then (t, 0) else m).1 = (if width ≤ t - v.started then (⟨v.number + 1, t⟩ : Window) else v).started ∧
      (if width ≤ t - m.1 then (t, 0) else m).2 = (windowed time width as).countP fun x =>
        charged x && inWindow (if width ≤ t - v.started then (⟨v.number + 1, t⟩ : Window) else v).number x
    rw [hstarted]
    by_cases hw : width ≤ t - v.started
    · simp only [if_pos hw, true_and]
      symm
      rw [List.countP_eq_zero]
      intro x hx hn
      have hle := number_le_windowAfter hv x hx
      rw [Bool.and_eq_true] at hn
      have hn := hn.2
      simp only [inWindow, decide_eq_true_eq] at hn
      omega
    · simp only [if_neg hw]
      exact ⟨hstarted, hcount⟩

/-- Charging an event, or not, the meter goes on. -/
theorem Meters.snoc (h : Meters time width charged as o) (a : α) :
    Meters time width charged (as ++ [a]) (some ((meterAt width o (time a)).1, (meterAt width o (time a)).2 +
      if charged (Window.next width (windowAfter time width as) (time a), a) then 1 else 0)) := by
  obtain ⟨hstarted, hcount⟩ := h.reads (time a)
  refine ⟨_, windowAfter_snoc, hstarted, ?_⟩
  rw [windowed_snoc, List.countP_append, ← hcount, List.countP_singleton]
  simp [inWindow]

end Meters

end Genzh.Lib
