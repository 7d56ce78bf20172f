/-
Request budgets: a fixed-window counter for each key, in memory. The counter has 32 bits, and one that is full
starts again at zero: the request that fills it is admitted, however many have been refused.
-/
import Genzh.Lib.Keyed
import Genzh.Lib.Windows

namespace Genzh.Infrastructure

open Genzh.Lib

/-- The verdict on one request. -/
structure Decision where
  /-- May the caller proceed? -/
  allowed : Bool
  /-- How many requests remain in the current window. -/
  remaining : UInt32
  /-- How long until the budget resets. -/
  retryAfter : Nat
  deriving DecidableEq, Repr

namespace Decision

/-- Allowed, with `remaining` left before the window closes. -/
def permitted (remaining : UInt32) (retryAfter : Nat) : Decision := ⟨true, remaining, retryAfter⟩

/-- Refused; the caller should wait `retryAfter`. -/
def refused (retryAfter : Nat) : Decision := ⟨false, 0, retryAfter⟩

end Decision

structure Bucket where
  windowStarted : Nat
  count : UInt32
  deriving DecidableEq, Repr

/-- A fixed-window, in-memory limiter. -/
structure InMemoryRateLimiter where
  window : Nat
  maxRequests : UInt32

namespace InMemoryRateLimiter

/-- Bucket count above which a sweep runs before the next insert. -/
def sweepThreshold : Nat := 10000

variable (l : InMemoryRateLimiter)

/-- The bucket a request at `now` is counted in. -/
def opened (now : Nat) (entry : Option Bucket) : Bucket :=
  let bucket := entry.getD { windowStarted := now, count := 0 }
  if l.window ≤ now - bucket.windowStarted then { windowStarted := now, count := 0 } else bucket

/-- Record one request and report the verdict. -/
def visit (now : Nat) (entry : Option Bucket) : Decision × Bucket :=
  let bucket := { l.opened now entry with count := (l.opened now entry).count + 1 }
  let retryAfter := l.window - (now - bucket.windowStarted)
  (if bucket.count ≤ l.maxRequests then .permitted (l.maxRequests - bucket.count) retryAfter else .refused retryAfter, bucket)

/-- The limiter: its buckets are kept by key, and dropped where their window has passed. -/
def keeper : Keeper Bucket String Unit Decision where
  visit now _ _ entry := l.visit now entry
  stale now bucket := !decide (now - bucket.windowStarted < l.window)
  threshold := sweepThreshold

/-- Has a request at `now` to be counted by a counter that is full? -/
def full (now : Nat) (entry : Option Bucket) : Prop := (l.opened now entry).count = 0xFFFFFFFF

/-- Does this request fill the counter of its key? -/
def fills (buckets : Map String Bucket) : Visit String Unit → Prop
  | .check key _ now => l.full now (buckets.get key)
  | .sweep _ => False

instance (now : Nat) (entry : Option Bucket) : Decidable (l.full now entry) :=
  inferInstanceAs (Decidable ((l.opened now entry).count = 0xFFFFFFFF))

instance (buckets : Map String Bucket) : (v : Visit String Unit) → Decidable (l.fills buckets v)
  | .check key _ now => inferInstanceAs (Decidable (l.full now (buckets.get key)))
  | .sweep _ => inferInstanceAs (Decidable False)

variable {l} {now : Nat} {entry : Option Bucket}

theorem opened_none : l.opened now none = { windowStarted := now, count := 0 } := by
  show (if l.window ≤ now - now then (⟨now, 0⟩ : Bucket) else ⟨now, 0⟩) = ⟨now, 0⟩
  exact ite_self _

theorem opened_some {b : Bucket} :
    l.opened now (some b) = if l.window ≤ now - b.windowStarted then { windowStarted := now, count := 0 } else b := rfl

theorem opened_stale {b : Bucket} (h : l.keeper.stale now b = true) : l.opened now (some b) = l.opened now none := by
  have hpassed : l.window ≤ now - b.windowStarted := by
    unfold keeper at h
    simpa using h
  rw [opened_none, opened_some, if_pos hpassed]

theorem lawful : l.keeper.Lawful fun now b => b.windowStarted ≤ now where
  keeps_valid now _ _ entry h := by
    show (l.opened now entry).windowStarted ≤ now
    cases entry with
    | none => rw [opened_none]
    | some b =>
      rw [opened_some]
      split
      · exact le_rfl
      · exact h b rfl
  valid_later _ _ _ hle h := h.trans hle
  stale_later now now' b hle h := by
    simp only [keeper, Bool.not_eq_true', decide_eq_false_iff_not] at h ⊢
    omega
  stale now _ _ b _ h := by
    show l.visit now (some b) = l.visit now none
    unfold visit
    rw [opened_stale h]

/-! ## Counting -/

/-- A counter that is not full counts the request. -/
theorem visit_count (h : ¬ l.full now entry) : (l.visit now entry).2.count.toNat = (l.opened now entry).count.toNat + 1 :=
  toNat_succ h

/-- What a bucket shows. -/
def meter (entry : Option Bucket) : Option (Nat × Nat) := entry.map fun b => (b.windowStarted, b.count.toNat)

theorem meter_opened : ((l.opened now entry).windowStarted, (l.opened now entry).count.toNat) = meterAt l.window (meter entry) now := by
  cases entry with
  | none =>
    rw [opened_none]
    rfl
  | some b =>
    show ((l.opened now (some b)).windowStarted, (l.opened now (some b)).count.toNat) =
      if l.window ≤ now - b.windowStarted then (now, 0) else (b.windowStarted, b.count.toNat)
    rw [opened_some]
    split <;> rfl

/-- While no counter is full, the bucket of a key counts the requests of its window. -/
theorem meters {key : String} {vs : List (Nat × Unit)} (hroom : l.keeper.Throughout (fun now _ o => ¬ l.full now o) key none vs) :
    Meters Prod.fst l.window (fun _ => true) (l.keeper.alone key none vs) (meter (l.keeper.entryAfter key vs)) := by
  induction vs using List.reverseRecOn with
  | nil => exact rfl
  | append_singleton vs v ih =>
    obtain ⟨hbefore, hnext⟩ := Keeper.throughout_snoc.1 hroom
    rw [Keeper.entryAfter_snoc, Keeper.alone_snoc]
    have hmeter : meter (some (l.visit v.1 (l.keeper.entryAfter key vs)).2) =
        some ((meterAt l.window (meter (l.keeper.entryAfter key vs)) v.1).1,
          (meterAt l.window (meter (l.keeper.entryAfter key vs)) v.1).2 + 1) := by
      rw [← meter_opened, ← visit_count hnext]
      rfl
    exact hmeter ▸ (ih hbefore).snoc _

/-! ## The budget of a key -/

/-- A request, its window and its verdict. -/
abbrev Mark := Window × Nat × Unit × Decision

namespace Mark

def time (x : Mark) : Nat := x.2.1

def decision (x : Mark) : Decision := x.2.2.2

def admitted (x : Mark) : Bool := x.decision.allowed

end Mark

/-- What a budget promises about the requests of one key, in order. -/
structure Budgeted (l : InMemoryRateLimiter) (marks : List Mark) : Prop where
  /-- No window admits more than the budget. -/
  window : ∀ n, marks.countP (fun x => Mark.admitted x && inWindow n x) ≤ l.maxRequests.toNat
  /-- No interval as long as a window admits more than two of them. -/
  interval : ∀ t, marks.countP (fun x => Mark.admitted x && inInterval Prod.fst l.window t x) ≤ 2 * l.maxRequests.toNat
  /-- Each admission of a window leaves one less. -/
  remaining : ∀ before x after, marks = before ++ x :: after → x.admitted = true →
    x.decision.remaining.toNat + (before.countP (fun y => Mark.admitted y && inWindow x.1.number y) + 1) = l.maxRequests.toNat
  /-- A refusal says how long to wait. -/
  refusal : ∀ x ∈ marks, x.admitted = false → 0 < x.decision.retryAfter ∧ x.decision.retryAfter ≤ l.window
  /-- Whoever waits that long is admitted, whatever was asked meanwhile. -/
  patience : ∀ before x meanwhile y after, marks = before ++ x :: (meanwhile ++ y :: after) → x.admitted = false →
    (∀ z ∈ meanwhile, z.time < x.time + x.decision.retryAfter) → x.time + x.decision.retryAfter ≤ y.time → y.admitted = true

/-- The requests of a key in a run, with their windows. -/
def marks (l : InMemoryRateLimiter) (key : String) (vs : List (Visit String Unit)) : List Mark :=
  windowed Prod.fst l.window (l.keeper.history key .empty vs)

/-- A request is admitted while those counted before it in its window leave room, and told how many it leaves. -/
structure Counted (l : InMemoryRateLimiter) (before : List Mark) (x : Mark) : Prop where
  admitted : x.admitted = true ↔ before.countP (inWindow x.1.number) < l.maxRequests.toNat
  remaining : x.admitted = true → x.decision.remaining.toNat + (before.countP (inWindow x.1.number) + 1) = l.maxRequests.toNat
  retryAfter : x.decision.retryAfter = l.window - (x.time - x.1.started)

theorem visit_counts {o : Option Bucket} {c : Nat} (hcount : (l.opened now o).count.toNat = c) (hroom : ¬ l.full now o) :
    ((l.visit now o).1.allowed = true ↔ c < l.maxRequests.toNat) ∧
      ((l.visit now o).1.allowed = true → (l.visit now o).1.remaining.toNat + (c + 1) = l.maxRequests.toNat) ∧
      (l.visit now o).1.retryAfter = l.window - (now - (l.opened now o).windowStarted) := by
  have hnext : ((l.opened now o).count + 1).toNat = c + 1 := by
    rw [← hcount]
    exact visit_count hroom
  have hle : (l.opened now o).count + 1 ≤ l.maxRequests ↔ c < l.maxRequests.toNat := by
    rw [UInt32.le_iff_toNat_le, hnext, Nat.succ_le_iff]
  simp only [visit]
  by_cases h : (l.opened now o).count + 1 ≤ l.maxRequests
  · rw [if_pos h]
    refine ⟨⟨fun _ => hle.1 h, fun _ => rfl⟩, fun _ => ?_, rfl⟩
    show (l.maxRequests - ((l.opened now o).count + 1)).toNat + (c + 1) = _
    rw [UInt32.toNat_sub_of_le _ _ h, hnext]
    have := hle.1 h
    omega
  · rw [if_neg h]
    exact ⟨⟨fun h' => (nomatch h'), fun h' => absurd (hle.2 h') h⟩, fun h' => (nomatch h'), rfl⟩

theorem counted {key : String} {vs : List (Nat × Unit)} (hroom : l.keeper.Throughout (fun now _ o => ¬ l.full now o) key none vs)
    {before after : List Mark} {x : Mark} (h : windowed Prod.fst l.window (l.keeper.alone key none vs) = before ++ x :: after) :
    Counted l before x := by
  obtain ⟨earlier, later, hsplit, rfl, hwindow⟩ := windowed_split h
  obtain ⟨vs₁, vs₂, rfl, rfl, hdecision⟩ := Keeper.alone_split hsplit
  rw [List.append_cons] at hroom
  obtain ⟨hbefore, hnext⟩ := Keeper.throughout_snoc.1 (Keeper.throughout_append.1 hroom).1
  obtain ⟨hstarted, hcount⟩ := (meters hbefore).reads x.2.1
  rw [← meter_opened, ← hwindow] at hstarted hcount
  simp only [Bool.true_and] at hstarted hcount
  obtain ⟨hadmitted, hremaining, hretry⟩ := visit_counts hcount hnext
  have hx : x.decision = (l.visit x.2.1 (l.keeper.entryAfter key vs₁)).1 := hdecision
  refine ⟨?_, ?_, ?_⟩
  · rw [Mark.admitted, hx]
    exact hadmitted
  · rw [Mark.admitted, hx]
    exact hremaining
  · rw [hx, hretry, hstarted]
    rfl

section Marks

variable {ms before after : List Mark} {x : Mark}

/-- Where each request is counted, those admitted before one that has room are all those of its window. -/
theorem admitted_before (hcounted : ∀ before x after, ms = before ++ x :: after → Counted l before x) (h : ms = before ++ after)
    {n : Nat} (hroom : before.countP (inWindow n) < l.maxRequests.toNat) :
    before.countP (fun y => Mark.admitted y && inWindow n y) = before.countP (inWindow n) := by
  induction before using List.reverseRecOn generalizing after with
  | nil => rfl
  | append_singleton before y ih =>
    rw [List.append_assoc] at h
    rw [List.countP_append] at hroom ⊢
    rw [List.countP_append, ih h (by omega), List.countP_singleton, List.countP_singleton]
    by_cases hn : inWindow n y = true
    · have hy : y.1.number = n := by simpa [inWindow] using hn
      have hadmitted : y.admitted = true := by
        rw [(hcounted before y after h).admitted, hy]
        omega
      simp [hn, hadmitted]
    · simp [hn]

end Marks

/-- A history in which each request is counted keeps the budget. -/
theorem budgeted_of_counted {history : List (Nat × Unit × Decision)} (hmax : 0 < l.maxRequests.toNat)
    (hsorted : (history.map Prod.fst).Pairwise (· ≤ ·))
    (hcounted : ∀ before x after, windowed Prod.fst l.window history = before ++ x :: after → Counted l before x) :
    Budgeted l (windowed Prod.fst l.window history) := by
  have hwindow : ∀ n, (windowed Prod.fst l.window history).countP (fun x => Mark.admitted x && inWindow n x) ≤ l.maxRequests.toNat := by
    refine countP_inWindow_le (fun _ => true) (fun _ _ _ => rfl) fun before x after h hx => ?_
    simpa using (hcounted before x after h).admitted.1 hx
  -- whoever is refused comes after others of its window, and so before the end of it
  have hopen : ∀ before x after, windowed Prod.fst l.window history = before ++ x :: after → Mark.admitted x = false →
      x.2.1 - x.1.started < l.window := by
    intro before x after h hx
    have hpos : 0 < before.countP (inWindow x.1.number) := by
      by_contra hzero
      have := (hcounted before x after h).admitted.2 (by omega)
      rw [hx] at this
      cases this
    obtain ⟨y, hy, hsame⟩ := List.countP_pos_iff.1 hpos
    exact open_of_earlier h hy (by simpa [inWindow] using hsame)
  refine ⟨hwindow, countP_inInterval_le (pairwise_windowed hsorted) hwindow, ?_, ?_, ?_⟩
  · intro before x after h hx
    have hc := hcounted before x after h
    rw [admitted_before hcounted h (hc.admitted.1 hx)]
    exact hc.remaining hx
  · intro x hx hrefused
    obtain ⟨before, after, h⟩ := List.append_of_mem hx
    rw [(hcounted before x after h).retryAfter]
    have := hopen before x after h hrefused
    exact ⟨Nat.sub_pos_of_lt this, Nat.sub_le ..⟩
  · intro before x meanwhile y after h hrefused hmeanwhile hwaited
    have hx := hopen before x _ h hrefused
    have hstarted : x.1.started ≤ x.2.1 := by
      obtain ⟨earlier, later, hsplit, rfl, hnext⟩ := windowed_split h
      rw [hnext]
      refine (Window.next_bounds fun v hv => ?_).1
      exact started_le hv (by rw [hsplit] at hsorted; exact hsorted)
    rw [(hcounted before x _ h).retryAfter] at hmeanwhile hwaited
    simp only [Mark.time] at hmeanwhile hwaited
    have hnew := opens_after h (fun z hz => by have := hmeanwhile z hz; omega) (by omega)
    rw [← List.cons_append, ← List.append_assoc] at h
    rw [(hcounted _ y after h).admitted]
    have hnone : (before ++ x :: meanwhile).countP (inWindow y.1.number) = 0 := by
      rw [List.countP_eq_zero]
      intro z hz hzy
      exact hnew z hz (by simpa [inWindow] using hzy)
    omega

/-- In every run whose clock does not go back and in which no counter is filled, every key has its budget, and it
does not depend on the requests of the others. -/
theorem budget_kept (l : InMemoryRateLimiter) (hmax : 1 ≤ l.maxRequests) (vs : List (Visit String Unit))
    (hsorted : (vs.map Visit.now).Pairwise (· ≤ ·))
    (hroom : Along l.keeper.step (fun buckets v => ¬ l.fills buckets v) .empty vs) (key : String) :
    Budgeted l (l.marks key vs) ∧ l.marks key vs = l.marks key (vs.filter (Visit.isTo key)) := by
  have hthrough : l.keeper.Throughout (fun now _ o => ¬ l.full now o) key none (vs.filterMap (Visit.paidTo key)) := by
    refine Keeper.throughout_of_along lawful ?_ (.inl rfl) (fun r hr => nomatch hr) (fun _ _ => Nat.zero_le _) hsorted
      (hroom.mono ?_)
    · intro now _ b _ hstale hfull
      unfold full at hfull ⊢
      rwa [opened_stale hstale]
    · rintro buckets v hv _ now rfl
      exact hv
  unfold marks
  rw [← Keeper.history_filter lawful hsorted, Keeper.history_empty lawful hsorted]
  refine ⟨budgeted_of_counted ?_ ?_ fun before x after h => counted hthrough h, rfl⟩
  · exact UInt32.le_iff_toNat_le.1 hmax
  · rw [Keeper.map_time_alone]
    exact Keeper.sorted_visits hsorted

/-- A budget of one request in ten, and two callers. -/
def twoCallers : List (Visit String Unit) :=
  [.check "ana" () 0, .check "ana" () 4, .check "ben" () 5, .sweep 10, .check "ana" () 10]

theorem budget_kept_for_two :
    Budgeted ⟨10, 1⟩ (marks ⟨10, 1⟩ "ana" twoCallers) ∧
      marks ⟨10, 1⟩ "ana" twoCallers = marks ⟨10, 1⟩ "ana" (twoCallers.filter (Visit.isTo "ana")) :=
  budget_kept ⟨10, 1⟩ (by decide) twoCallers (by decide) (by decide +kernel) "ana"

/-! ## A counter is filled -/

/-- A caller asks again and again. -/
def insistent (n : Nat) : List (Visit String Unit) := List.replicate n (.check "ana" () 0)

theorem sorted_insistent (n : Nat) : ((insistent n).map Visit.now).Pairwise (· ≤ ·) := by
  unfold insistent
  rw [List.map_replicate, List.pairwise_replicate]
  exact .inr le_rfl

theorem entryAfter_insistent (n : Nat) :
    (keeper ⟨60, 1⟩).entryAfter "ana" (List.replicate (n + 1) (0, ())) = some ⟨0, UInt32.ofNat (n + 1)⟩ := by
  induction n with
  | zero => rfl
  | succ n ih =>
    rw [List.replicate_succ', Keeper.entryAfter_snoc, ih]
    show some (⟨0, UInt32.ofNat (n + 1) + 1⟩ : Bucket) = _
    rw [← UInt32.ofNat_one, ← UInt32.ofNat_add]

theorem exceeds_at {n : Nat} (hn : UInt32.ofNat (n + 1) + 1 = 0) : ¬ Budgeted ⟨60, 1⟩ (marks ⟨60, 1⟩ "ana" (insistent (n + 2))) := by
  intro h
  have hvisits : (insistent (n + 2)).filterMap (Visit.paidTo "ana") = List.replicate (n + 1) (0, ()) ++ [(0, ())] := by
    have hpaid : Visit.paidTo "ana" (.check "ana" () 0) = some (0, ()) := rfl
    unfold insistent
    rw [List.filterMap_replicate_of_some hpaid, ← List.replicate_succ']
  unfold marks at h
  rw [Keeper.history_empty lawful (sorted_insistent _), hvisits, Keeper.alone_snoc, windowed_snoc, entryAfter_insistent] at h
  have hlast : (visit ⟨60, 1⟩ 0 (some ⟨0, UInt32.ofNat (n + 1)⟩)).1 = .permitted 1 60 := by
    show (if UInt32.ofNat (n + 1) + 1 ≤ 1 then Decision.permitted (1 - (UInt32.ofNat (n + 1) + 1)) 60 else .refused 60) = _
    rw [hn]
    rfl
  have hremaining := h.remaining _ _ [] rfl (congrArg Decision.allowed hlast)
  have hone : ((visit ⟨60, 1⟩ 0 (some ⟨0, UInt32.ofNat (n + 1)⟩)).1.remaining).toNat = 1 := by
    rw [hlast]
    rfl
  have hmax : (1 : UInt32).toNat = 1 := rfl
  simp only [Mark.decision] at hremaining
  have hone' : ((keeper ⟨60, 1⟩).visit 0 "ana" () (some ⟨0, UInt32.ofNat (n + 1)⟩)).1.remaining.toNat = 1 := hone
  rw [hone', hmax] at hremaining
  omega

/-- The request that fills the counter of its key is admitted, with the whole budget left to it. -/
theorem counter_wraps :
    (1 : UInt32) ≤ (⟨60, 1⟩ : InMemoryRateLimiter).maxRequests ∧ ((insistent 4294967296).map Visit.now).Pairwise (· ≤ ·) ∧
      ¬ Budgeted ⟨60, 1⟩ (marks ⟨60, 1⟩ "ana" (insistent 4294967296)) :=
  ⟨by decide, sorted_insistent _, exceeds_at (n := 4294967294) (by decide)⟩

end InMemoryRateLimiter

end Genzh.Infrastructure
