/-
The waits the flood guard names. A post that is refused as a repeat is remembered like any other, from the moment it is
refused: the wait runs from the post before it, and who waits for so long is refused again.
-/
import Genzh.Infrastructure.Flood

namespace Genzh.Infrastructure.Flood

open Genzh.Lib

namespace Verdict

/-- How long the caller should wait, if they were refused. -/
def retryAfter : Verdict → Option Nat
  | allowed => none
  | tooFast r | repeated r => some r

/-- Are they refusals by the same rule? -/
def sameRule : Verdict → Verdict → Bool
  | tooFast _, tooFast _ | repeated _, repeated _ => true
  | _, _ => false

end Verdict

namespace FloodPolicy

variable (p : FloodPolicy)

/-- Who is refused this post, makes no other under the key, and comes back with it after the wait that was named is not
refused by the same rule. -/
def WaitKept (digest : String → UInt64) (recent : Map String Recent) (key content : String) (now : Nat) : Prop :=
  ∀ wait, ((p.keeper digest).check now key content recent).1.retryAfter = some wait →
    ∀ between : List (Visit String String), (∀ v ∈ between, v.isTo key = false ∧ now ≤ v.now) →
      (between.map Visit.now).Pairwise (· ≤ ·) → ∀ later, now + wait ≤ later → (∀ v ∈ between, v.now ≤ later) →
      Verdict.sameRule ((p.keeper digest).check now key content recent).1
        ((p.keeper digest).check later key content
          (run (p.keeper digest).step ((p.keeper digest).check now key content recent).2 between)).1 = false

/-- A post that is one too many was said at this very instant before, or the next repeat starts the counter again; any
other is within the burst, or there is a burst. -/
def waits (now : Nat) (digest : UInt64) (entry : Option Recent) : Prop :=
  if p.isOneTooMany now digest (p.opened now entry) then
    (p.opened now entry).last = some (digest, now) ∨ (p.opened now entry).repeats + 2 < p.repeats
  else (p.opened now entry).count + 1 ≤ p.burst ∨ 0 < p.burst

variable {p} {now later : Nat} {d : UInt64} {entry : Option Recent}

theorem visit_repeated (h : p.isOneTooMany now d (p.opened now entry) = true) : ∃ at_,
    (p.opened now entry).last = some (d, at_) ∧ now - at_ < p.repeatWindow ∧
      (p.visit now d entry).1 = .repeated (p.repeatWindow - (now - at_)) := by
  obtain ⟨hrepeat, hmany⟩ := Bool.and_eq_true_iff.1 h
  rcases hlast : (p.opened now entry).last with _ | ⟨d', at_⟩
  · simp [isRepeat, hlast] at hrepeat
  · obtain ⟨rfl, hrecent⟩ : d' = d ∧ now - at_ < p.repeatWindow := by simpa [isRepeat, hlast] using hrepeat
    refine ⟨at_, rfl, hrecent, ?_⟩
    simp only [visit, hrepeat, if_true, Bool.true_and, hmany, hlast, Option.elim_some]

/-- A later post of the same is refused as a repeat if it comes within the repeat window and the counter is that far. -/
theorem isRepeated_later (e : Recent) (hlast : e.last = some (d, now)) :
    (p.visit later d (some e)).1.isRepeated = true ↔ later - now < p.repeatWindow ∧ p.repeats ≤ e.repeats + 1 := by
  have hmany : p.isOneTooMany later d (p.opened later (some e)) = true ↔
      later - now < p.repeatWindow ∧ p.repeats ≤ e.repeats + 1 := by
    unfold isOneTooMany isRepeat
    rw [last_opened, repeats_opened, hlast]
    simp
  rw [← hmany]
  rcases h : p.isOneTooMany later d (p.opened later (some e))
  · simp [(visit_counted h).2.1]
  · obtain ⟨⟨wait, hwait⟩, -⟩ := visit_oneTooMany h
    simp [hwait, Verdict.isRepeated]

theorem sameRule_repeated (wait : Nat) (v : Verdict) : Verdict.sameRule (.repeated wait) v = v.isRepeated := by
  cases v <;> rfl

/-- The wait of a repeat is long enough if it is the whole window, or if the counter has started again by then. -/
theorem waits_repeated (hdated : ∀ e, entry = some e → Dated now e) (h : p.isOneTooMany now d (p.opened now entry) = true) :
    (∀ wait, (p.visit now d entry).1.retryAfter = some wait → ∀ later, now + wait ≤ later →
      Verdict.sameRule (p.visit now d entry).1 (p.visit later d (some (p.visit now d entry).2)).1 = false) ↔
      (p.opened now entry).last = some (d, now) ∨ (p.opened now entry).repeats + 2 < p.repeats := by
  obtain ⟨at_, hlast, hrecent, hverdict⟩ := visit_repeated h
  have hat : at_ ≤ now := by
    cases entry with
    | none =>
      rw [opened_none] at hlast
      cases hlast
    | some e =>
      obtain ⟨d', at', hlast', -, hle⟩ := hdated e rfl
      rw [last_opened, hlast'] at hlast
      cases hlast
      exact hle
  have hrepeats : (p.visit now d entry).2.repeats = (p.opened now entry).repeats + 1 := by rw [(visit_oneTooMany h).2]
  have htwice : (p.opened now entry).repeats + 1 + 1 = (p.opened now entry).repeats + 2 := by rw [UInt32.add_assoc]; rfl
  have hlater : ∀ later, (p.visit later d (some (p.visit now d entry).2)).1.isRepeated = true ↔
      later - now < p.repeatWindow ∧ p.repeats ≤ (p.opened now entry).repeats + 2 := by
    intro later
    rw [isRepeated_later _ last_visit, hrepeats, htwice]
  simp only [hverdict, Verdict.retryAfter, Option.some.injEq, sameRule_repeated, hlast, Prod.mk.injEq, true_and, forall_eq',
    ← Bool.not_eq_true, hlater, not_and_or, UInt32.not_le, Nat.not_lt]
  constructor
  · intro hkept
    rcases hkept (now + (p.repeatWindow - (now - at_))) le_rfl with hwait | hcounter
    · exact .inl (by omega)
    · exact .inr hcounter
  · rintro (rfl | hcounter) later hle
    · exact .inl (by omega)
    · exact .inr hcounter

theorem sameRule_tooFast (wait : Nat) (v : Verdict) : Verdict.sameRule (.tooFast wait) v = (!v.isAllowed && !v.isRepeated) := by
  cases v <;> rfl

theorem visit_tooFast (h : p.isOneTooMany now d (p.opened now entry) = false) (hburst : p.burst < (p.opened now entry).count + 1) :
    (p.visit now d entry).1 = .tooFast (p.window - (now - (p.opened now entry).windowStarted)) := by
  have hguard : (p.isRepeat now d (p.opened now entry) &&
      decide (p.repeats ≤ if p.isRepeat now d (p.opened now entry) then (p.opened now entry).repeats + 1 else 0)) = false := by
    unfold isOneTooMany at h
    cases hrepeat : p.isRepeat now d (p.opened now entry)
    · rfl
    · simpa [hrepeat] using h
  simp only [visit, hguard, Bool.false_eq_true, if_false, hburst, if_true]

/-- A later post finds the count at zero once the window of its entry has passed. -/
theorem count_opened_later (e : Recent) (hpassed : p.window ≤ later - e.windowStarted) : (p.opened later (some e)).count = 0 := by
  rw [opened_some, if_pos hpassed]

/-- A post that finds the count at zero is refused for being too fast only where there is no burst. -/
theorem tooFast_of_zero (hcount : (p.opened now entry).count = 0) :
    ((p.visit now d entry).1.isAllowed = false ∧ (p.visit now d entry).1.isRepeated = false) ↔
      (p.visit now d entry).1.isRepeated = false ∧ ¬ 0 < p.burst := by
  rcases h : p.isOneTooMany now d (p.opened now entry)
  · obtain ⟨hallowed, hnotRepeated, -⟩ := visit_counted h
    have hone : (0 : UInt32) + 1 ≤ p.burst ↔ 0 < p.burst := by
      rw [UInt32.le_iff_toNat_le, UInt32.lt_iff_toNat_lt]
      exact Iff.rfl
    rw [← Bool.not_eq_true, hallowed, hcount, hone, hnotRepeated]
    exact and_comm
  · obtain ⟨⟨wait, hwait⟩, -⟩ := visit_oneTooMany h
    simp [hwait, Verdict.isRepeated]

/-- Once the window has rolled over there is room for a post, if there is room for any. -/
theorem waits_counted (hdated : ∀ e, entry = some e → Dated now e) (h : p.isOneTooMany now d (p.opened now entry) = false) :
    (∀ wait, (p.visit now d entry).1.retryAfter = some wait → ∀ later, now + wait ≤ later →
      Verdict.sameRule (p.visit now d entry).1 (p.visit later d (some (p.visit now d entry).2)).1 = false) ↔
      (p.opened now entry).count + 1 ≤ p.burst ∨ 0 < p.burst := by
  obtain ⟨hallowed, hnotRepeated, -⟩ := visit_counted h
  by_cases hburst : (p.opened now entry).count + 1 ≤ p.burst
  · have hverdict : (p.visit now d entry).1 = .allowed := by
      have hin := hallowed.2 hburst
      rcases hv : (p.visit now d entry).1 with _ | w | w
      · rfl
      · simp [hv, Verdict.isAllowed] at hin
      · simp [hv, Verdict.isAllowed] at hin
    simp [hverdict, Verdict.retryAfter, hburst]
  · have hverdict := visit_tooFast h (UInt32.not_le.1 hburst)
    have hstarted := opened_started (p := p) hdated
    have hcount : ∀ later, now + (p.window - (now - (p.opened now entry).windowStarted)) ≤ later →
        (p.opened later (some (p.visit now d entry).2)).count = 0 := fun later hle =>
      count_opened_later _ (by rw [windowStarted_visit]; omega)
    have hrefused : ∀ later, now + (p.window - (now - (p.opened now entry).windowStarted)) ≤ later →
        (Verdict.sameRule (p.visit now d entry).1 (p.visit later d (some (p.visit now d entry).2)).1 = true ↔
          (p.visit later d (some (p.visit now d entry).2)).1.isRepeated = false ∧ ¬ 0 < p.burst) := by
      intro later hle
      rw [hverdict, sameRule_tooFast, Bool.and_eq_true, Bool.not_eq_true', Bool.not_eq_true', tooFast_of_zero (hcount later hle)]
    simp only [hverdict, Verdict.retryAfter, Option.some.injEq, forall_eq', hburst, false_or]
    rw [hverdict] at hrefused
    constructor
    · intro hkept
      by_contra hnone
      -- a post so much later that it is no repeat either
      have hlate : now + (p.window - (now - (p.opened now entry).windowStarted)) ≤
          now + max (p.window - (now - (p.opened now entry).windowStarted)) p.repeatWindow := by omega
      have hfresh : (p.visit (now + max (p.window - (now - (p.opened now entry).windowStarted)) p.repeatWindow) d
          (some (p.visit now d entry).2)).1.isRepeated = false := by
        rw [← Bool.not_eq_true, isRepeated_later _ last_visit]
        rintro ⟨hrecent, -⟩
        omega
      have hsame := (hrefused _ hlate).2 ⟨hfresh, hnone⟩
      rw [hkept _ hlate] at hsame
      cases hsame
    · intro hpos later hle
      rw [← Bool.not_eq_true, hrefused later hle]
      exact fun h => h.2 hpos

/-! ## In a run -/

theorem waits_iff (hdated : ∀ e, entry = some e → Dated now e) :
    (∀ wait, (p.visit now d entry).1.retryAfter = some wait → ∀ later, now + wait ≤ later →
      Verdict.sameRule (p.visit now d entry).1 (p.visit later d (some (p.visit now d entry).2)).1 = false) ↔
      p.waits now d entry := by
  unfold waits
  by_cases h : p.isOneTooMany now d (p.opened now entry) = true
  · rw [if_pos h]
    exact waits_repeated hdated h
  · rw [if_neg h]
    exact waits_counted hdated (Bool.not_eq_true _ ▸ h)

/-- After every history of checks: the wait that a refusal names is long enough exactly if a refused repeat was said at this
very instant before or the next one starts the counter again, and a post that is too fast is refused by a policy that has
a burst at all. -/
theorem waitKept_iff (p : FloodPolicy) (digest : String → UInt64) (vs : List (Visit String String)) (key content : String)
    (now : Nat) (hsorted : (vs.map Visit.now).Pairwise (· ≤ ·)) (hnow : ∀ v ∈ vs, v.now ≤ now) :
    p.WaitKept digest (run (p.keeper digest).step .empty vs) key content now ↔
      p.waits now (digest content)
        (((p.keeper digest).found now (run (p.keeper digest).step .empty vs)).get key) := by
  have hlaw : (p.keeper digest).Lawful Dated := lawful
  have hdated : ∀ e, ((p.keeper digest).found now (run (p.keeper digest).step .empty vs)).get key = some e → Dated now e :=
    fun e => Keeper.valid_found (Keeper.valid_run hlaw (by simp) (fun _ _ => Nat.zero_le _) hnow (Nat.zero_le _) hsorted) key e
  rw [← waits_iff hdated]
  generalize run (p.keeper digest).step .empty vs = recent at hdated ⊢
  -- the entry the refusal leaves is what the later post goes by
  have hkept : Keeper.Keeps (p.keeper digest) now key ((p.keeper digest).check now key content recent).2
      (some (p.visit now (digest content) (((p.keeper digest).found now recent).get key)).2) :=
    .inl (Map.get_set_self ..)
  have hvalid : ∀ e, some (p.visit now (digest content) (((p.keeper digest).found now recent).get key)).2 = some e → Dated now e := by
    rintro e ⟨⟩
    exact hlaw.keeps_valid now key content _ hdated
  have hlater : ∀ (between : List (Visit String String)) later, (∀ v ∈ between, v.isTo key = false ∧ now ≤ v.now) →
      (between.map Visit.now).Pairwise (· ≤ ·) → now ≤ later → (∀ v ∈ between, v.now ≤ later) →
      ((p.keeper digest).check later key content
        (run (p.keeper digest).step ((p.keeper digest).check now key content recent).2 between)).1 =
      (p.visit later (digest content)
        (some (p.visit now (digest content) (((p.keeper digest).found now recent).get key)).2)).1 := by
    intro between later hbetween hsorted hle hbefore
    have hstays := hkept.run hlaw hvalid (fun v hv => (hbetween v hv).1) (fun v hv => (hbetween v hv).2) hbefore hle hsorted
    exact congrArg Prod.fst (hstays.visit hlaw fun e he => hlaw.valid_later now later e hle (hvalid e he))
  constructor
  · intro h wait hwait later hle
    have hsame := h wait hwait [] (by simp) List.Pairwise.nil later hle (by simp)
    rwa [hlater [] later (by simp) List.Pairwise.nil (by omega) (by simp)] at hsame
  · intro h wait hwait between hbetween hsorted later hle hbefore
    rw [hlater between later hbetween hsorted (by omega) hbefore]
    exact h wait hwait later hle

/-! ### Four times the same -/

/-- The policy of the default, in seconds. -/
def inSeconds : FloodPolicy := ⟨10, 10, 30, 3⟩

/-- The same post at every second. -/
def insisting : List (Visit String String) := [.check "ana" "hi" 0, .check "ana" "hi" 1, .check "ana" "hi" 2]

/-- After a moment's silence the wait is the whole window, or none. -/
theorem waitKept_first : (insisting.map Visit.now).Pairwise (· ≤ ·) ∧ (∀ v ∈ insisting, v.now ≤ 40) ∧
    (inSeconds.WaitKept (fun _ => 7) (run (inSeconds.keeper fun _ => 7).step .empty insisting) "ana" "hi" 40 ↔
      inSeconds.waits 40 7
        (((inSeconds.keeper fun _ => 7).found 40 (run (inSeconds.keeper fun _ => 7).step .empty insisting)).get "ana")) :=
  ⟨by decide, by decide, waitKept_iff inSeconds (fun _ => 7) insisting "ana" "hi" 40 (by decide) (by decide)⟩

/-- The fourth is to wait for twenty-nine seconds, and is refused again after them. -/
theorem waits_too_short :
    ¬ inSeconds.WaitKept (fun _ => 7) (run (inSeconds.keeper fun _ => 7).step .empty insisting) "ana" "hi" 3 := by
  intro h
  have hsame := h 29 (by decide) [] (by simp) List.Pairwise.nil 32 (by decide) (by simp)
  revert hsame
  decide

end FloodPolicy

end Genzh.Infrastructure.Flood
