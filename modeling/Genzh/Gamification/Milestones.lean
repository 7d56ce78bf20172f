/-
Every rung of the invite ladder is paid once, by the claim that reaches it. The count a claim takes is behind the lock
of the referrer's balance, which the credit before it has taken: no other referral of the same referrer is committed
until this one is.
-/
import Genzh.Gamification.Ledger

namespace Genzh.Gamification

open Genzh.Lib Genzh.Domain Genzh.Infrastructure

/-! ## The ladder -/

/-- What the ledger says of a rung. -/
def milestoneEntry (m : ReferralMilestone) : Metadata × Int := (.milestone m.label m.invites, m.bonusPoints)

/-- The bonus that a count of invites brings. -/
def bonusAt (n : Nat) : Option (Metadata × Int) := (rungAt n).map milestoneEntry

/-- The bonuses that so many invites have brought. -/
def bonuses (n : Nat) : List (Metadata × Int) := (List.range n).filterMap fun k => bonusAt (k + 1)

theorem bonuses_succ (n : Nat) : bonuses (n + 1) = bonuses n ++ (bonusAt (n + 1)).toList := by
  unfold bonuses
  rw [List.range_succ, List.filterMap_append]
  cases h : bonusAt (n + 1) <;> simp [h]

theorem rungAt_some {n : Int} {m : ReferralMilestone} (h : rungAt n = some m) :
    m ∈ referralMilestones ∧ m.invites = n ∧ 0 < m.bonusPoints := by
  have hmem := List.mem_of_find?_eq_some h
  have hcond := List.find?_some h
  simp only [Bool.and_eq_true, beq_iff_eq, decide_eq_true_eq] at hcond
  exact ⟨hmem, hcond⟩

/-- A rung that pays is the one at its number of invites. -/
theorem rungAt_invites {m : ReferralMilestone} (hm : m ∈ referralMilestones) (hpays : 0 < m.bonusPoints) : rungAt m.invites = some m := by
  have hall : ∀ m ∈ referralMilestones, 0 < m.bonusPoints → rungAt m.invites = some m := by decide
  exact hall m hm hpays

/-- Each rung is among the bonuses once, as soon as it is reached. -/
theorem count_bonuses {m : ReferralMilestone} (hm : m ∈ referralMilestones) (hpays : 0 < m.bonusPoints) (n : Nat) :
    (bonuses n).count (milestoneEntry m) = if m.invites ≤ n then 1 else 0 := by
  have hpositive : ∀ m ∈ referralMilestones, 0 < m.invites := by decide
  induction n with
  | zero =>
    have := hpositive m hm
    rw [if_neg (by omega)]
    rfl
  | succ n ih =>
    rw [bonuses_succ, List.count_append, ih]
    by_cases hreached : m.invites = n + 1
    · -- this is the count that reaches it
      have hbonus : bonusAt (n + 1) = some (milestoneEntry m) := by
        unfold bonusAt
        rw [show ((n + 1 : Nat) : Int) = m.invites by omega, rungAt_invites hm hpays]
        rfl
      rw [hbonus, if_neg (by omega), if_pos (by omega)]
      simp
    · have hother : (bonusAt (n + 1)).toList.count (milestoneEntry m) = 0 := by
        rw [List.count_eq_zero]
        intro hmem
        obtain ⟨m', hm', heq⟩ := Option.map_eq_some_iff.1 (Option.mem_toList.1 hmem)
        have hinvites : m'.invites = m.invites := by
          exact (Metadata.milestone.inj (congrArg Prod.fst heq)).2
        have := (rungAt_some hm').2.1
        omega
      rw [hother]
      by_cases hle : m.invites ≤ n
      · rw [if_pos hle, if_pos (by omega)]
      · rw [if_neg hle, if_neg (by omega)]

/-! ## What is paid -/

/-- The milestones somebody has been paid. -/
def EconomyDb.milestones (s : EconomyDb) (r : UserId) : List (Metadata × Int) :=
  (s.balanceTransactions.filter fun t => t.userId = r && t.reason = .referralMilestone).map fun t => (t.metadata, t.amount)

/-- Everybody has been paid the bonuses their invites have brought, and nobody has referred themselves. -/
structure Laddered (s : EconomyDb) : Prop where
  paid : ∀ r, s.milestones r = bonuses (s.invites r)
  others : ∀ row ∈ s.referrals.rows, row.refereeId ≠ row.referrerId

/-- One step: nothing has happened to somebody's invites, or they have one more and the bonus it brings. -/
structure Climbs (s s' : EconomyDb) : Prop where
  rung : ∀ r, (s'.invites r = s.invites r ∧ s'.milestones r = s.milestones r) ∨
    (s'.invites r = s.invites r + 1 ∧ s'.milestones r = s.milestones r ++ (bonusAt (s'.invites r)).toList)
  rows : s.referrals.rows <+: s'.referrals.rows

variable {text : Casing} {s s' : EconomyDb} {log : Log} {ws : List Write}

theorem laddered_empty (now : Timestamp) (users : Table User) : Laddered (.empty now users) :=
  ⟨fun _ => rfl, fun _ hr => (List.not_mem_nil hr).elim⟩

theorem Climbs.same (hreferrals : s'.referrals = s.referrals) (hmilestones : ∀ r, s'.milestones r = s.milestones r) : Climbs s s' :=
  ⟨fun r => .inl ⟨by unfold EconomyDb.invites; rw [hreferrals], hmilestones r⟩, by rw [hreferrals]⟩

theorem Climbs.refl (s : EconomyDb) : Climbs s s := .same rfl fun _ => rfl

/-- An entry for another reason is no milestone. -/
theorem Climbs.entry (t : BalanceTransaction) (hreason : t.reason ≠ .referralMilestone)
    (hledger : s'.balanceTransactions = s.balanceTransactions ++ [t]) (hreferrals : s'.referrals = s.referrals) : Climbs s s' := by
  refine .same hreferrals fun r => ?_
  unfold EconomyDb.milestones
  rw [hledger]
  simp [List.filter_append, hreason]

theorem milestones_milestone {referrer r : UserId} {n : Nat} {start : Timestamp} :
    ((economy text).apply (milestoneWrites referrer n start) s).milestones r =
      s.milestones r ++ if referrer = r then (bonusAt n).toList else [] := by
  unfold milestoneWrites bonusAt
  rcases hrung : rungAt n with _ | m
  · simp
  · obtain ⟨-, hinvites, -⟩ := rungAt_some hrung
    change ((s.balanceTransactions ++ [_]).filter _).map _ = _
    by_cases hr : referrer = r
    · simp [List.filter_append, hr, EconomyDb.milestones, milestoneEntry, hinvites]
    · simp [List.filter_append, hr, EconomyDb.milestones]

/-- What a claim leaves of the referrals: one more. -/
theorem referrals_refer {code : String} {referrer referee : UserId} {n : Int} {start : Timestamp} :
    ((economy text).apply (referralWrites code referrer referee start ++ milestoneWrites referrer n start) s).referrals =
      s.referrals.insert ⟨referrer, referee, code, referralRewardPoints, start⟩ := by
  rw [Database.apply_append]
  unfold milestoneWrites
  split <;> rfl

theorem milestones_refer {code : String} {referrer referee : UserId} {start : Timestamp} (r : UserId) :
    ((economy text).apply (referralWrites code referrer referee start) s).milestones r = s.milestones r := by
  change ((s.balanceTransactions ++ [_] ++ [_]).filter _).map _ = _
  simp [List.filter_append, EconomyDb.milestones]

/-- What a claim commits: one invite more for the referrer, and the bonus it brings. -/
theorem climbs_refer {code : String} {referrer referee : UserId} {start : Timestamp} (hnew : s.referrals.find referee = none) :
    Climbs s ((economy text).apply (referralWrites code referrer referee start ++
      milestoneWrites referrer ((s.invites referrer + 1 : Nat) : Int) start) s) := by
  have hcontains : s.referrals.contains referee = false := Table.contains_eq_false.2 hnew
  generalize hn : s.invites referrer + 1 = n
  refine ⟨fun r => ?_, ?_⟩
  · have hinvites : ((economy text).apply (referralWrites code referrer referee start ++ milestoneWrites referrer (n : Int) start) s).invites r =
        s.invites r + if referrer = r then 1 else 0 := by
      refine Eq.trans ?_ (invites_refer (r := ⟨referrer, referee, code, referralRewardPoints, start⟩) hcontains r)
      exact congrArg (fun t : Table Referral => t.count fun row => row.referrerId = r) referrals_refer
    rw [hinvites, Database.apply_append, milestones_milestone, milestones_refer]
    by_cases hr : referrer = r
    · subst hr
      simp [hn]
    · simp [hr]
  · rw [referrals_refer]
    unfold Table.insert
    split
    · exact List.prefix_refl _
    · exact List.prefix_append _ _

theorem climbs_purchase {u : UserId} {i : StoreItem} {start : Timestamp} : Climbs s ((economy text).apply (purchaseWrites u i start) s) := by
  unfold purchaseWrites chargeWrites
  split
  · exact .entry _ (by nofun) rfl rfl
  · exact .same rfl fun _ => rfl

/-- Whatever is committed, pays the rung it reaches and no other. -/
theorem Commits.climbs (h : Commits log s ws) : Climbs s ((economy text).apply ws s) := by
  cases h with
  | checkIn u streak start v v' mid reward column hpos => exact .entry _ (by nofun) rfl rfl
  | refer code referrer referee start hne hnew => exact climbs_refer hnew
  | grant admin u amount note start hpos => exact .entry _ (by nofun) rfl rfl
  | debit admin u amount note start b hneg hb henough => exact .entry _ (by nofun) rfl rfl
  | stray admin u amount note start v hneg hlog hnone => exact .entry _ (by nofun) rfl rfl
  | purchase u i start v rest hlog hi howns hstock hbalance => exact climbs_purchase
  | dress u ws hdresses =>
    obtain ⟨worn, hworn⟩ := apply_dress text s hdresses
    rw [hworn]
    exact .same rfl fun _ => rfl
  | give | addItem | editItem | dropItem => exact .same rfl fun _ => rfl

/-- Nobody refers themselves. -/
theorem Commits.others (h : Commits log s ws) (hothers : ∀ row ∈ s.referrals.rows, row.refereeId ≠ row.referrerId) :
    ∀ row ∈ ((economy text).apply ws s).referrals.rows, row.refereeId ≠ row.referrerId := by
  cases h with
  | refer code referrer referee start hne hnew =>
    intro row hrow
    rw [referrals_refer] at hrow
    rcases Table.mem_insert.1 hrow with hrow | ⟨rfl, -⟩
    · exact hothers row hrow
    · exact hne
  | purchase u i start v rest hlog hi howns hstock hbalance =>
    obtain ⟨_, _, hpurchase⟩ := apply_purchase text s u i start
    rw [hpurchase]
    exact hothers
  | dress u ws hdresses =>
    obtain ⟨worn, hworn⟩ := apply_dress text s hdresses
    rw [hworn]
    exact hothers
  | _ => exact hothers

theorem Laddered.climb (h : Laddered s) (hclimbs : Climbs s s') (hothers : ∀ row ∈ s'.referrals.rows, row.refereeId ≠ row.referrerId) :
    Laddered s' := by
  refine ⟨fun r => ?_, hothers⟩
  rcases hclimbs.rung r with ⟨hinvites, hmilestones⟩ | ⟨hinvites, hmilestones⟩
  · rw [hinvites, hmilestones, h.paid r]
  · rw [hmilestones, h.paid r, hinvites, bonuses_succ]

/-! ## Every run -/

/-- Everybody has been paid each rung they have reached, once, and no other; and has been referred once at most, by somebody
else. -/
structure Rewarded (s : EconomyDb) : Prop where
  once : ∀ r, ∀ m ∈ referralMilestones, 0 < m.bonusPoints → (s.milestones r).count (milestoneEntry m) = if m.invites ≤ s.invites r then 1 else 0
  rungs : ∀ r, ∀ e ∈ s.milestones r, ∃ m ∈ referralMilestones, 0 < m.bonusPoints ∧ milestoneEntry m = e
  referred : (s.referrals.rows.map (·.refereeId)).Nodup
  others : ∀ row ∈ s.referrals.rows, row.refereeId ≠ row.referrerId

theorem Laddered.rewarded (h : Laddered s) : Rewarded s := by
  refine ⟨fun r m hm hpays => ?_, fun r e he => ?_, s.referrals.nodup, h.others⟩
  · rw [h.paid r]
    exact count_bonuses hm hpays _
  · rw [h.paid r] at he
    obtain ⟨n, -, hbonus⟩ := List.mem_filterMap.1 he
    obtain ⟨m, hm, rfl⟩ := Option.map_eq_some_iff.1 hbonus
    exact ⟨m, (rungAt_some hm).1, (rungAt_some hm).2.2, rfl⟩

/-- In every run each rung is paid once, and by the step that adds the referral which reaches it. -/
theorem milestones_once {I : Type} [DecidableEq I] (text : Casing) (requests : I → Request) (s : EconomyDb) (hvalid : Valid s)
    (hladdered : Laddered s) (es : List (Event I (Outside I Elsewhere))) :
    Always (step text) (fun σ => Rewarded σ.store.db) (start text s requests) es ∧
    Along (step text) (fun σ e => Climbs σ.store.db (step text σ e).store.db) (start text s requests) es := by
  have hsound : (discipline text).Sound (start text s requests) := sound_start hvalid
  have hcommits : ∀ log held ws s, (discipline text).Good s → Discipline.Clean (fun _ _ => True) log → (discipline text).Acts log held ws s →
      Laddered s → Laddered ((economy text).apply ws s) ∧ Climbs s ((economy text).apply ws s) := by
    intro log held ws s _ _ hacts h
    exact ⟨h.climb hacts.2.climbs (hacts.2.others h.others), hacts.2.climbs⟩
  have helsewhere : ∀ a s, (discipline text).Good s → Laddered s → Laddered (elsewhere a s) ∧ Climbs s (elsewhere a s) := by
    intro a s _ h
    cases a <;> exact ⟨⟨h.paid, h.others⟩, .same rfl fun _ => rfl⟩
  obtain ⟨halways, halong⟩ := hsound.always_along Climbs tolerates_elsewhere hcommits helsewhere .refl
    (fun _ => Discipline.clean_true _) hladdered (Discipline.along_heeds _ es)
  exact ⟨halways.mono fun _ h => h.rewarded, halong⟩

/-- Two new accounts that enter the same code at the same time. -/
theorem milestones_once_of_two :
    let newcomer (n : Nat) : User := { id := ⟨n⟩, handle := "newcomer", email := "newcomer@example.org", isActive := true }
    let requests : Fin 2 → Request := ![.claimReferral ⟨2⟩ "GENZH", .claimReferral ⟨3⟩ "GENZH"]
    let es : List (Event (Fin 2) (Outside (Fin 2) Elsewhere)) :=
      [.outside (.other (.code ⟨1⟩ "GENZH")), .outside (.other (.register (newcomer 2))), .outside (.other (.register (newcomer 3)))] ++
        (List.replicate 12 [Event.turn 0, .turn 1]).flatten ++ List.replicate 12 (.turn 1)
    Always (step asWritten) (fun σ => Rewarded σ.store.db) (start asWritten (.empty 0 nobody) requests) es ∧
    Along (step asWritten) (fun σ e => Climbs σ.store.db (step asWritten σ e).store.db) (start asWritten (.empty 0 nobody) requests) es :=
  milestones_once asWritten _ (.empty 0 nobody) (valid_empty 0 nobody) (laddered_empty 0 nobody) _

end Genzh.Gamification
