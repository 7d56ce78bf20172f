/-
Two check-ins that pay are twenty hours apart. The lock of the balance row and the guard see to it, in every run in
which no check-in that found no row to lock pays where somebody has been paid meanwhile, and none that began within the
cool-down reads the clock after it: what is recorded is when its transaction began.
-/
import Genzh.Gamification.Ledger

namespace Genzh.Gamification

open Genzh.Lib Genzh.Domain Genzh.Infrastructure

/-- When an account has been paid for checking in. -/
def EconomyDb.paidAt (s : EconomyDb) (u : UserId) : List Timestamp :=
  (s.balanceTransactions.filter fun t => t.userId = u && t.reason = .dailyCheckin).map (·.createdAt)

/-- No two payments of one account are less than twenty hours apart. -/
def Apart (s : EconomyDb) : Prop := ∀ u, (s.paidAt u).Pairwise fun a b => a + 20 * hour ≤ b

/-- The payments are apart, and the balance knows the last of them. -/
structure Spaced (s : EconomyDb) : Prop where
  apart : Apart s
  last : ∀ u, ∀ paid ∈ s.paidAt u, ∃ last, s.lastClaim u = some last ∧ paid ≤ last

/-- The account a statement pays. -/
def Statement.pays : Statement → Option UserId
  | payDaily u _ _ => some u
  | _ => none

/-- The check-in found no row to lock. -/
def FoundNoRow (log : Log) (u : UserId) : Prop := ∃ e ∈ log, e.stmt = .lockClaim u ∧ e.view.userBalances.contains u = false

/-- The last claim a statement has read and locked. -/
def readClaim (e : Executed EconomyDb Timestamp Statement) : Option Timestamp :=
  match e.stmt with
  | .lockClaim u => e.view.lastClaim u
  | _ => none

/-- A payment that has locked nothing is the first of its account, and a clock that is read after the cool-down is read
in a transaction that began after it. -/
def InItsTurn (log : Log) (x : Executed EconomyDb Timestamp Statement) : Prop :=
  (∀ u ∈ x.stmt.pays, FoundNoRow log u → x.view.lastClaim u = none) ∧
  (x.stmt = .readClock → ∀ e ∈ log, ∀ last ∈ readClaim e, last + 20 * hour ≤ x.view.now → last + 20 * hour ≤ x.start)

instance (log : Log) (u : UserId) : Decidable (FoundNoRow log u) := List.decidableBEx _ _

instance (log : Log) (x : Executed EconomyDb Timestamp Statement) : Decidable (InItsTurn log x) := instDecidableAnd

variable {text : Casing} {s s' : EconomyDb} {log : Log} {ws : List Write} {u : UserId} {amount : Int}

theorem spaced_empty (now : Timestamp) (users : Table User) : Spaced (.empty now users) :=
  ⟨fun _ => .nil, fun _ _ h => (List.not_mem_nil h).elim⟩

/-! ## What leaves the payments alone -/

theorem Spaced.congr (h : Spaced s) (hlast : ∀ u, s'.lastClaim u = s.lastClaim u) (hpaid : ∀ u, s'.paidAt u = s.paidAt u) : Spaced s' :=
  ⟨fun u => by rw [hpaid]; exact h.apart u, fun u paid hmem => by rw [hlast]; rw [hpaid] at hmem; exact h.last u paid hmem⟩

theorem lastClaim_credit {v : UserId} : ((Write.credit u amount).exec s).lastClaim v = s.lastClaim v := by
  unfold EconomyDb.lastClaim
  rw [find_credit]
  split
  · cases s.userBalances.find v <;> rfl
  · rfl

theorem lastClaim_adjust {v : UserId} : ((Write.adjust u amount).exec s).lastClaim v = s.lastClaim v := by
  unfold EconomyDb.lastClaim
  rw [find_adjust]
  split
  · cases s.userBalances.find v <;> rfl
  · rfl

theorem lastClaim_payDaily {streak : Int} {claimed : Timestamp} {v : UserId} :
    ((Write.payDaily u amount streak claimed).exec s).lastClaim v = if u = v then some claimed else s.lastClaim v := by
  unfold EconomyDb.lastClaim
  rw [find_payDaily]
  split <;> rfl

/-- An entry for another reason is no payment. -/
theorem paidAt_append {t : BalanceTransaction} (h : t.reason ≠ .dailyCheckin) (ts : List BalanceTransaction) (v : UserId) :
    ((ts ++ [t]).filter fun t => t.userId = v && t.reason = .dailyCheckin).map (·.createdAt) =
      (ts.filter fun t => t.userId = v && t.reason = .dailyCheckin).map (·.createdAt) := by
  simp [List.filter_append, h]

theorem Spaced.credit (h : Spaced s) {reason : Reason} {metadata : Metadata} {start : Timestamp} (hreason : reason ≠ .dailyCheckin) :
    Spaced ((economy text).apply (creditWrites u amount reason metadata start) s) :=
  h.congr (fun _ => lastClaim_credit) fun v => paidAt_append (t := ⟨u, amount, reason, metadata, start⟩) hreason _ v

theorem Spaced.entry (h : Spaced s) {t : BalanceTransaction} (hreason : t.reason ≠ .dailyCheckin) :
    Spaced ((economy text).apply [.ledger t] s) :=
  h.congr (fun _ => rfl) fun v => paidAt_append hreason _ v

theorem Spaced.debit (h : Spaced s) {t : BalanceTransaction} (hreason : t.reason ≠ .dailyCheckin) :
    Spaced ((economy text).apply [.adjust u amount, .ledger t] s) :=
  h.congr (fun _ => lastClaim_adjust) fun v => paidAt_append hreason _ v

theorem Spaced.refer (h : Spaced s) {code : String} {referrer referee : UserId} {invites : Int} {start : Timestamp} :
    Spaced ((economy text).apply (referralWrites code referrer referee start ++ milestoneWrites referrer invites start) s) := by
  have hpaid : Spaced ((economy text).apply (referralWrites code referrer referee start) s) := by
    unfold referralWrites
    rw [Database.apply_cons, Database.apply_append]
    have hrefer : ∀ r, Spaced ((Write.refer r).exec s) := fun r => h.congr (fun _ => rfl) fun _ => rfl
    exact ((hrefer _).credit (by decide)).credit (by decide)
  rw [Database.apply_append]
  unfold milestoneWrites
  split
  · exact hpaid.credit (by decide)
  · exact hpaid

theorem Spaced.purchase (h : Spaced s) {i : StoreItem} {start : Timestamp} : Spaced ((economy text).apply (purchaseWrites u i start) s) := by
  unfold purchaseWrites
  rw [Database.apply_append]
  have hcharge : Spaced ((economy text).apply (chargeWrites u i start) s) := by
    unfold chargeWrites
    split
    · exact h.debit nofun
    · exact h
  exact hcharge.congr (fun _ => rfl) fun _ => rfl

/-! ## A payment -/

theorem Spaced.pay (h : Spaced s) {streak column : Int} {start : Timestamp}
    (hcool : ∀ last, s.lastClaim u = some last → last + 20 * hour ≤ start) :
    Spaced ((economy text).apply [.payDaily u amount column start,
      .ledger { userId := u, amount, reason := .dailyCheckin, metadata := .checkin streak, createdAt := start }] s) := by
  have hlast : ∀ v, ((economy text).apply [.payDaily u amount column start,
      .ledger { userId := u, amount, reason := .dailyCheckin, metadata := .checkin streak, createdAt := start }] s).lastClaim v =
      if u = v then some start else s.lastClaim v := fun v => lastClaim_payDaily
  have hpaid : ∀ v, ((economy text).apply [.payDaily u amount column start,
      .ledger { userId := u, amount, reason := .dailyCheckin, metadata := .checkin streak, createdAt := start }] s).paidAt v =
      s.paidAt v ++ if u = v then [start] else [] := by
    intro v
    change ((s.balanceTransactions ++ [_]).filter _).map _ = _
    by_cases hv : u = v <;> simp [List.filter_append, hv, EconomyDb.paidAt]
  have hbefore : ∀ paid ∈ s.paidAt u, paid + 20 * hour ≤ start := by
    intro paid hmem
    obtain ⟨last, hlast, hle⟩ := h.last u paid hmem
    exact Int.le_trans (Int.add_le_add_right hle _) (hcool last hlast)
  refine ⟨fun v => ?_, fun v paid hmem => ?_⟩ <;> by_cases hv : u = v
  · subst hv
    rw [hpaid, if_pos rfl]
    refine List.pairwise_append.2 ⟨h.apart u, List.pairwise_singleton _ _, fun a ha b hb => ?_⟩
    rw [List.mem_singleton.1 hb]
    exact hbefore a ha
  · rw [hpaid, if_neg hv, List.append_nil]
    exact h.apart v
  · subst hv
    refine ⟨start, (hlast u).trans (if_pos rfl), ?_⟩
    rw [hpaid, if_pos rfl] at hmem
    rcases List.mem_append.1 hmem with hmem | hmem
    · exact Int.le_trans (Int.le_add_of_nonneg_right (by decide)) (hbefore paid hmem)
    · rw [List.mem_singleton.1 hmem]
  · rw [hpaid, if_neg hv, List.append_nil] at hmem
    rw [hlast, if_neg hv]
    exact h.last v paid hmem

/-- Whatever is committed, keeps the payments apart. -/
theorem Spaced.commit (h : Spaced s) (hclean : Discipline.Clean InItsTurn log) (hcommits : Commits log s ws) :
    Spaced ((economy text).apply ws s) := by
  cases hcommits with
  | checkIn u streak start v v' mid reward column hpos hpaid hlock hsame hguard =>
    refine h.pay fun last hlast => ?_
    have hturn := hclean.suffix hpaid
    rw [hsame] at hlast
    rcases hrow : v.userBalances.contains u with _ | _
    · -- nothing was locked: there has been no claim since
      have hnone : v'.lastClaim u = none := hturn.1.1 u rfl ⟨_, hlock, rfl, hrow⟩
      rw [hnone] at hlast
      cases hlast
    · obtain ⟨hclaim, hcool⟩ := hguard hrow
      rw [hclaim] at hlast
      obtain ⟨w, mid', hclock, hlock', hle⟩ := hcool last hlast
      exact (hturn.2.suffix hclock).1.2 rfl _ hlock' last hlast hle
  | refer code referrer referee start hne hnew => exact h.refer
  | grant admin u amount note start hpos => exact h.credit (by decide)
  | debit admin u amount note start b hneg hb henough => exact h.debit nofun
  | stray admin u amount note start v hneg hlog hnone => exact h.entry nofun
  | purchase u i start v rest hlog hi howns hstock hbalance => exact h.purchase
  | dress u ws hdresses =>
    obtain ⟨worn, hworn⟩ := apply_dress text s hdresses
    rw [hworn]
    exact h.congr (fun _ => rfl) fun _ => rfl
  | give | addItem | editItem | dropItem => exact h.congr (fun _ => rfl) fun _ => rfl

/-- In every run in which the payments come in their turn, they are apart. -/
theorem checkins_apart {I : Type} [DecidableEq I] (text : Casing) (requests : I → Request) (s : EconomyDb) (hvalid : Valid s)
    (hspaced : Spaced s) (es : List (Event I (Outside I Elsewhere)))
    (hes : Along (step text) (Discipline.Heeds (economy text) InItsTurn) (start text s requests) es) :
    Always (step text) (fun σ => Apart σ.store.db) (start text s requests) es :=
  (Discipline.Sound.always (J := Spaced) tolerates_elsewhere (fun log held ws s _ hclean hacts h => h.commit hclean hacts.2)
    (fun a s _ h => by cases a <;> exact h.congr (fun _ => rfl) fun _ => rfl) (sound_start hvalid) (fun _ => trivial) hspaced hes).mono
    fun _ h => h.apart

/-- One check-in after the other, and the second one again a day later. -/
theorem checkins_apart_of_two :
    let requests : Fin 3 → Request := fun _ => .claimDailyCheckin ⟨1⟩
    let es : List (Event (Fin 3) (Outside (Fin 3) Elsewhere)) :=
      List.replicate 7 (.turn 0) ++ List.replicate 4 (.turn 1) ++ .outside (.other (.wait 86400000000)) :: List.replicate 9 (.turn 2)
    Always (step asWritten) (fun σ => Apart σ.store.db) (start asWritten (.empty 0 nobody) requests) es :=
  checkins_apart asWritten _ (.empty 0 nobody) (valid_empty 0 nobody) (spaced_empty 0 nobody) _ (by decide)

/-- Two first check-ins at the same time: neither finds a row to lock, and both pay. -/
theorem first_checkins_race :
    let requests : Fin 2 → Request := fun _ => .claimDailyCheckin ⟨1⟩
    let es : List (Event (Fin 2) (Outside (Fin 2) Elsewhere)) :=
      [.turn 0, .turn 1, .turn 0, .turn 1] ++ List.replicate 5 (.turn 0) ++ List.replicate 5 (.turn 1)
    Valid (.empty 0 nobody) ∧ Spaced (.empty 0 nobody) ∧
    ¬ Apart (run (step asWritten) (start asWritten (.empty 0 nobody) requests) es).store.db := by
  refine ⟨valid_empty 0 nobody, spaced_empty 0 nobody, fun h => ?_⟩
  have hpaid := h ⟨1⟩
  revert hpaid
  decide

end Genzh.Gamification
