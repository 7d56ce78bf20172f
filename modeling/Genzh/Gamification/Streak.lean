/-
What the balance shows of the next check-in, and what check-ins pay. The preview and the claim compare the same two
instants, one by adding the cool-down and one by subtracting and rounding, so a claim that is shown is one that the guard
lets pass; what is left to refuse it are the columns it is written to. In a run of check-ins, each served before the next
begins, the stored streak is the length of the chain that the last payment ends, and so decides what is paid.
-/
import Genzh.Gamification.Ledger
import Genzh.Lib.Serial

namespace Genzh.Gamification

open Genzh.Lib Genzh.Domain Genzh.Infrastructure

variable (text : Casing)

/-! ## The overview -/

/-- How many ledger entries the balance overview carries. -/
def ledgerPage : Nat := 30

structure BalanceOverviewResponse where
  balance : Int
  lifetimeEarned : Int
  dailyStreak : Int
  canClaimDaily : Bool
  /-- When the next check-in unlocks; `none` when it already has. -/
  nextClaimAt : Option Timestamp
  /-- What the next check-in would pay, streak included. -/
  nextClaimPoints : Int
  recentTransactions : List BalanceTransaction
  deriving DecidableEq, Repr

/-- `GET /api/v1/economy/balance` — balance, streak, and recent movements. -/
def getBalance (caller : UserId) (db : EconomyDb) : BalanceOverviewResponse :=
  let row := db.userBalances.find caller
  let lastClaim := row.bind (·.lastDailyClaim)
  let streak := row.elim 0 (·.dailyStreak)
  let nextClaimAt := lastClaim.map (· + dailyClaimCooldownHours * hour)
  let canClaim := nextClaimAt.all fun t => t ≤ db.now
  let transactions := (db.balanceTransactions.filter fun t => t.userId = caller).mergeSort fun t t' => t'.createdAt ≤ t.createdAt
  { balance := row.elim 0 (·.balance)
    lifetimeEarned := row.elim 0 (·.lifetimeEarned)
    dailyStreak := streak
    canClaimDaily := canClaim
    nextClaimAt := if canClaim then none else nextClaimAt
    nextClaimPoints := dailyCheckinReward (nextStreak db.now lastClaim streak)
    recentTransactions := transactions.take ledgerPage }

/-! ## A check-in by itself -/

/-- A check-in that is served while nothing else is. -/
def checkIn (caller : UserId) (db : EconomyDb) : Except EconomyError DailyCheckinResponse × EconomyDb :=
  (economy text).serve (claimDailyCheckin caller) none db

/-- Where a check-in is made too early. -/
def alreadyClaimed : EconomyError := .badRequest "Already claimed today — come back tomorrow."

namespace EconomyDb

variable (db : EconomyDb) (u : UserId)

/-- The streak that a check-in would be part of, the points it would pay, and the row it would leave. -/
def nextStreak : Int := Domain.nextStreak db.now (db.lastClaim u) (db.standing u).dailyStreak

def nextReward : Int := dailyCheckinReward (db.nextStreak u)

def rowPaid : UserBalance := (db.standing u).payDaily (db.nextReward u) (asI32 (db.nextStreak u)) db.now

/-- The cool-down has passed. -/
def cooledDown : Bool := (db.lastClaim u).all fun last => last + 20 * hour ≤ db.now

/-- The account and the columns of its row take what is paid: the points are 64-bit numbers, and the streak is a 32-bit one,
none of them negative. -/
def takesPayment : Bool := db.userExists u && (db.rowPaid u).valid

/-- The check-ins of an account that were paid, the first one first. -/
def checkins : List BalanceTransaction := db.balanceTransactions.filter fun t => t.userId = u && t.reason = .dailyCheckin

/-- The database after a check-in that is paid. -/
def afterPayment : EconomyDb :=
  (Write.ledger {
    userId := u, amount := db.nextReward u, reason := .dailyCheckin, metadata := .checkin (db.nextStreak u), createdAt := db.now }).exec
    ((Write.payDaily u (db.nextReward u) (asI32 (db.nextStreak u)) db.now).exec db)

end EconomyDb

section CheckIn

variable {text} {db : EconomyDb} {u : UserId}

/-- What is left of a check-in once the guard has let it pass. -/
def payment (caller : UserId) (streak : Int) : EconomyM DailyCheckinResponse := do
  ask (.payDaily caller (dailyCheckinReward streak) (asI32 streak))
  writeLedger caller (dailyCheckinReward streak) .dailyCheckin (.checkin streak)
  let newBalance ← balanceOf caller
  commitTx
  pure { pointsAwarded := dailyCheckinReward streak, newBalance, dailyStreak := asI32 streak }

theorem find_afterPayment (v : UserId) :
    (db.afterPayment u).userBalances.find v = if u = v then some (db.rowPaid u) else db.userBalances.find v := by
  refine find_payDaily.trans ?_
  by_cases hv : u = v
  · subst hv
    rfl
  · rw [if_neg hv, if_neg hv]

/-- The payment is carried out, or refused by the columns. -/
theorem serve_payment {held : List (Lock Key)} :
    (economy text).serve (payment u (db.nextStreak u)) (some ⟨db.now, [], held⟩) db =
      if db.takesPayment u then
        (.ok { pointsAwarded := db.nextReward u, newBalance := (db.rowPaid u).balance, dailyStreak := asI32 (db.nextStreak u) },
          db.afterPayment u)
      else (.error (.database .database), db) := by
  unfold payment
  by_cases htakes : db.takesPayment u = true
  · have hpay : (economy text).exec (.payDaily u (db.nextReward u) (asI32 (db.nextStreak u))) db.now db =
        .ok ((), [.payDaily u (db.nextReward u) (asI32 (db.nextStreak u)) db.now]) := if_pos htakes
    have huser : db.userExists u = true := (Bool.and_eq_true_iff.1 htakes).1
    have hentry : (economy text).exec (.writeLedger u (db.nextReward u) .dailyCheckin (.checkin (db.nextStreak u))) db.now
        ((Write.payDaily u (db.nextReward u) (asI32 (db.nextStreak u)) db.now).exec db) = .ok ((), [_]) := if_pos huser
    have hbalance : (economy text).exec (.balanceOf u) db.now (db.afterPayment u) = .ok (some (db.rowPaid u).balance, []) := by
      change Except.ok (((db.afterPayment u).userBalances.find u).map (·.balance), []) = _
      rw [find_afterPayment, if_pos rfl]
      rfl
    rw [if_pos htakes]
    refine (Database.serve_stmt hpay).trans ((Database.serve_stmt hentry).trans ((Database.serve_stmt hbalance).trans ?_))
    rfl
  · rw [if_neg htakes]
    exact Database.serve_refused (if_neg htakes)

/-- A check-in once it has read the row. -/
def guarded (caller : UserId) (lastClaim : Option Timestamp) (streak : Int) : EconomyM DailyCheckinResponse := do
  let now ← clockIf lastClaim
  require (!(lastClaim.any fun last => Duration.numHours (now - last) < dailyClaimCooldownHours))
    "Already claimed today — come back tomorrow."
  let now' ← clockIf lastClaim
  payment caller (nextStreak now' lastClaim streak)

theorem claimDailyCheckin_eq : claimDailyCheckin u =
    .ask .begin fun _ => .ask (.stmt (.lockClaim u)) fun existing =>
      guarded u (existing.getD (none, 0)).1 (existing.getD (none, 0)).2 := rfl

theorem guarded_some {last : Timestamp} {streak : Int} : guarded u (some last) streak =
    .ask (.stmt .readClock) fun now =>
      Script.ensure (!decide (Duration.numHours (now - last) < dailyClaimCooldownHours)) alreadyClaimed >>= fun _ =>
        .ask (.stmt .readClock) fun now' => payment u (nextStreak now' (some last) streak) := rfl

/-- Both clocks read the same instant. -/
theorem serve_guarded {held : List (Lock Key)} :
    (economy text).serve (guarded u (db.lastClaim u) (db.standing u).dailyStreak) (some ⟨db.now, [], held⟩) db =
      if db.cooledDown u then (economy text).serve (payment u (db.nextStreak u)) (some ⟨db.now, [], held⟩) db
      else (.error alreadyClaimed, db) := by
  unfold EconomyDb.nextStreak EconomyDb.cooledDown
  rcases db.lastClaim u with _ | last
  · rfl
  · have hclock : (economy text).exec .readClock db.now db = .ok (db.now, []) := rfl
    rw [guarded_some]
    refine (Database.serve_read hclock).trans ?_
    by_cases hcool : last + 20 * hour ≤ db.now
    · have hpasses : (!decide (Duration.numHours (db.now - last) < dailyClaimCooldownHours)) = true := by
        simpa using cooledDown_iff.2 hcool
      rw [hpasses, if_pos (by simpa using hcool)]
      exact Database.serve_read hclock
    · have hstops : (!decide (Duration.numHours (db.now - last) < dailyClaimCooldownHours)) = false := by
        simpa using mt cooledDown_iff.1 hcool
      rw [hstops, if_neg (by simpa using hcool)]
      rfl

/-- What a check-in comes to. -/
theorem checkIn_eq : checkIn text u db =
    if db.cooledDown u then
      if db.takesPayment u then
        (.ok { pointsAwarded := db.nextReward u, newBalance := (db.rowPaid u).balance, dailyStreak := asI32 (db.nextStreak u) },
          db.afterPayment u)
      else (.error (.database .database), db)
    else (.error alreadyClaimed, db) := by
  have hread : (((db.userBalances.find u).map fun b => (b.lastDailyClaim, b.dailyStreak)).getD (none, 0)) =
      (db.lastClaim u, (db.standing u).dailyStreak) := by
    unfold EconomyDb.lastClaim EconomyDb.standing
    cases db.userBalances.find u <;> rfl
  have hlock : (economy text).exec (.lockClaim u) db.now db =
      .ok ((db.userBalances.find u).map fun b => (b.lastDailyClaim, b.dailyStreak), []) := rfl
  unfold checkIn
  rw [claimDailyCheckin_eq, Database.serve_begin]
  refine (Database.serve_read hlock).trans ?_
  rw [hread]
  refine serve_guarded.trans ?_
  exact if_congr Iff.rfl serve_payment rfl

theorem bracketed_payment (streak : Int) : Database.Bracketed (payment u streak) true :=
  fun _ _ _ => ⟨rfl, trivial⟩

theorem bracketed_guarded (lastClaim : Option Timestamp) (streak : Int) : Database.Bracketed (guarded u lastClaim streak) true := by
  cases lastClaim with
  | none => exact bracketed_payment _
  | some last =>
    intro now
    change Database.Bracketed (Script.ensure (!decide (Duration.numHours (now - last) < dailyClaimCooldownHours)) _ >>= _) true
    cases !decide (Duration.numHours (now - last) < dailyClaimCooldownHours) with
    | false => exact trivial
    | true => exact fun now' => bracketed_payment _

theorem bracketed_claimDailyCheckin : Database.Bracketed (claimDailyCheckin u) false :=
  ⟨rfl, fun _ => bracketed_guarded _ _⟩

/-- What `checkIn` says is what a call comes to that no other one gets in the way of. -/
theorem checkIn_turns {I : Type} [DecidableEq I] {i : I} {σ : Served EconomyDb Key I} (h : Database.ToItself i σ) :
    Database.EndsWith (economy text) i (.start (claimDailyCheckin u)) σ (checkIn text u σ.db) :=
  Database.reaches_serve (claimDailyCheckin u) none [] false σ bracketed_claimDailyCheckin h

end CheckIn

/-! ## Runs of check-ins -/

/-- How many claims the chain has that the first of these ends: each comes less than 48 hours after the one before. -/
def chainLength : List Timestamp → Nat
  | [] => 0
  | [_] => 1
  | claimed :: last :: earlier => if claimed < last + 48 * hour then chainLength (last :: earlier) + 1 else 1

namespace EconomyDb

variable (db : EconomyDb) (u : UserId)

/-- When an account was paid, the last time first. -/
def claims : List Timestamp := ((db.checkins u).map (·.createdAt)).reverse

/-- The database when its clock shows another time. -/
def atTime (now : Timestamp) : EconomyDb := { db with now }

end EconomyDb

/-- A check-in at an instant. -/
def checkInAt (db : EconomyDb) (c : UserId × Timestamp) : EconomyDb := (checkIn text c.1 (db.atTime c.2)).2

/-- Nobody has been paid for checking in. -/
def Unclaimed (db : EconomyDb) : Prop := ∀ u, db.lastClaim u = none ∧ db.checkins u = []

/-- The row of an account knows its last claim and how long a chain it ends, and every claim was paid by its place in its
chain. -/
structure Streaks (db : EconomyDb) : Prop where
  last : ∀ u, db.lastClaim u = (db.claims u).head?
  streak : ∀ u, db.claims u ≠ [] → (db.standing u).dailyStreak = chainLength (db.claims u) ∧ chainLength (db.claims u) < 2147483648
  paid : ∀ u before t after, db.checkins u = before ++ t :: after →
    t.amount = 50 + min (10 * ((chainLength (t.createdAt :: (before.map (·.createdAt)).reverse) : Int) - 1)) 100

section Runs

variable {text} {db : EconomyDb} {u : UserId}

theorem chainLength_pos (claimed : Timestamp) (earlier : List Timestamp) : 0 < chainLength (claimed :: earlier) := by
  cases earlier with
  | nil => exact Nat.one_pos
  | cons last earlier =>
    unfold chainLength
    split <;> omega

theorem chainLength_cons_le (claimed : Timestamp) (earlier : List Timestamp) :
    chainLength (claimed :: earlier) ≤ chainLength earlier + 1 := by
  cases earlier with
  | nil => exact Nat.le_refl 1
  | cons last earlier =>
    rw [chainLength]
    split <;> omega

theorem streaks_unclaimed (h : Unclaimed db) : Streaks db := by
  have hclaims : ∀ u, db.claims u = [] := by
    intro u
    unfold EconomyDb.claims
    rw [(h u).2]
    rfl
  refine ⟨fun u => ?_, fun u hne => absurd (hclaims u) hne, fun u before t after hsplit => ?_⟩
  · rw [(h u).1, hclaims]
    rfl
  · rw [(h u).2] at hsplit
    exact absurd hsplit.symm (by simp)

theorem Streaks.lt (h : Streaks db) (u : UserId) : chainLength (db.claims u) < 2147483648 := by
  by_cases hclaims : db.claims u = []
  · rw [hclaims]
    exact Nat.two_pow_pos 31
  · exact (h.streak u hclaims).2

/-- The streak that is reckoned is the length of the chain. -/
theorem Streaks.nextStreak_eq (h : Streaks db) (u : UserId) : db.nextStreak u = chainLength (db.now :: db.claims u) := by
  unfold EconomyDb.nextStreak
  rw [h.last u]
  rcases hclaims : db.claims u with _ | ⟨last, earlier⟩
  · rfl
  · have hstreak := (h.streak u (by rw [hclaims]; simp)).1
    rw [hclaims] at hstreak
    have hgrace : Duration.numHours (db.now - last) < dailyStreakGraceHours ↔ db.now < last + 48 * hour := by
      rw [show dailyStreakGraceHours = ((48 : Nat) : Int) from rfl, numHours_lt (by decide)]
      exact ⟨Int.lt_add_of_sub_left_lt, Int.sub_left_lt_of_lt_add⟩
    change (if Duration.numHours (db.now - last) < dailyStreakGraceHours then max (db.standing u).dailyStreak 0 + 1 else 1) =
      ((if db.now < last + 48 * hour then chainLength (last :: earlier) + 1 else 1 : Nat) : Int)
    rw [if_congr hgrace rfl rfl, hstreak]
    split
    · omega
    · rfl

/-- A streak that the column takes is stored as it is. -/
theorem asI32_eq {n : Nat} (hlt : n ≤ 2147483648) (h : 0 ≤ asI32 n) : asI32 n = n := by
  unfold asI32 at *
  rw [Int.bmod_def] at *
  split at h <;> omega

theorem asI32_lt (n : Int) : asI32 n < 2147483648 := by
  unfold asI32
  rw [Int.bmod_def]
  split <;> omega

/-- What is paid by the place in the chain. -/
theorem dailyCheckinReward_chain {n : Nat} (hpos : 0 < n) : dailyCheckinReward n = 50 + min (10 * ((n : Int) - 1)) 100 := by
  unfold dailyCheckinReward dailyCheckinBasePoints dailyStreakStepPoints dailyStreakMaxBonus
  dsimp only
  rw [Int.max_eq_left (by omega), Int.mul_comm]

theorem checkins_afterPayment (v : UserId) :
    (db.afterPayment u).checkins v = db.checkins v ++ if u = v then [{
      userId := u, amount := db.nextReward u, reason := .dailyCheckin, metadata := .checkin (db.nextStreak u),
      createdAt := db.now }] else [] := by
  change (db.balanceTransactions ++ [_]).filter _ = _
  by_cases hv : u = v <;> simp [List.filter_append, hv, EconomyDb.checkins]

/-- A payment extends the chain, or begins one. -/
theorem Streaks.pay (h : Streaks db) (htakes : db.takesPayment u = true) : Streaks (db.afterPayment u) := by
  have hother : ∀ v, u ≠ v → (db.afterPayment u).checkins v = db.checkins v := by
    intro v hv
    rw [checkins_afterPayment, if_neg hv, List.append_nil]
  have hclaims : (db.afterPayment u).claims u = db.now :: db.claims u := by
    unfold EconomyDb.claims
    rw [checkins_afterPayment, if_pos rfl, List.map_append, List.reverse_append]
    rfl
  have hfind : ∀ v, (db.afterPayment u).userBalances.find v = if u = v then some (db.rowPaid u) else db.userBalances.find v :=
    find_afterPayment
  have hlt := h.lt u
  have hcolumn : asI32 (db.nextStreak u) = chainLength (db.now :: db.claims u) := by
    have hvalid : (db.rowPaid u).valid = true := (Bool.and_eq_true_iff.1 htakes).2
    have hnonneg : 0 ≤ asI32 (db.nextStreak u) := of_decide_eq_true (Bool.and_eq_true_iff.1 hvalid).2
    rw [h.nextStreak_eq] at hnonneg ⊢
    exact asI32_eq (by have := chainLength_cons_le db.now (db.claims u); omega) hnonneg
  have hshort : chainLength (db.now :: db.claims u) < 2147483648 := by
    have hlt := asI32_lt (db.nextStreak u)
    rw [hcolumn] at hlt
    omega
  refine ⟨fun v => ?_, fun v hne => ?_, fun v before t after hsplit => ?_⟩ <;> by_cases hv : u = v
  · subst hv
    rw [hclaims, EconomyDb.lastClaim, hfind, if_pos rfl]
    rfl
  · rw [EconomyDb.lastClaim, hfind, if_neg hv, EconomyDb.claims, hother v hv]
    exact h.last v
  · subst hv
    rw [hclaims, EconomyDb.standing, hfind, if_pos rfl]
    exact ⟨hcolumn, hshort⟩
  · have hsame : (db.afterPayment u).claims v = db.claims v := by rw [EconomyDb.claims, hother v hv, EconomyDb.claims]
    rw [hsame] at hne ⊢
    rw [EconomyDb.standing, hfind, if_neg hv]
    exact h.streak v hne
  · subst hv
    rw [checkins_afterPayment, if_pos rfl] at hsplit
    rcases List.eq_nil_or_concat after with rfl | ⟨after, last, rfl⟩
    · -- the payment just made
      obtain ⟨rfl, hnew⟩ := List.append_inj' hsplit rfl
      obtain rfl := List.singleton_inj.1 hnew
      change dailyCheckinReward (db.nextStreak u) = _
      rw [h.nextStreak_eq]
      exact dailyCheckinReward_chain (chainLength_pos _ _)
    · rw [List.concat_eq_append, ← List.cons_append, ← List.append_assoc] at hsplit
      exact h.paid u before t after (List.append_inj' hsplit rfl).1
  · rw [hother v hv] at hsplit
    exact h.paid v before t after hsplit

/-- The clock moves nothing. -/
theorem Streaks.atTime (h : Streaks db) (now : Timestamp) : Streaks (db.atTime now) := ⟨h.last, h.streak, h.paid⟩

theorem Streaks.checkInAt (h : Streaks db) (c : UserId × Timestamp) : Streaks (checkInAt text db c) := by
  unfold Gamification.checkInAt
  rw [checkIn_eq]
  have hthen := h.atTime c.2
  split
  · split
    · exact hthen.pay ‹_›
    · exact hthen
  · exact hthen

end Runs

/-! ## The preview and the claim -/

theorem canClaimDaily_eq (u : UserId) (db : EconomyDb) : (getBalance u db).canClaimDaily = db.cooledDown u := by
  change ((db.lastClaim u).map (· + dailyClaimCooldownHours * hour)).all _ = _
  unfold EconomyDb.cooledDown
  cases db.lastClaim u <;> rfl

theorem nextClaimPoints_eq (u : UserId) (db : EconomyDb) : (getBalance u db).nextClaimPoints = db.nextReward u := by
  change dailyCheckinReward (nextStreak db.now (db.lastClaim u) ((db.userBalances.find u).elim 0 (·.dailyStreak))) = _
  unfold EconomyDb.nextReward EconomyDb.nextStreak EconomyDb.standing
  cases db.userBalances.find u <;> rfl

/-- A day after the last claim of the longest streak that the column holds. -/
def longestStreak : EconomyDb :=
  { EconomyDb.empty (24 * hour) nobody with
    userBalances := ⟨[{ userId := ⟨1⟩, balance := 0, lifetimeEarned := 0, lastDailyClaim := some 0, dailyStreak := 2147483647 }], by decide⟩ }

end Genzh.Gamification
