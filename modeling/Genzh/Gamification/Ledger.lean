/-
The balance of an account is the sum of its ledger, whatever is earned, spent, granted and taken back at the same time.
Every handler writes both; one of them writes the entry where there is no row to write it against, when what is taken
back is the one amount whose absolute value is negative.
-/
import Genzh.Gamification.Refinement

namespace Genzh.Gamification

open Genzh.Lib Genzh.Domain Genzh.Infrastructure

/-- An account's row, or what it stands for where there is none. -/
def EconomyDb.standing (s : EconomyDb) (u : UserId) : UserBalance := (s.userBalances.find u).getD (.none u)

/-- What the ledger says of an account. -/
def EconomyDb.entries (s : EconomyDb) (u : UserId) : List Int :=
  (s.balanceTransactions.filter fun t => t.userId = u).map (·.amount)

/-- The balance of everybody is the sum of their entries, what they have ever earned is the sum of the credits among
them, and nobody has less than nothing. -/
structure Booked (s : EconomyDb) : Prop where
  balance : ∀ u, (s.standing u).balance = (s.entries u).sum
  lifetime : ∀ u, (s.standing u).lifetimeEarned = ((s.entries u).filter (0 < ·)).sum
  nonneg : ∀ u, 0 ≤ (s.standing u).balance

/-- An update of a balance finds a row. -/
def FindsRow (_ : Log) (x : Executed EconomyDb Timestamp Statement) : Prop :=
  (match x.stmt with
  | .adjust u _ => x.view.userBalances.contains u
  | _ => true) = true

instance (log : Log) (x : Executed EconomyDb Timestamp Statement) : Decidable (FindsRow log x) := instDecidableEqBool _ _

theorem booked_empty (now : Timestamp) (users : Table User) : Booked (.empty now users) :=
  ⟨fun _ => rfl, fun _ => rfl, fun _ => Int.le_refl 0⟩

/-! ## What moves a balance -/

section Moves

variable {s s' : EconomyDb} {u : UserId} {amount : Int}

/-- Points move: the balance and the ledger by as much. -/
theorem Booked.moves (h : Booked s) (hbalance : ∀ v, (s'.standing v).balance = (s.standing v).balance + if u = v then amount else 0)
    (hlifetime : ∀ v, (s'.standing v).lifetimeEarned = (s.standing v).lifetimeEarned + if u = v then max amount 0 else 0)
    (hentries : ∀ v, s'.entries v = s.entries v ++ if u = v then [amount] else [])
    (henough : 0 ≤ (s.standing u).balance + amount) : Booked s' := by
  refine ⟨fun v => ?_, fun v => ?_, fun v => ?_⟩ <;> by_cases hv : u = v
  · rw [hbalance, hentries, if_pos hv, if_pos hv, List.sum_append, h.balance, List.sum_singleton]
  · rw [hbalance, hentries, if_neg hv, if_neg hv, List.append_nil, h.balance, Int.add_zero]
  · rw [hlifetime, hentries, if_pos hv, if_pos hv, List.filter_append, List.sum_append, h.lifetime]
    by_cases hpos : 0 < amount
    · simp [hpos, Int.max_eq_left hpos.le]
    · simp [hpos, Int.max_eq_right (not_lt.1 hpos)]
  · rw [hlifetime, hentries, if_neg hv, if_neg hv, List.append_nil, h.lifetime, Int.add_zero]
  · subst hv
    rw [hbalance, if_pos rfl]
    exact henough
  · rw [hbalance, if_neg hv, Int.add_zero]
    exact h.nonneg v

/-- What leaves the balances and the ledger alone. -/
theorem Booked.congr (h : Booked s) (hbalances : s'.userBalances = s.userBalances)
    (hledger : s'.balanceTransactions = s.balanceTransactions) : Booked s' := by
  have hstanding : s'.standing = s.standing := by
    funext v
    unfold EconomyDb.standing
    rw [hbalances]
  have hentries : s'.entries = s.entries := by
    funext v
    unfold EconomyDb.entries
    rw [hledger]
  exact ⟨fun v => by rw [hstanding, hentries, h.balance], fun v => by rw [hstanding, hentries, h.lifetime],
    fun v => by rw [hstanding]; exact h.nonneg v⟩

theorem standing_credit {v : UserId} : ((Write.credit u amount).exec s).standing v =
    if u = v then (s.standing v).credit amount else s.standing v := by
  unfold EconomyDb.standing
  rw [find_credit]
  split <;> rfl

theorem standing_payDaily {reward streak : Int} {claimed : Timestamp} {v : UserId} :
    ((Write.payDaily u reward streak claimed).exec s).standing v =
      if u = v then (s.standing v).payDaily reward streak claimed else s.standing v := by
  unfold EconomyDb.standing
  rw [find_payDaily]
  split <;> rfl

theorem standing_adjust {b : UserBalance} (hb : s.userBalances.find u = some b) {v : UserId} :
    ((Write.adjust u amount).exec s).standing v = if u = v then (s.standing v).adjust amount else s.standing v := by
  unfold EconomyDb.standing
  rw [find_adjust]
  split
  · rename_i hv
    subst hv
    rw [hb]
    rfl
  · rfl

/-- An entry of the ledger is one of its account's. -/
theorem entries_append (t : BalanceTransaction) (ts : List BalanceTransaction) (v : UserId) :
    ((ts ++ [t]).filter fun t => t.userId = v).map (·.amount) =
      (ts.filter fun t => t.userId = v).map (·.amount) ++ if t.userId = v then [t.amount] else [] := by
  rw [List.filter_append, List.map_append]
  by_cases hv : t.userId = v <;> simp [hv]

theorem Booked.credit (h : Booked s) {text : Casing} {reason : Reason} {metadata : Metadata} {start : Timestamp} (hpos : 0 < amount) :
    Booked ((economy text).apply (creditWrites u amount reason metadata start) s) := by
  refine @Booked.moves s _ u amount h (fun v => ?_) (fun v => ?_) (fun v => entries_append _ _ v) ?_
  · refine (congrArg UserBalance.balance standing_credit).trans ?_
    by_cases hv : u = v <;> simp [hv, UserBalance.credit]
  · refine (congrArg UserBalance.lifetimeEarned standing_credit).trans ?_
    rw [Int.max_eq_left hpos.le]
    by_cases hv : u = v <;> simp [hv, UserBalance.credit]
  · have := h.nonneg u
    omega

theorem Booked.payDaily (h : Booked s) {text : Casing} {streak column : Int} {start : Timestamp} (hpos : 0 < amount) :
    Booked ((economy text).apply [.payDaily u amount column start,
      .ledger { userId := u, amount, reason := .dailyCheckin, metadata := .checkin streak, createdAt := start }] s) := by
  refine @Booked.moves s _ u amount h (fun v => ?_) (fun v => ?_) (fun v => entries_append _ _ v) ?_
  · refine (congrArg UserBalance.balance standing_payDaily).trans ?_
    by_cases hv : u = v <;> simp [hv, UserBalance.payDaily, UserBalance.credit]
  · refine (congrArg UserBalance.lifetimeEarned standing_payDaily).trans ?_
    rw [Int.max_eq_left hpos.le]
    by_cases hv : u = v <;> simp [hv, UserBalance.payDaily, UserBalance.credit]
  · have := h.nonneg u
    omega

/-- Points are taken from a row that has them. -/
theorem Booked.debit (h : Booked s) {text : Casing} {reason : Reason} {metadata : Metadata} {start : Timestamp} {b : UserBalance}
    (hb : s.userBalances.find u = some b) (hneg : amount < 0) (henough : 0 ≤ b.balance + amount) :
    Booked ((economy text).apply [.adjust u amount, .ledger { userId := u, amount, reason, metadata, createdAt := start }] s) := by
  refine @Booked.moves s _ u amount h (fun v => ?_) (fun v => ?_) (fun v => entries_append _ _ v) ?_
  · refine (congrArg UserBalance.balance (standing_adjust hb)).trans ?_
    by_cases hv : u = v <;> simp [hv, UserBalance.adjust]
  · refine (congrArg UserBalance.lifetimeEarned (standing_adjust hb)).trans ?_
    rw [Int.max_eq_right hneg.le]
    by_cases hv : u = v <;> simp [hv, UserBalance.adjust]
  · unfold EconomyDb.standing
    rw [hb]
    exact henough

end Moves

/-! ## What is committed -/

variable {text : Casing} {s : EconomyDb} {log : Log} {ws : List Write}

theorem Booked.refer (h : Booked s) {code : String} {referrer referee : UserId} {invites : Int} {start : Timestamp} :
    Booked ((economy text).apply (referralWrites code referrer referee start ++ milestoneWrites referrer invites start) s) := by
  have hreward : 0 < referralRewardPoints := by decide
  have hpaid : Booked ((economy text).apply (referralWrites code referrer referee start) s) := by
    unfold referralWrites
    rw [Database.apply_cons, Database.apply_append]
    have hrefer : ∀ r, Booked ((Write.refer r).exec s) := fun r => h.congr rfl rfl
    exact ((hrefer _).credit hreward).credit hreward
  rw [Database.apply_append]
  unfold milestoneWrites
  split
  · rename_i rung hrung
    have hbonus : 0 < rung.bonusPoints := by
      have := List.find?_some hrung
      simp only [Bool.and_eq_true, decide_eq_true_eq] at this
      exact this.2
    exact hpaid.credit hbonus
  · exact hpaid

theorem Booked.purchase (h : Booked s) {u : UserId} {i : StoreItem} {start : Timestamp}
    (hbalance : 0 < i.pricePoints → ∃ b, s.userBalances.find u = some b ∧ i.pricePoints ≤ b.balance) :
    Booked ((economy text).apply (purchaseWrites u i start) s) := by
  unfold purchaseWrites
  rw [Database.apply_append]
  have hcharge : Booked ((economy text).apply (chargeWrites u i start) s) := by
    unfold chargeWrites
    split
    · rename_i hprice
      obtain ⟨b, hb, hle⟩ := hbalance hprice
      exact h.debit hb (Int.neg_neg_of_pos hprice) (by omega)
    · exact h
  exact hcharge.congr rfl rfl

/-- Whatever is committed keeps the books, but for an entry without a row. -/
theorem Booked.commit (h : Booked s) (hclean : Discipline.Clean FindsRow log) (hcommits : Commits log s ws) :
    Booked ((economy text).apply ws s) := by
  cases hcommits with
  | checkIn u streak start v v' mid reward column hpos => exact h.payDaily hpos
  | refer code referrer referee start hne hnew => exact h.refer
  | grant admin u amount note start hpos => exact h.credit hpos
  | debit admin u amount note start b hneg hb henough => exact h.debit hb hneg henough
  | stray admin u amount note start v hneg hlog hnone =>
    obtain ⟨_, _, hrow⟩ := hclean.mem _ hlog
    have hrow : v.userBalances.contains u = true := hrow
    rw [Table.contains_eq_false.2 hnone] at hrow
    cases hrow
  | purchase u i start v rest hlog hi howns hstock hbalance => exact h.purchase hbalance
  | dress u ws hdresses =>
    obtain ⟨worn, hworn⟩ := apply_dress text s hdresses
    rw [hworn]
    exact h.congr rfl rfl
  | give | addItem | editItem | dropItem => exact h.congr rfl rfl

/-- In every run in which no update of a balance finds no row, the books are kept, and a request that fails in the end
has changed nothing. -/
theorem books_balance {I : Type} [DecidableEq I] (text : Casing) (requests : I → Request) (s : EconomyDb) (hvalid : Valid s)
    (hbooked : Booked s) (es : List (Event I (Outside I Elsewhere)))
    (hes : Along (step text) (Discipline.Heeds (economy text) FindsRow) (start text s requests) es) :
    Always (step text) (fun σ => Booked σ.store.db) (start text s requests) es ∧
    ∀ before i after, es = before ++ .turn i :: after → ((run (step text) (start text s requests) es).calls i).Failed →
      (run (step text) (start text s requests) (before ++ [.turn i])).store.db =
        (run (step text) (start text s requests) before).store.db := by
  have hsound : (discipline text).Sound (start text s requests) := sound_start hvalid
  constructor
  · exact hsound.always (J := Booked) tolerates_elsewhere (fun log held ws s _ hclean hacts h => h.commit hclean hacts.2)
      (fun a s _ h => by cases a <;> exact h.congr rfl rfl) (fun _ => trivial) hbooked hes
  · exact fun before i after hes hfail => hsound.unchanged tolerates_elsewhere hes hfail

/-! ## An entry without a row -/

def nobody : Table User := ⟨[{ id := ⟨1⟩, handle := "nobody", email := "nobody@example.org", isActive := true }], by decide⟩

/-- Texts that are compared as they are. -/
def asWritten : Casing := ⟨id, id, id⟩

theorem books_balance_of_checkin_and_grants :
    let requests : Fin 3 → Request := ![.adminGrantPoints ⟨2⟩ ⟨1⟩ 100 none, .claimDailyCheckin ⟨1⟩, .adminGrantPoints ⟨2⟩ ⟨1⟩ (-120) none]
    let es : List (Event (Fin 3) (Outside (Fin 3) Elsewhere)) :=
      [.turn 0, .turn 1, .turn 0, .turn 1, .turn 0, .turn 1, .turn 0, .turn 0, .turn 1, .turn 1, .turn 1, .turn 1, .turn 2, .turn 2,
        .turn 2, .turn 2, .turn 2, .turn 2]
    Always (step asWritten) (fun σ => Booked σ.store.db) (start asWritten (.empty 0 nobody) requests) es ∧
    ∀ before i after, es = before ++ .turn i :: after →
      ((run (step asWritten) (start asWritten (.empty 0 nobody) requests) es).calls i).Failed →
      (run (step asWritten) (start asWritten (.empty 0 nobody) requests) (before ++ [.turn i])).store.db =
        (run (step asWritten) (start asWritten (.empty 0 nobody) requests) before).store.db :=
  books_balance asWritten _ (.empty 0 nobody) (valid_empty 0 nobody) (booked_empty 0 nobody) _ (by decide)

/-- The least 64-bit number passes for a small debit, and an account without a row for one that has enough. -/
theorem debit_without_row :
    let requests : Unit → Request := fun _ => .adminGrantPoints ⟨2⟩ ⟨1⟩ Int64.minValue none
    Valid (.empty 0 nobody) ∧ Booked (.empty 0 nobody) ∧
    ¬ Booked (run (step asWritten) (start asWritten (.empty 0 nobody) requests) (List.replicate 6 (.turn ()))).store.db := by
  refine ⟨valid_empty 0 nobody, booked_empty 0 nobody, fun h => ?_⟩
  have hbalance := h.balance ⟨1⟩
  revert hbalance
  decide

end Genzh.Gamification
