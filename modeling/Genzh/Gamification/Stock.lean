/-
A purchase is a sale at the price and within the limit that the item has when it is committed. The item is locked
before it is read, against edits and against the foreign key of every other ownership row, so that nobody comes to own
it, or changes it, until the buyer does.
-/
import Genzh.Gamification.Ledger

namespace Genzh.Gamification

open Genzh.Lib Genzh.Domain Genzh.Infrastructure

/-! ## Sales -/

/-- What the ledger says of purchases. -/
def EconomyDb.charges (s : EconomyDb) : List (UserId × Int × Metadata) :=
  (s.balanceTransactions.filter fun t => t.reason = .storePurchase).map fun t => (t.userId, t.amount, t.metadata)

/-- What the ledger says of the purchase of an item. -/
def chargeOf (u : UserId) (i : StoreItem) : List (UserId × Int × Metadata) :=
  if 0 < i.pricePoints then [(u, -i.pricePoints, .purchase i.id i.sku i.name)] else []

/-- One step: somebody who did not own an item owns it now, for its price, and no more own it than its limit says. -/
structure Sells (u : UserId) (i : StoreItem) (s s' : EconomyDb) : Prop where
  item : s'.storeItems.find i.id = some i
  new : s.owns u i.id = false
  within : ∀ limit, i.stockLimit = some limit → (s'.holdings i.id).length ≤ limit
  row : ∃ acquiredAt, s'.userInventory.rows = s.userInventory.rows ++
    [{ userId := u, itemId := i.id, paidPoints := i.pricePoints, source := .purchase, acquiredAt }]
  paid : (s'.standing u).balance = (s.standing u).balance - i.pricePoints
  charged : s'.charges = s.charges ++ chargeOf u i

/-- One step: an item is sold, or nothing is bought and nothing charged for. -/
def Trades (s s' : EconomyDb) : Prop :=
  (∃ u i, Sells u i s s') ∨ (∀ r ∈ s'.userInventory.rows, r.source = .purchase → r ∈ s.userInventory.rows) ∧ s'.charges = s.charges

/-- No item has a price below zero. -/
def Priced (s : EconomyDb) : Prop := ∀ i ∈ s.storeItems.rows, 0 ≤ i.pricePoints

theorem priced_empty (now : Timestamp) (users : Table User) : Priced (.empty now users) := fun _ hi => (List.not_mem_nil hi).elim

variable {text : Casing} {s s' : EconomyDb} {log : Log} {ws : List Write}

/-- What leaves the ownership rows and the ledger alone, is no trade. -/
theorem Trades.none (hinventory : ∀ r ∈ s'.userInventory.rows, r.source = .purchase → r ∈ s.userInventory.rows)
    (hcharges : s'.charges = s.charges) : Trades s s' := .inr ⟨hinventory, hcharges⟩

theorem Trades.refl (s : EconomyDb) : Trades s s := .none (fun _ hr _ => hr) rfl

theorem charges_append (s : EconomyDb) (t : BalanceTransaction) :
    { s with balanceTransactions := s.balanceTransactions ++ [t] : EconomyDb }.charges =
      s.charges ++ if t.reason = .storePurchase then [(t.userId, t.amount, t.metadata)] else [] := by
  unfold EconomyDb.charges
  rw [List.filter_append, List.map_append]
  by_cases ht : t.reason = .storePurchase <;> simp [ht]

/-- An entry for another reason charges for no purchase. -/
theorem Trades.entry (t : BalanceTransaction) (hreason : t.reason ≠ .storePurchase)
    (hledger : s'.balanceTransactions = s.balanceTransactions ++ [t]) (hinventory : s'.userInventory = s.userInventory) : Trades s s' := by
  refine .none (fun r hr _ => hinventory ▸ hr) ?_
  unfold EconomyDb.charges
  rw [hledger]
  simp [List.filter_append, hreason]

theorem trades_refer {code : String} {referrer referee : UserId} {invites : Int} {start : Timestamp} :
    Trades s ((economy text).apply (referralWrites code referrer referee start ++ milestoneWrites referrer invites start) s) := by
  unfold milestoneWrites
  split <;> exact .none (fun r hr _ => hr) (by simp [EconomyDb.charges, referralWrites, creditWrites, Write.exec, List.filter_append])

/-! ## A purchase -/

/-- What paying for an item does. -/
theorem standing_charge {u : UserId} {i : StoreItem} {start : Timestamp} (hprice : 0 ≤ i.pricePoints)
    (hbalance : 0 < i.pricePoints → ∃ b, s.userBalances.find u = some b ∧ i.pricePoints ≤ b.balance) :
    (((economy text).apply (chargeWrites u i start) s).standing u).balance = (s.standing u).balance - i.pricePoints := by
  unfold chargeWrites
  split
  · rename_i hpos
    obtain ⟨b, hb, -⟩ := hbalance hpos
    refine (congrArg UserBalance.balance (standing_adjust hb)).trans ?_
    rw [if_pos rfl]
    exact Int.add_neg_eq_sub
  · have hfree : i.pricePoints = 0 := by omega
    rw [hfree, Int.sub_zero]
    rfl

theorem charges_charge {u : UserId} {i : StoreItem} {start : Timestamp} :
    ((economy text).apply (chargeWrites u i start) s).charges = s.charges ++ chargeOf u i := by
  unfold chargeWrites chargeOf
  split
  · exact charges_append _ _
  · exact (List.append_nil _).symm

/-- A purchase that is committed is a sale. -/
theorem sells_purchase {u : UserId} {i : StoreItem} {start : Timestamp} (hprice : 0 ≤ i.pricePoints)
    (hi : s.storeItems.find i.id = some i) (howns : s.owns u i.id = false)
    (hstock : ∀ limit, i.stockLimit = some limit → (s.holdings i.id).length < limit)
    (hbalance : 0 < i.pricePoints → ∃ b, s.userBalances.find u = some b ∧ i.pricePoints ≤ b.balance) :
    Sells u i s ((economy text).apply (purchaseWrites u i start) s) := by
  have hrows : ((economy text).apply (purchaseWrites u i start) s).userInventory.rows = s.userInventory.rows ++
      [{ userId := u, itemId := i.id, paidPoints := i.pricePoints, source := .purchase, acquiredAt := start }] := by
    obtain ⟨_, _, hpurchase⟩ := apply_purchase text s u i start
    rw [hpurchase]
    exact Table.rows_insert howns
  refine ⟨?_, howns, fun limit hlimit => ?_, ⟨start, hrows⟩, ?_, ?_⟩
  · obtain ⟨_, _, hpurchase⟩ := apply_purchase text s u i start
    rw [hpurchase]
    exact hi
  · have hholdings : ((economy text).apply (purchaseWrites u i start) s).holdings i.id = s.holdings i.id ++
        [{ userId := u, itemId := i.id, paidPoints := i.pricePoints, source := .purchase, acquiredAt := start }] := by
      unfold EconomyDb.holdings Table.select
      rw [hrows, List.filter_append]
      simp
    have hbefore := hstock limit hlimit
    rw [hholdings, List.length_append, List.length_singleton]
    omega
  · unfold purchaseWrites
    rw [Database.apply_append]
    exact standing_charge hprice hbalance
  · unfold purchaseWrites
    rw [Database.apply_append]
    exact charges_charge

/-! ## What is committed -/

/-- Whatever is committed, sells an item or nothing. -/
theorem Commits.trades (h : Commits log s ws) (hpriced : Priced s) : Trades s ((economy text).apply ws s) := by
  cases h with
  | checkIn u streak start v v' mid reward column hpos => exact .entry _ (by nofun) rfl rfl
  | refer code referrer referee start hne hnew => exact trades_refer
  | grant admin u amount note start hpos => exact .entry _ (by nofun) rfl rfl
  | debit admin u amount note start b hneg hb henough => exact .entry _ (by nofun) rfl rfl
  | stray admin u amount note start v hneg hlog hnone => exact .entry _ (by nofun) rfl rfl
  | purchase u i start v rest hlog hi howns hstock hbalance =>
    exact .inl ⟨u, i, sells_purchase (hpriced i (Table.find_eq_some.1 hi).1) hi howns hstock hbalance⟩
  | dress u ws hdresses =>
    obtain ⟨worn, hworn⟩ := apply_dress text s hdresses
    rw [hworn]
    exact .none (fun r hr _ => hr) rfl
  | give u x now rest hlog hx howns =>
    refine .none (fun r hr hsource => ?_) rfl
    rcases Table.mem_insert.1 hr with hr | ⟨rfl, -⟩
    · exact hr
    · cases hsource
  | addItem i hnew hprice => exact .none (fun r hr _ => hr) rfl
  | editItem x e now rest hprice hlog => exact .none (fun r hr _ => hr) rfl
  | dropItem x start rest hlog => exact .none (fun r hr _ => (Table.mem_deleteWhere.1 hr).1) rfl

/-- No price falls below zero. -/
theorem Commits.priced (h : Commits log s ws) (hpriced : Priced s) : Priced ((economy text).apply ws s) := by
  cases h with
  | addItem i hnew hprice =>
    intro j hj
    rcases Table.mem_insert.1 hj with hj | ⟨rfl, -⟩
    · exact hpriced j hj
    · exact hprice
  | editItem x e now rest hprice hlog =>
    intro j hj
    rcases (Table.mem_update s.storeItems x (e.set now) fun _ => rfl).1 hj with ⟨i, hi, -, rfl⟩ | ⟨hj, -⟩
    · exact hprice
    · exact hpriced j hj
  | dropItem x start rest hlog => exact fun j hj => hpriced j (Table.mem_deleteWhere.1 hj).1
  | purchase u i start v rest hlog hi howns hstock hbalance =>
    obtain ⟨_, _, hpurchase⟩ := apply_purchase text s u i start
    rw [hpurchase]
    exact hpriced
  | refer code referrer referee start hne hnew =>
    obtain ⟨_, _, _, hrefer⟩ := apply_refer text s code referrer referee (s.invites referrer + 1) start
    rw [hrefer]
    exact hpriced
  | dress u ws hdresses =>
    obtain ⟨worn, hworn⟩ := apply_dress text s hdresses
    rw [hworn]
    exact hpriced
  | _ => exact hpriced

/-- In every run whatever is bought is sold at its price and within its limit, and nobody owns an item twice. -/
theorem sales_within_stock {I : Type} [DecidableEq I] (text : Casing) (requests : I → Request) (s : EconomyDb) (hvalid : Valid s)
    (hpriced : Priced s) (es : List (Event I (Outside I Elsewhere))) :
    Always (step text) (fun σ => (σ.store.db.userInventory.rows.map fun r => (r.userId, r.itemId)).Nodup) (start text s requests) es ∧
    Along (step text) (fun σ e => Trades σ.store.db (step text σ e).store.db) (start text s requests) es := by
  have hsound : (discipline text).Sound (start text s requests) := sound_start hvalid
  have hcommits : ∀ log held ws s, (discipline text).Good s → Discipline.Clean (fun _ _ => True) log → (discipline text).Acts log held ws s →
      Priced s → Priced ((economy text).apply ws s) ∧ Trades s ((economy text).apply ws s) :=
    fun log held ws s _ _ hacts h => ⟨hacts.2.priced h, hacts.2.trades h⟩
  have helsewhere : ∀ a s, (discipline text).Good s → Priced s → Priced (elsewhere a s) ∧ Trades s (elsewhere a s) := by
    intro a s _ h
    cases a <;> exact ⟨h, .none (fun r hr _ => hr) rfl⟩
  obtain ⟨halways, halong⟩ := hsound.always_along Trades tolerates_elsewhere hcommits helsewhere .refl
    (fun _ => Discipline.clean_true _) hpriced (Discipline.along_heeds _ es)
  exact ⟨halways.mono fun σ _ => σ.store.db.userInventory.nodup, halong⟩

/-- The last one of an item, bought while its price is raised. -/
theorem sales_within_stock_of_last :
    let lantern : StoreItemInput := {
      sku := some "lantern", name := some "Lantern", itemType := some "badge", pricePoints := some 40, stockLimit := some (some 1) }
    let requests : Fin 4 → Request := ![.adminCreateStoreItem ⟨1⟩ ⟨7⟩ lantern, .adminGrantPoints ⟨2⟩ ⟨1⟩ 100 none,
      .purchaseStoreItem ⟨1⟩ ⟨7⟩, .adminUpdateStoreItem ⟨7⟩ { pricePoints := some 60 }]
    let es : List (Event (Fin 4) (Outside (Fin 4) Elsewhere)) :=
      List.replicate 2 (.turn 0) ++ List.replicate 5 (.turn 1) ++ (List.replicate 12 [Event.turn 2, .turn 3]).flatten
    Always (step asWritten) (fun σ => (σ.store.db.userInventory.rows.map fun r => (r.userId, r.itemId)).Nodup)
      (start asWritten (.empty 0 nobody) requests) es ∧
    Along (step asWritten) (fun σ e => Trades σ.store.db (step asWritten σ e).store.db) (start asWritten (.empty 0 nobody) requests) es :=
  sales_within_stock asWritten _ (.empty 0 nobody) (valid_empty 0 nobody) (priced_empty 0 nobody) _

end Genzh.Gamification
