/-
Where the handlers ask what. The console edits the catalog and gives items away before any transaction, by statements
that stand by themselves, and nothing but a deletion deletes; everything else is written inside of one. After it, the
handlers only read.
-/
import Genzh.Gamification.Refinement
import Genzh.Lib.Phases

namespace Genzh.Gamification

open Genzh.Lib Genzh.Domain Genzh.Infrastructure

/-- The place of a statement in a request. -/
def Placed (request : Request) (ph : Phase) : Statement → Prop
  | .deleteItem x => ph = .before ∧ request = .adminDeleteStoreItem x
  | .updateItem .. | .insertItem _ | .grantInventory .. => ph = .before
  | .insertReferral _ | .credit .. | .writeLedger .. | .payDaily .. | .adjust .. | .insertInventory .. => ph = .inside
  | .wearRow _ | .wornType .. | .setSlot .. => ph = .inside
  | _ => True

variable {text : Casing} {request : Request} {ph : Phase}

theorem obeys_credit {β : Type} {u : UserId} {amount : Int} {reason : Reason} {metadata : Metadata} {k : Unit → EconomyM β}
    (h : Obeys (Placed request) (k ()) .inside) : Obeys (Placed request) (credit u amount reason metadata >>= k) .inside :=
  .stmt rfl fun _ => .stmt rfl fun _ => h

theorem obeys_claimReferral (caller : UserId) (payload : String) : Obeys (Placed request) (claimReferral text caller payload) .before := by
  dsimp only [claimReferral]
  refine .ensure (.stmt trivial fun _ => .found fun referrer => .ensure (.begin (.stmt trivial fun _ => .ensure ?_)))
  refine .stmt rfl fun _ => obeys_credit (obeys_credit (.stmt trivial fun n => ?_))
  cases rungAt n with
  | none => exact .stmt trivial fun _ => .commit trivial
  | some rung => exact obeys_credit (.stmt trivial fun _ => .commit trivial)

theorem obeys_claimDailyCheckin (caller : UserId) : Obeys (Placed request) (claimDailyCheckin caller) .before := by
  unfold claimDailyCheckin
  refine .begin (.stmt trivial fun existing => ?_)
  have hpay : ∀ streak, Obeys (Placed request) (do
      ask (.payDaily caller (dailyCheckinReward streak) (asI32 streak))
      writeLedger caller (dailyCheckinReward streak) .dailyCheckin (.checkin streak)
      let newBalance ← balanceOf caller
      commitTx
      pure { pointsAwarded := dailyCheckinReward streak, newBalance, dailyStreak := asI32 streak : DailyCheckinResponse }) .inside :=
    fun streak => .stmt rfl fun _ => .stmt rfl fun _ => .stmt trivial fun _ => .commit trivial
  rcases existing.getD (none, 0) with ⟨_ | last, streak⟩
  · exact .ensure (hpay _)
  · exact .stmt trivial fun now => .ensure (.stmt trivial fun now' => hpay _)

theorem obeys_purchaseStoreItem (caller : UserId) (itemId : StoreItemId) :
    Obeys (Placed request) (purchaseStoreItem caller itemId) .before := by
  unfold purchaseStoreItem
  refine .begin (.stmt trivial fun _ => .found fun item => .stmt trivial fun _ => .ensure ?_)
  have hbuy : Obeys (Placed request) (do
      let balance := (← ask (.lockBalance caller)).getD 0
      require (!(balance < item.pricePoints)) s!"Not enough points — {item.name} costs {item.pricePoints}, you have {balance}."
      if 0 < item.pricePoints then
        ask (.adjust caller (-item.pricePoints))
        writeLedger caller (-item.pricePoints) .storePurchase (.purchase item.id item.sku item.name)
      let acquiredAt ← ask (.insertInventory caller itemId item.pricePoints)
      commitTx
      return { userId := caller, item, paidPoints := item.pricePoints, source := .purchase, acquiredAt, equipped := false
        : UserInventoryItem }) .inside := by
    refine .stmt trivial fun balance => .ensure ?_
    by_cases hprice : 0 < item.pricePoints
    · simp only [if_pos hprice]
      exact .stmt rfl fun _ => .stmt rfl fun _ => .stmt rfl fun _ => .commit trivial
    · simp only [if_neg hprice]
      exact .stmt rfl fun _ => .commit trivial
  rcases item.stockLimit with _ | limit
  · exact hbuy
  · exact .stmt trivial fun sold => .ensure hbuy

theorem obeys_equipSlots {caller : UserId} {changes : List (ItemType × Option (Option StoreItemId))} {k : Unit → EconomyM EquippedCosmetics}
    (h : Obeys (Placed request) (k ()) .inside) : Obeys (Placed request) (Script.forEach changes (equipSlot caller) >>= k) .inside := by
  induction changes with
  | nil => exact h
  | cons change changes ih =>
    rw [Script.forEach_cons, bind_assoc]
    obtain ⟨slot, _ | _ | itemId⟩ := change
    · exact ih
    · exact .stmt rfl fun _ => ih
    · refine .stmt rfl fun r => ?_
      rcases r with _ | itemType
      · trivial
      · -- the guard first, then the slot
        change Obeys (Placed request) ((Script.ensure (decide (itemType = slot)) _ >>= fun _ => ask (.setSlot caller slot (some itemId))) >>=
          fun _ => Script.forEach changes (equipSlot caller) >>= k) .inside
        rw [bind_assoc]
        exact .ensure (show Obeys (Placed request) (ask _ >>= _) .inside from ⟨rfl, fun _ => ih⟩)

theorem obeys_loadEquipped {u : UserId} : Obeys (Placed request) (loadEquipped u) ph := by
  unfold loadEquipped
  refine .stmt trivial fun r => ?_
  rcases r with _ | row
  · trivial
  · by_cases hids : (ItemType.all.filterMap row.slots).isEmpty = true
    · simp only [hids, if_true]
      trivial
    · simp only [hids, Bool.false_eq_true, if_false]
      exact .stmt trivial fun _ => trivial

theorem obeys_adminGrantPoints (admin userId : UserId) (amount : Int64) (note : Option String) :
    Obeys (Placed request) (adminGrantPoints admin userId amount note) .before := by
  unfold adminGrantPoints
  refine .ensure (.ensure (.begin ?_))
  by_cases hpos : 0 < amount
  · simp only [if_pos hpos]
    exact obeys_credit (.stmt trivial fun _ => .commit trivial)
  · simp only [if_neg hpos]
    exact .stmt trivial fun _ => .ensure (.stmt rfl fun _ => .stmt rfl fun _ => .stmt trivial fun _ => .commit trivial)

/-- Every request asks what it asks in its place. -/
theorem obeys_script (request : Request) : Obeys (Placed request) (request.script text) .before := by
  cases request with
  | claimReferral caller code => exact (obeys_claimReferral caller code).map
  | claimDailyCheckin caller => exact (obeys_claimDailyCheckin caller).map
  | purchaseStoreItem caller itemId => exact (obeys_purchaseStoreItem caller itemId).map
  | equipCosmetics caller payload =>
    refine Obeys.map (.begin (.stmt rfl fun _ => obeys_equipSlots (.commit obeys_loadEquipped)))
  | adminCreateStoreItem admin id input =>
    simp only [Request.script, adminCreateStoreItem]
    -- whatever the body is checked to be
    generalize input.item text admin id = given
    exact Obeys.map (.lift fun item => .stmt trivial fun _ => .ensure ⟨rfl, fun _ => trivial⟩)
  | adminUpdateStoreItem itemId input =>
    exact Obeys.map (.stmt trivial fun _ => .found fun existing => .lift fun edit => ⟨rfl, fun _ => trivial⟩)
  | adminDeleteStoreItem itemId =>
    exact Obeys.map (.stmt trivial fun _ => .found fun item => .stmt trivial fun _ => .ensure ⟨⟨rfl, rfl⟩, fun _ => trivial⟩)
  | adminGrantPoints admin userId amount note => exact (obeys_adminGrantPoints admin userId amount note).map
  | adminGrantItem itemId userId => exact Obeys.map (.stmt trivial fun _ => .ensure ⟨rfl, fun _ => trivial⟩)

/-! ## What the places mean -/

variable {q : Statement} {start : Timestamp} {s : EconomyDb} {r : q.Answer} {ws : List Write}

/-- After its transaction a call writes nothing. -/
theorem writes_after (h : Placed request .after q) (hx : (economy text).exec q start s = .ok (r, ws)) : ws = [] := by
  cases q with
  | deleteItem x => cases h.1
  | updateItem | insertItem | grantInventory | insertReferral | credit | writeLedger | payDaily | adjust | insertInventory | wearRow
  | wornType | setSlot => cases h
  | _ =>
    cases hx
    rfl

/-- Inside of it, it leaves the catalog alone. -/
theorem items_inside (h : Placed request .inside q) (hx : (economy text).exec q start s = .ok (r, ws)) (s' : EconomyDb) :
    ((economy text).apply ws s').storeItems = s'.storeItems := by
  cases q with
  | deleteItem x => cases h.1
  | updateItem | insertItem | grantInventory => cases h
  | insertReferral | credit | writeLedger | payDaily | insertInventory | setSlot =>
    obtain ⟨-, -, rfl⟩ := checked_ok hx
    rfl
  | adjust u amount =>
    rcases hfind : s.userBalances.find u with _ | b
    · obtain rfl := adjust_none hfind hx
      rfl
    · obtain ⟨-, rfl⟩ := adjust_ok hfind hx
      rfl
  | wearRow u =>
    change (if s.userEquippedItems.contains u then _ else checked _ _ _) = Except.ok (r, ws) at hx
    split at hx
    · cases hx
      rfl
    · obtain ⟨-, -, rfl⟩ := checked_ok hx
      rfl
  | _ =>
    cases hx
    rfl

end Genzh.Gamification
