/-
Every handler is safe: whatever the others commit between its statements, it commits nothing but what is in the list
of `Commits`, and once it has committed it does not fail. One lemma for each handler; what its statements found, its
locks keep until the commit.
-/
import Genzh.Gamification.Discipline
import Genzh.Gamification.Handlers

namespace Genzh.Gamification

open Genzh.Lib Genzh.Domain Genzh.Infrastructure

variable {text : Casing} {s : EconomyDb} {log : Log}

theorem checked_ok {α : Type} {ok : Bool} {a r : α} {ws ws' : List Write} (h : checked ok a ws = .ok (r, ws')) :
    ok = true ∧ a = r ∧ ws = ws' := by
  unfold checked at h
  split at h
  · rename_i hok
    cases h
    exact ⟨hok, rfl, rfl⟩
  · cases h

theorem price_nonneg {price : Int} {stockLimit : Option Int} (h : validItem price stockLimit = true) : 0 ≤ price := by
  unfold validItem at h
  exact of_decide_eq_true (Bool.and_eq_true_iff.1 h).1

/-- An update of a balance that is there. -/
theorem adjust_ok {u : UserId} {amount : Int} {start : Timestamp} {b : UserBalance} {r : Unit} {ws : List Write}
    (hb : s.userBalances.find u = some b) (h : (economy text).exec (.adjust u amount) start s = .ok (r, ws)) :
    (b.adjust amount).valid = true ∧ ws = [.adjust u amount] := by
  simp only [economy, Statement.exec, hb] at h
  obtain ⟨hvalid, -, rfl⟩ := checked_ok h
  exact ⟨hvalid, rfl⟩

/-- An update of a balance that is not there changes nothing. -/
theorem adjust_none {u : UserId} {amount : Int} {start : Timestamp} {r : Unit} {ws : List Write}
    (hb : s.userBalances.find u = none) (h : (economy text).exec (.adjust u amount) start s = .ok (r, ws)) : ws = [] := by
  simp only [economy, Statement.exec, hb] at h
  cases h
  rfl

/-! ## What the locks keep -/

section Kept

variable {held : List (Lock Key)} {s' : EconomyDb} {u : UserId} {x : StoreItemId}

theorem kept_balance (h : (discipline text).Rely held s s') (hk : .exclusive (.balance u) ∈ held) :
    s'.userBalances.find u = s.userBalances.find u :=
  And.left (h.kept (.exclusive (.balance u)) hk)

theorem kept_invites (h : (discipline text).Rely held s s') (hk : .exclusive (.balance u) ∈ held) : s'.invites u = s.invites u :=
  And.right (h.kept (.exclusive (.balance u)) hk)

theorem kept_item (h : (discipline text).Rely held s s') (hk : .exclusive (.item x) ∈ held) :
    s'.storeItems.find x = s.storeItems.find x :=
  And.left (h.kept (.exclusive (.item x)) hk)

theorem kept_holdings (h : (discipline text).Rely held s s') (hk : .exclusive (.item x) ∈ held) : s'.holdings x = s.holdings x :=
  And.right (h.kept (.exclusive (.item x)) hk)

theorem kept_present (h : (discipline text).Rely held s s') (hk : .shared (.item x) ∈ held)
    (hx : s.storeItems.contains x = true) : s'.storeItems.contains x = true :=
  h.kept (.shared (.item x)) hk hx

theorem kept_referee (h : (discipline text).Rely held s s') (hk : .exclusive (.referee u) ∈ held) :
    s'.referrals.find u = s.referrals.find u :=
  h.kept (.exclusive (.referee u)) hk

end Kept

section InTransaction

variable {t : Txn Timestamp Write Key}

/-- A credit and its entry. -/
theorem safe_credit {β : Type} {u : UserId} {amount : Int} {reason : Reason} {metadata : Metadata} {k : Unit → EconomyM β}
    (h : ∀ s' log', (discipline text).Rely t.held s s' → (discipline text).Safe (k ())
      (some ⟨t.start, t.writes ++ creditWrites u amount reason metadata t.start, .exclusive (.balance u) :: t.held⟩) log' false s') :
    (discipline text).Safe (credit u amount reason metadata >>= k) (some t) log false s := by
  intro s₁ h₁ r ws hx
  obtain ⟨-, rfl, rfl⟩ := checked_ok hx
  intro s₂ h₂ r ws hx
  obtain ⟨-, rfl, rfl⟩ := checked_ok hx
  have hrely := h₁.trans (h₂.mono fun n hn => List.mem_cons_of_mem _ hn)
  have hwrites : t.writes ++ [Write.credit u amount] ++
      [.ledger { userId := u, amount, reason, metadata, createdAt := t.start }] = t.writes ++ creditWrites u amount reason metadata t.start := by
    rw [List.append_assoc]
    rfl
  have hnext := fun log' => h s₂ log' hrely
  rw [← hwrites] at hnext
  exact hnext _

/-- The end of a transaction: the balance is read once more, and everything is committed. -/
theorem safe_finish {β : Type} {u : UserId} {f : Int → β}
    (h : ∀ s' x, (discipline text).Rely t.held s s' → Covered t.held t.writes s' ∧ Commits (x :: log) s' t.writes) :
    (discipline text).Safe (balanceOf u >>= fun b => commitTx >>= fun _ => pure (f b)) (some t) log false s := by
  intro s₁ h₁ r ws hx
  cases hx
  intro s₂ h₂
  simp only [List.append_nil]
  exact ⟨.inr (h s₂ _ (h₁.trans h₂)), trivial⟩

end InTransaction

/-! ## Referrals -/

theorem covered_referral {code : String} {referrer referee : UserId} {invites : Int} {start : Timestamp} {held : List (Lock Key)}
    (hreferee : .exclusive (.referee referee) ∈ held) (hwelcome : .exclusive (.balance referee) ∈ held)
    (hinvite : .exclusive (.balance referrer) ∈ held) :
    Covered held (referralWrites code referrer referee start ++ milestoneWrites referrer invites start) s := by
  unfold milestoneWrites
  split <;> simp [Covered, referralWrites, creditWrites, Write.needs, Write.Fits, hreferee, hwelcome, hinvite]

theorem safe_claimReferral (caller : UserId) (payload : String) :
    (discipline text).Safe (claimReferral text caller payload) none [] false s := by
  dsimp only [claimReferral]
  refine .ensure rfl fun _ => .read (fun _ => rfl) fun s₁ _ _ _ => .found rfl fun referrer _ => .ensure rfl fun hne => ?_
  have hne : referrer ≠ caller := of_decide_eq_true hne
  refine .begin fun s₂ _ => .readIn (fun _ => rfl) (fun _ => rfl) fun s₃ _ _ _ => .ensure rfl fun _ => ?_
  refine .stmtIn fun s₄ r ws _ hx => ?_
  obtain ⟨hok, rfl, rfl⟩ := checked_ok hx
  have hnew : s₄.referrals.find caller = none := by
    simp only [Bool.and_eq_true, Bool.not_eq_true'] at hok
    exact Table.contains_eq_false.1 hok.1.2
  refine safe_credit fun s₅ log₅ h₅ => safe_credit fun s₆ log₆ h₆ => .readIn (fun _ => rfl) (fun _ => rfl) fun s₇ n h₇ hn => ?_
  -- nobody else refers the caller, or anybody by the same referrer, until the commit
  have hnew₇ : s₇.referrals.find caller = none := by
    rw [kept_referee h₇ (by simp [economy, Statement.locks]), kept_referee h₆ (by simp [economy, Statement.locks]),
      kept_referee h₅ (by simp [economy, Statement.locks]), hnew]
  have hn : n = s₇.invites referrer + 1 := by
    rw [hn]
    exact congrArg Nat.cast ((invites_refer (Table.contains_eq_false.2 hnew₇) referrer).trans (by rw [if_pos rfl]))
  have hcommits : ∀ s' log', (discipline text).Rely [.exclusive (.referee caller), .exclusive (.balance referrer)] s₇ s' →
      Commits log' s' (referralWrites (normalizeReferralCode text.toUppercase payload) referrer caller ((economy text).now s₂) ++
        milestoneWrites referrer n ((economy text).now s₂)) := by
    intro s' log' h'
    rw [hn, ← kept_invites h' (by simp)]
    exact .refer _ _ _ _ (Ne.symm hne) ((kept_referee h' (by simp)).trans hnew₇)
  have hcovered : ∀ s' held, .exclusive (.referee caller) ∈ held → .exclusive (.balance caller) ∈ held →
      .exclusive (.balance referrer) ∈ held → Covered held
        (referralWrites (normalizeReferralCode text.toUppercase payload) referrer caller ((economy text).now s₂) ++
          milestoneWrites referrer n ((economy text).now s₂)) s' := fun s' held => covered_referral
  unfold milestoneWrites at hcommits hcovered
  cases hrung : rungAt n with
  | none =>
    simp only [hrung] at hcommits hcovered
    refine safe_finish fun s₈ x h₈ => ⟨hcovered s₈ _ ?_ ?_ ?_, hcommits s₈ _ (h₈.mono ?_)⟩ <;> simp [economy, Statement.locks]
  | some rung =>
    simp only [hrung] at hcommits hcovered
    refine safe_credit fun s₈ log₈ h₈ => safe_finish fun s₉ x h₉ =>
      ⟨hcovered s₉ _ ?_ ?_ ?_, hcommits s₉ _ ((h₈.mono ?_).trans (h₉.mono ?_))⟩ <;> simp [economy, Statement.locks]

/-! ## The daily check-in -/

/-- The payment of a check-in, once the guard has let it pass: `hguard` is what the payment finds of the claim that
was read. -/
theorem safe_pay {caller : UserId} {streak : Int} {start : Timestamp} {mid : Log} {held : List (Lock Key)} {v : EconomyDb}
    (hlock : ⟨.lockClaim caller, start, v⟩ ∈ mid)
    (hguard : ∀ v', (discipline text).Rely held s v' → v.userBalances.contains caller = true →
      v'.lastClaim caller = v.lastClaim caller ∧ ∀ last, v.lastClaim caller = some last →
        ∃ w mid', (⟨.readClock, start, w⟩ :: mid') <:+ mid ∧ ⟨.lockClaim caller, start, v⟩ ∈ mid' ∧ last + 20 * hour ≤ w.now) :
    (discipline text).Safe (do
      ask (.payDaily caller (dailyCheckinReward streak) (asI32 streak))
      writeLedger caller (dailyCheckinReward streak) .dailyCheckin (.checkin streak)
      let newBalance ← balanceOf caller
      commitTx
      pure { pointsAwarded := dailyCheckinReward streak, newBalance, dailyStreak := asI32 streak : DailyCheckinResponse })
      (some ⟨start, [], held⟩) mid false s := by
  refine .stmtIn fun v' r ws hv' hx => ?_
  obtain ⟨-, rfl, rfl⟩ := checked_ok hx
  refine .stmtIn fun s₁ r ws h₁ hx => ?_
  obtain ⟨-, rfl, rfl⟩ := checked_ok hx
  refine safe_finish fun s₂ x h₂ => ⟨by simp [Covered, Write.needs, Write.Fits, economy, Statement.locks], ?_⟩
  have hsame : s₂.lastClaim caller = v'.lastClaim caller := by
    unfold EconomyDb.lastClaim
    rw [kept_balance h₂ (by simp [economy, Statement.locks]), kept_balance h₁ (by simp [economy, Statement.locks])]
  exact .checkIn caller streak start v v' mid _ _ (dailyCheckinReward_pos streak) ⟨[_, _], rfl⟩ hlock hsame (hguard v' hv')

theorem safe_claimDailyCheckin (caller : UserId) : (discipline text).Safe (claimDailyCheckin caller) none [] false s := by
  unfold claimDailyCheckin
  refine .begin fun s₁ _ => .stmtIn fun v r ws _ hx => ?_
  obtain ⟨hr, rfl⟩ : (v.userBalances.find caller).map (fun b => (b.lastDailyClaim, b.dailyStreak)) = r ∧ [] = ws := by
    cases hx
    exact ⟨rfl, rfl⟩
  rcases hfind : v.userBalances.find caller with _ | b
  · -- nothing is locked where there is no row
    have hnone : v.userBalances.contains caller = false := Table.contains_eq_false.2 hfind
    rw [hfind] at hr
    subst hr
    exact safe_pay List.mem_cons_self fun v' _ hrow => absurd (hnone.symm.trans hrow) Bool.false_ne_true
  · have hrow : v.userBalances.contains caller = true := Table.contains_iff.2 ⟨b, hfind⟩
    have hlocks : (economy text).locks (.lockClaim caller) v = [.exclusive (.balance caller)] := if_pos hrow
    have hclaim : v.lastClaim caller = b.lastDailyClaim := by
      unfold EconomyDb.lastClaim
      rw [hfind]
      rfl
    have hkept : ∀ {s' s'' : EconomyDb}, (discipline text).Rely [.exclusive (.balance caller)] s' s'' → s''.lastClaim caller = s'.lastClaim caller := by
      intro s' s'' h
      unfold EconomyDb.lastClaim
      rw [kept_balance h (List.mem_singleton_self _)]
    rw [hfind] at hr
    subst hr
    change (discipline text).Safe _ (some ⟨_, [], (economy text).locks (.lockClaim caller) v ++ []⟩) _ _ _
    rw [hlocks]
    obtain ⟨_, _, _, lastClaim, streak⟩ := b
    rcases lastClaim with _ | last
    · refine safe_pay List.mem_cons_self fun v' h' _ => ⟨hkept h', fun last h => ?_⟩
      cases hclaim.symm.trans h
    · refine .readIn (fun _ => rfl) (fun _ => rfl) fun w now hw hnow => .ensure rfl fun hcool => ?_
      refine .readIn (fun _ => rfl) (fun _ => rfl) fun w' now' hw' _ => ?_
      have hcool : last + 20 * hour ≤ w.now := by
        rw [hnow] at hcool
        exact cooledDown_iff.1 (of_decide_eq_false (Bool.not_eq_true' _ ▸ hcool))
      refine safe_pay (.tail _ (.tail _ List.mem_cons_self)) fun v' h' _ => ⟨?_, fun last' h => ?_⟩
      · rw [hkept h', hkept hw', hkept hw]
        rfl
      · cases hclaim.symm.trans h
        exact ⟨w, _, ⟨[_], rfl⟩, List.mem_cons_self, hcool⟩

/-! ## Purchases -/

theorem owns_eq_any {u : UserId} {x : StoreItemId} : s.owns u x = (s.holdings x).any fun r => r.userId = u := by
  rw [Bool.eq_iff_iff]
  unfold EconomyDb.owns EconomyDb.holdings
  rw [Table.contains_iff, List.any_eq_true]
  constructor
  · rintro ⟨r, hr⟩
    obtain ⟨hmem, hkey⟩ := Table.find_eq_some.1 hr
    cases hkey
    exact ⟨r, Table.mem_select.2 ⟨hmem, decide_eq_true rfl⟩, decide_eq_true rfl⟩
  · rintro ⟨r, hr, hu⟩
    obtain ⟨hmem, hx⟩ := Table.mem_select.1 hr
    refine ⟨r, Table.find_eq_some.2 ⟨hmem, ?_⟩⟩
    rw [← of_decide_eq_true hu, ← of_decide_eq_true hx]
    rfl

theorem covered_purchase {u : UserId} {i : StoreItem} {start : Timestamp} {held : List (Lock Key)}
    (hitem : .shared (.item i.id) ∈ held) (hbalance : 0 < i.pricePoints → .exclusive (.balance u) ∈ held)
    (hx : s.storeItems.contains i.id = true) : Covered held (purchaseWrites u i start) s := by
  unfold purchaseWrites chargeWrites
  split
  · rename_i hprice
    refine ⟨by simpa [Write.needs] using hbalance hprice, trivial, by simp [Write.needs], trivial, ?_, hx, trivial⟩
    simpa [Write.needs] using hitem
  · exact ⟨by simpa [Write.needs] using hitem, hx, trivial⟩

/-- The last statement of a purchase, once the item is paid for. -/
theorem safe_own {caller : UserId} {item : StoreItem} {start : Timestamp} {ws : List Write} {held : List (Lock Key)}
    (hws : ws = chargeWrites caller item start) (hheld : .exclusive (.item item.id) ∈ held)
    (hitem : s.storeItems.find item.id = some item)
    (hstock : ∀ limit, item.stockLimit = some limit → (s.holdings item.id).length < limit)
    (hbalance : 0 < item.pricePoints →
      .exclusive (.balance caller) ∈ held ∧ ∃ b, s.userBalances.find caller = some b ∧ item.pricePoints ≤ b.balance) :
    (discipline text).Safe (do
      let acquiredAt ← ask (.insertInventory caller item.id item.pricePoints)
      commitTx
      pure {
        userId := caller, item, paidPoints := item.pricePoints, source := .purchase, acquiredAt, equipped := false
        : UserInventoryItem })
      (some ⟨start, ws, held⟩) log false s := by
  subst hws
  refine .stmtIn fun s₁ r ws h₁ hx => ?_
  obtain ⟨hok, rfl, rfl⟩ := checked_ok hx
  have howns : s₁.owns caller item.id = false := by
    have hview : ((economy text).apply (chargeWrites caller item start) s₁).owns caller item.id = s₁.owns caller item.id := by
      unfold chargeWrites
      split <;> rfl
    simp only [Bool.and_eq_true, Bool.not_eq_true'] at hok
    exact hview.symm.trans hok.2
  intro s₂ h₂
  have hheld₂ : .exclusive (.item item.id) ∈ (economy text).locks (.insertInventory caller item.id item.pricePoints)
      ((economy text).apply (chargeWrites caller item start) s₁) ++ held := List.mem_append_right _ hheld
  have hitem₂ : s₂.storeItems.find item.id = some item := by
    rw [kept_item h₂ hheld₂, kept_item h₁ hheld, hitem]
  have hholdings : s₂.holdings item.id = s.holdings item.id := by
    rw [kept_holdings h₂ hheld₂, kept_holdings h₁ hheld]
  refine ⟨.inr ⟨covered_purchase List.mem_cons_self (fun hprice => List.mem_cons_of_mem _ (hbalance hprice).1)
    (Table.contains_iff.2 ⟨item, hitem₂⟩), .purchase caller item start _ _ rfl hitem₂ ?_ ?_ fun hprice => ?_⟩, trivial⟩
  · rw [owns_eq_any, kept_holdings h₂ hheld₂, ← owns_eq_any, howns]
  · rw [hholdings]
    exact hstock
  · obtain ⟨hlock, b, hb, hle⟩ := hbalance hprice
    exact ⟨b, by rw [kept_balance h₂ (List.mem_append_right _ hlock), kept_balance h₁ hlock, hb], hle⟩

/-- The payment of a purchase, once the item is locked and there is one left. -/
theorem safe_buy {caller : UserId} {item : StoreItem} {start : Timestamp} {held : List (Lock Key)} (hheld : .exclusive (.item item.id) ∈ held)
    (hitem : s.storeItems.find item.id = some item)
    (hstock : ∀ limit, item.stockLimit = some limit → (s.holdings item.id).length < limit) :
    (discipline text).Safe (do
      let balance := (← ask (.lockBalance caller)).getD 0
      require (!(balance < item.pricePoints)) s!"Not enough points — {item.name} costs {item.pricePoints}, you have {balance}."
      if 0 < item.pricePoints then
        ask (.adjust caller (-item.pricePoints))
        writeLedger caller (-item.pricePoints) .storePurchase (.purchase item.id item.sku item.name)
      let acquiredAt ← ask (.insertInventory caller item.id item.pricePoints)
      commitTx
      pure {
        userId := caller, item, paidPoints := item.pricePoints, source := .purchase, acquiredAt, equipped := false
        : UserInventoryItem })
      (some ⟨start, [], held⟩) log false s := by
  -- what the lock of the item keeps
  have hkept : ∀ {s' s'' held'}, (discipline text).Rely held' s' s'' → .exclusive (.item item.id) ∈ held' →
      s'.storeItems.find item.id = some item → (∀ limit, item.stockLimit = some limit → (s'.holdings item.id).length < limit) →
      s''.storeItems.find item.id = some item ∧ ∀ limit, item.stockLimit = some limit → (s''.holdings item.id).length < limit :=
    fun h hmem hi hs => ⟨(kept_item h hmem).trans hi, fun limit hlimit => by rw [kept_holdings h hmem]; exact hs limit hlimit⟩
  refine .stmtIn fun s₁ r ws h₁ hx => ?_
  obtain ⟨hr, rfl⟩ : (s₁.userBalances.find caller).map (·.balance) = r ∧ [] = ws := by
    cases hx
    exact ⟨rfl, rfl⟩
  obtain ⟨hitem₁, hstock₁⟩ := hkept h₁ hheld hitem hstock
  refine .ensure rfl fun henough => ?_
  have henough : item.pricePoints ≤ r.getD 0 := not_lt.1 (of_decide_eq_false (Bool.not_eq_true' _ ▸ henough))
  by_cases hprice : 0 < item.pricePoints
  · -- there is a row, and it is locked, for there is something on it
    obtain ⟨b, hb, rfl⟩ : ∃ b, s₁.userBalances.find caller = some b ∧ r = some b.balance := by
      rcases hfind : s₁.userBalances.find caller with _ | b
      · rw [hfind] at hr
        subst hr
        exact absurd hprice (not_lt.2 henough)
      · rw [hfind] at hr
        exact ⟨b, rfl, hr.symm⟩
    have hlocks : (economy text).locks (.lockBalance caller) s₁ = [.exclusive (.balance caller)] :=
      if_pos (Table.contains_iff.2 ⟨b, hb⟩)
    have hheld₁ : .exclusive (.item item.id) ∈ (economy text).locks (.lockBalance caller) s₁ ++ held := List.mem_append_right _ hheld
    have hbalance₁ : .exclusive (.balance caller) ∈ (economy text).locks (.lockBalance caller) s₁ ++ held := by simp [hlocks]
    simp only [if_pos hprice]
    refine .stmtIn fun s₂ r ws h₂ hx => ?_
    have hb₂ : s₂.userBalances.find caller = some b := (kept_balance h₂ hbalance₁).trans hb
    obtain ⟨-, rfl⟩ := adjust_ok hb₂ hx
    obtain ⟨hitem₂, hstock₂⟩ := hkept h₂ hheld₁ hitem₁ hstock₁
    refine .stmtIn fun s₃ r ws h₃ hx => ?_
    obtain ⟨-, rfl, rfl⟩ := checked_ok hx
    obtain ⟨hitem₃, hstock₃⟩ := hkept h₃ (List.mem_append_right _ hheld₁) hitem₂ hstock₂
    refine safe_own (if_pos hprice).symm (List.mem_append_right _ (List.mem_append_right _ hheld₁)) hitem₃ hstock₃ fun _ =>
      ⟨List.mem_append_right _ (List.mem_append_right _ hbalance₁), b, ?_, henough⟩
    rw [kept_balance h₃ (List.mem_append_right _ hbalance₁), hb₂]
  · simp only [if_neg hprice]
    exact safe_own (if_neg hprice).symm (List.mem_append_right _ hheld) hitem₁ hstock₁ fun h => absurd h hprice

theorem safe_purchaseStoreItem (caller : UserId) (itemId : StoreItemId) :
    (discipline text).Safe (purchaseStoreItem caller itemId) none [] false s := by
  unfold purchaseStoreItem
  refine .begin fun s₁ _ => .stmtIn fun s₂ r ws _ hx => ?_
  obtain ⟨hr, rfl⟩ : (s₂.storeItems.find itemId).filter (·.isActive) = r ∧ [] = ws := by
    cases hx
    exact ⟨rfl, rfl⟩
  refine .found rfl fun item hitem => ?_
  subst hitem
  obtain ⟨hfind, hactive⟩ := Option.filter_eq_some_iff.1 hr
  obtain rfl : item.id = itemId := Table.find_key hfind
  have hlocks : (economy text).locks (.lockItem item.id) s₂ = [.exclusive (.item item.id)] :=
    if_pos (by rw [hfind]; exact hactive)
  have hheld : .exclusive (.item item.id) ∈ (economy text).locks (.lockItem item.id) s₂ ++ [] := by simp [hlocks]
  refine .readIn (fun _ => rfl) (fun _ => rfl) fun s₃ _ h₃ _ => .ensure rfl fun _ => ?_
  have hitem₃ : s₃.storeItems.find item.id = some item := (kept_item h₃ hheld).trans hfind
  rcases hlimit : item.stockLimit with _ | limit
  · simp only []
    exact safe_buy hheld hitem₃ fun limit h => by rw [hlimit] at h; cases h
  · simp only []
    refine .readIn (fun _ => rfl) (fun _ => rfl) fun s₄ sold h₄ hsold => .ensure rfl fun hleft => ?_
    have hleft : sold < limit := not_le.1 (of_decide_eq_false (Bool.not_eq_true' _ ▸ hleft))
    refine safe_buy hheld ((kept_item h₄ hheld).trans hitem₃) fun limit' h => ?_
    obtain rfl : limit = limit' := Option.some.inj (hlimit.symm.trans h)
    rw [hsold] at hleft
    exact hleft

/-! ## Equips -/

/-- How far an equip has come: it holds the row it writes, and every item it has put on is still owned. -/
structure Dressing (u : UserId) (t : Txn Timestamp Write Key) (log : Log) (s : EconomyDb) : Prop where
  covered : ∀ w ∈ t.writes, .exclusive (.equipped u) ∈ t.held
  dresses : ∀ w ∈ t.writes, Dresses log s u w
  present : ∀ slot x now, .setSlot u slot (some x) now ∈ t.writes → .shared (.item x) ∈ t.held ∧ s.storeItems.contains x = true

section Dressing

variable {u : UserId} {t : Txn Timestamp Write Key} {s' : EconomyDb}

theorem Dressing.rely (h : Dressing u t log s) (hrely : (discipline text).Rely t.held s s') : Dressing u t log s' := by
  refine ⟨h.covered, fun w hw => ?_, fun slot x now hw => ?_⟩
  · cases h.dresses w hw with
    | row now => exact .row now
    | off slot now => exact .off slot now
    | on slot x now e he hstmt htype howns =>
      obtain ⟨hlock, hx⟩ := h.present slot x now hw
      exact .on slot x now e he hstmt htype (Grows.owns hrely.grown hrely.good howns (kept_present hrely hlock hx))
  · obtain ⟨hlock, hx⟩ := h.present slot x now hw
    exact ⟨hlock, kept_present hrely hlock hx⟩

theorem Dressing.logged (h : Dressing u t log s) (x : Executed EconomyDb Timestamp Statement) : Dressing u t (x :: log) s := by
  refine ⟨h.covered, fun w hw => ?_, h.present⟩
  cases h.dresses w hw with
  | row now => exact .row now
  | off slot now => exact .off slot now
  | on slot x' now e he hstmt htype howns => exact .on slot x' now e (List.mem_cons_of_mem _ he) hstmt htype howns

/-- One more write. -/
theorem Dressing.write (h : Dressing u t log s) {w : Write} {locks : List (Lock Key)} (hlock : .exclusive (.equipped u) ∈ locks)
    (hw : Dresses log s u w)
    (hpresent : ∀ slot x now, w = .setSlot u slot (some x) now → .shared (.item x) ∈ locks ∧ s.storeItems.contains x = true) :
    Dressing u ⟨t.start, t.writes ++ [w], locks ++ t.held⟩ log s := by
  refine ⟨fun w' hw' => List.mem_append_left _ hlock, fun w' hw' => ?_, fun slot x now hw' => ?_⟩
  · rcases List.mem_append.1 hw' with hw' | hw'
    · exact h.dresses w' hw'
    · rw [List.mem_singleton.1 hw']
      exact hw
  · rcases List.mem_append.1 hw' with hw' | hw'
    · obtain ⟨hlock, hx⟩ := h.present slot x now hw'
      exact ⟨List.mem_append_right _ hlock, hx⟩
    · obtain ⟨hlock, hx⟩ := hpresent slot x now (List.mem_singleton.1 hw').symm
      exact ⟨List.mem_append_left _ hlock, hx⟩

theorem Dressing.covers (h : Dressing u t log s) : Covered t.held t.writes s := by
  have : ∀ ws, (∀ w ∈ ws, .exclusive (.equipped u) ∈ t.held) → (∀ w ∈ ws, Dresses log s u w) → ∀ s', Covered t.held ws s' := by
    intro ws
    induction ws with
    | nil => exact fun _ _ _ => trivial
    | cons w ws ih =>
      intro hheld hdresses s'
      refine ⟨fun m hm => ?_, ?_, ih (fun w hw => hheld w (List.mem_cons_of_mem _ hw)) (fun w hw => hdresses w (List.mem_cons_of_mem _ hw)) _⟩
      · have hlock := hheld w List.mem_cons_self
        cases hdresses w List.mem_cons_self <;> rwa [List.mem_singleton.1 hm]
      · cases hdresses w List.mem_cons_self <;> trivial
  exact this t.writes h.covered h.dresses s

theorem owns_apply_dressing (h : Dressing u t log s) : ((economy text).apply t.writes s').owns = s'.owns ∧
    ((economy text).apply t.writes s').storeItems = s'.storeItems := by
  obtain ⟨worn, hworn⟩ := apply_dress text s' h.dresses
  rw [hworn]
  exact ⟨rfl, rfl⟩

theorem safe_equipSlot {change : ItemType × Option (Option StoreItemId)} {k : Unit → EconomyM EquippedCosmetics}
    (h : Dressing u t log s)
    (hk : ∀ t' log' s', Dressing u t' log' s' → (discipline text).Safe (k ()) (some t') log' false s') :
    (discipline text).Safe (equipSlot u change >>= k) (some t) log false s := by
  obtain ⟨slot, _ | _ | x⟩ := change
  · exact hk t log s h
  · refine .stmtIn fun s₁ r ws h₁ hx => ?_
    obtain rfl : ws = [.setSlot u slot none t.start] := by
      cases hx
      rfl
    exact hk _ _ _ (((h.rely h₁).logged _).write List.mem_cons_self (.off slot _) fun slot x now hw => by cases hw)
  · simp only [equipSlot, bind_assoc]
    refine .readIn (fun _ => rfl) (fun _ => rfl) fun s₁ r h₁ hr => .found rfl fun itemType htype => .ensure rfl fun hslot => ?_
    obtain rfl : itemType = slot := of_decide_eq_true hslot
    refine .stmtIn fun s₂ r' ws h₂ hx => ?_
    have hx : checked _ () _ = .ok (r', ws) := hx
    obtain ⟨hok, rfl, rfl⟩ := checked_ok hx
    have h₁' := h.rely h₁
    have h₂' := (h₁'.logged ⟨.wornType u x, t.start, (economy text).apply t.writes s₁⟩).rely h₂
    have hx₂ : s₂.storeItems.contains x = true := by
      rw [(owns_apply_dressing h₂').2] at hok
      exact hok
    -- the item was owned when its type was read, and is still there
    rw [htype] at hr
    obtain ⟨howns, hfind⟩ : s₁.owns u x = true ∧ (((economy text).apply t.writes s₁).storeItems.find x).map (·.itemType) = some itemType := by
      change some itemType = (if ((economy text).apply t.writes s₁).owns u x then _ else none) at hr
      rw [(owns_apply_dressing h₁').1] at hr
      split at hr
      · rename_i howns
        exact ⟨howns, hr.symm⟩
      · cases hr
    refine hk _ _ _ ((h₂'.logged _).write List.mem_cons_self
      (.on itemType x _ ⟨.wornType u x, t.start, (economy text).apply t.writes s₁⟩ (.tail _ List.mem_cons_self) rfl hfind
        (Grows.owns h₂.grown h₂.good howns hx₂)) fun slot y now hw => ?_)
    cases hw
    exact ⟨List.mem_cons_of_mem _ List.mem_cons_self, hx₂⟩

theorem safe_equipSlots {changes : List (ItemType × Option (Option StoreItemId))} {k : Unit → EconomyM EquippedCosmetics}
    (h : Dressing u t log s)
    (hk : ∀ t' log' s', Dressing u t' log' s' → (discipline text).Safe (k ()) (some t') log' false s') :
    (discipline text).Safe (Script.forEach changes (equipSlot u) >>= k) (some t) log false s := by
  induction changes generalizing t log s with
  | nil => exact hk t log s h
  | cons change changes ih =>
    rw [Script.forEach_cons, bind_assoc]
    exact safe_equipSlot h fun t' log' s' h' => ih h'

end Dressing

theorem safe_loadEquipped {u : UserId} {wrote : Bool} : (discipline text).Safe (loadEquipped u) none log wrote s := by
  unfold loadEquipped
  refine .read (fun _ => rfl) fun s₁ r _ _ => ?_
  rcases r with _ | row
  · trivial
  · by_cases hids : (ItemType.all.filterMap row.slots).isEmpty = true
    · simp only [hids, if_true]
      trivial
    · simp only [hids, Bool.false_eq_true, if_false]
      exact .read (fun _ => rfl) fun _ _ _ _ => trivial

theorem safe_equipCosmetics (caller : UserId) (payload : EquipCosmeticsRequest) :
    (discipline text).Safe (equipCosmetics caller payload) none [] false s := by
  unfold equipCosmetics
  refine .begin fun s₁ _ => .stmtIn fun s₂ r ws _ hx => ?_
  have hbegun : Dressing caller ⟨(economy text).now s₁, [] ++ ws, (economy text).locks (.wearRow caller) s₂ ++ []⟩
      [⟨.wearRow caller, (economy text).now s₁, s₂⟩] s₂ := by
    have hx : (if s₂.userEquippedItems.contains caller then .ok ((), []) else checked _ () _) = Except.ok (r, ws) := hx
    split at hx
    · cases hx
      exact ⟨fun _ h => (List.not_mem_nil h).elim, fun _ h => (List.not_mem_nil h).elim, fun _ _ _ h => (List.not_mem_nil h).elim⟩
    · rename_i hrow
      obtain ⟨-, -, rfl⟩ := checked_ok hx
      have hlocks : (economy text).locks (.wearRow caller) s₂ = [.exclusive (.equipped caller)] := if_neg hrow
      refine Dressing.write (t := ⟨_, [], []⟩) ⟨fun _ h => (List.not_mem_nil h).elim, fun _ h => (List.not_mem_nil h).elim,
        fun _ _ _ h => (List.not_mem_nil h).elim⟩ (by simp [hlocks]) (.row _) fun _ _ _ h => by cases h
  refine safe_equipSlots hbegun fun t log s h => ?_
  intro s' hrely
  have h' := h.rely hrely
  exact ⟨.inr ⟨h'.covers, .dress caller t.writes h'.dresses⟩, safe_loadEquipped⟩

/-! ## The console -/

/-- An item is created the same way whatever the body is checked to be. -/
theorem safe_createStoreItem (given : Except EconomyError StoreItem) :
    (discipline text).Safe (Response.item <$> (do
      let item ← Script.lift given
      let taken ← ask (.skuTaken item.sku)
      Script.ensure (!taken) (.conflict "store item sku")
      ask (.insertItem item))) none [] false s := by
  refine Discipline.Safe.map ?_
  refine .lift rfl fun item _ => .read (fun _ => rfl) fun s₁ _ _ _ => .ensure rfl fun _ => ?_
  refine fun s₂ _ => ⟨fun _ _ => rfl, fun r ws hx => ⟨.inr ?_, trivial⟩⟩
  obtain ⟨hok, rfl, rfl⟩ := checked_ok hx
  simp only [Bool.and_eq_true, Bool.not_eq_true'] at hok
  refine ⟨⟨fun m hm => hm, ?_, trivial⟩, .addItem _ hok.1.1.1.1 (price_nonneg hok.1.2)⟩
  have := hok.1.1.1.2
  intro hretired
  exact absurd (List.contains_iff_mem.2 hretired) (by rw [this]; decide)

theorem safe_adminUpdateStoreItem (itemId : StoreItemId) (input : StoreItemInput) :
    (discipline text).Safe (adminUpdateStoreItem itemId input) none [] false s := by
  unfold adminUpdateStoreItem
  refine .read (fun _ => rfl) fun s₁ _ _ _ => .found rfl fun existing _ => .lift rfl fun edit _ => ?_
  refine fun s₂ _ => ⟨fun _ _ => rfl, fun r ws hx => ⟨.inr ?_, trivial⟩⟩
  obtain ⟨hvalid, rfl⟩ : validItem edit.pricePoints edit.stockLimit = true ∧ ws = [.editItem itemId edit s₂.now] := by
    rcases hfind : s₂.storeItems.find itemId with _ | i
    · simp [economy, Statement.exec, hfind] at hx
    · simp only [economy, Statement.exec, hfind] at hx
      obtain ⟨hvalid, -, rfl⟩ := checked_ok hx
      exact ⟨hvalid, rfl⟩
  exact ⟨⟨fun m hm => hm, trivial, trivial⟩, .editItem itemId edit _ _ (price_nonneg hvalid) rfl⟩

theorem safe_adminDeleteStoreItem (itemId : StoreItemId) : (discipline text).Safe (adminDeleteStoreItem itemId) none [] false s := by
  unfold adminDeleteStoreItem
  refine .read (fun _ => rfl) fun s₁ _ _ _ => .found rfl fun item _ => .read (fun _ => rfl) fun s₂ _ _ _ => .ensure rfl fun _ => ?_
  refine fun s₃ _ => ⟨fun _ _ => rfl, fun r ws hx => ⟨?_, trivial⟩⟩
  have hws : ws = if s₃.storeItems.contains itemId then [.dropItem itemId] else [] := by
    cases hx
    rfl
  subst hws
  split
  · exact .inr ⟨⟨fun m hm => hm, trivial, trivial⟩, .dropItem itemId _ _ rfl⟩
  · exact .inl rfl

theorem safe_adminGrantItem (itemId : StoreItemId) (userId : UserId) :
    (discipline text).Safe (adminGrantItem itemId userId) none [] false s := by
  unfold adminGrantItem
  refine .read (fun _ => rfl) fun s₁ _ _ _ => .ensure rfl fun _ => ?_
  refine fun s₂ _ => ⟨fun _ _ => rfl, fun r ws hx => ⟨?_, trivial⟩⟩
  change (if s₂.owns userId itemId then _ else checked _ _ _) = Except.ok (r, ws) at hx
  split at hx
  · cases hx
    exact .inl rfl
  · rename_i howns
    obtain ⟨hok, -, rfl⟩ := checked_ok hx
    have howns := Bool.eq_false_iff.2 howns
    have hx₂ : s₂.storeItems.contains itemId = true := by
      simp only [Bool.and_eq_true] at hok
      exact hok.2
    have hlocks : (economy text).locks (.grantInventory userId itemId) s₂ = [.shared (.item itemId)] :=
      if_neg (Bool.eq_false_iff.1 howns)
    refine .inr ⟨⟨fun m hm => ?_, hx₂, trivial⟩, .give userId itemId _ _ rfl hx₂ howns⟩
    rw [hlocks]
    exact hm

theorem covered_ledger {held : List (Lock Key)} {e : BalanceTransaction} : Covered held [.ledger e] s :=
  ⟨fun _ hm => (List.not_mem_nil hm).elim, trivial, trivial⟩

theorem covered_debit {held : List (Lock Key)} {u : UserId} {amount : Int} {e : BalanceTransaction}
    (h : .exclusive (.balance u) ∈ held) : Covered held [.adjust u amount, .ledger e] s :=
  ⟨fun m hm => by rwa [List.mem_singleton.1 hm], trivial, covered_ledger⟩

theorem safe_adminGrantPoints (admin userId : UserId) (amount : Int64) (note : Option String) :
    (discipline text).Safe (adminGrantPoints admin userId amount note) none [] false s := by
  unfold adminGrantPoints
  refine .ensure rfl fun hzero => .ensure rfl fun _ => .begin fun s₁ _ => ?_
  by_cases hpos : 0 < amount
  · simp only [if_pos hpos]
    refine safe_credit fun s₂ log₂ h₂ => safe_finish fun s₃ x h₃ => ⟨?_, .grant admin userId amount.toInt note _ ?_⟩
    · simp [Covered, creditWrites, Write.needs, Write.Fits]
    · exact Int64.lt_iff_toInt_lt.1 hpos
  · have hneg : amount.toInt < 0 := by
      have hne : amount.toInt ≠ 0 := fun h => of_decide_eq_true hzero (Int64.toInt_inj.1 h)
      have hle : ¬ 0 < amount.toInt := fun h => hpos (Int64.lt_iff_toInt_lt.2 h)
      omega
    simp only [if_neg hpos]
    refine .stmtIn fun s₂ r ws _ hx => ?_
    obtain ⟨hr, rfl⟩ : (s₂.userBalances.find userId).map (·.balance) = r ∧ [] = ws := by
      cases hx
      exact ⟨rfl, rfl⟩
    refine .ensure rfl fun _ => .stmtIn fun s₃ r ws _ hx => ?_
    rcases hfind : s₃.userBalances.find userId with _ | b
    · -- the update finds no row, and the entry is written nevertheless
      obtain rfl := adjust_none hfind hx
      refine .stmtIn fun s₄ r ws h₄ hx => ?_
      obtain ⟨-, rfl, rfl⟩ := checked_ok hx
      refine safe_finish fun s₅ x h₅ => ⟨covered_ledger, ?_⟩
      exact .stray admin userId amount.toInt note _ s₃ hneg (.tail _ (.tail _ List.mem_cons_self)) hfind
    · obtain ⟨hvalid, rfl⟩ := adjust_ok hfind hx
      refine .stmtIn fun s₄ r ws h₄ hx => ?_
      obtain ⟨-, rfl, rfl⟩ := checked_ok hx
      have hlocks : (economy text).locks (.adjust userId amount.toInt) s₃ = [.exclusive (.balance userId)] :=
        if_pos (Table.contains_iff.2 ⟨b, hfind⟩)
      have hlock : ∀ held, .exclusive (.balance userId) ∈ (economy text).locks (.adjust userId amount.toInt) s₃ ++ held := fun held =>
        List.mem_append_left _ (hlocks ▸ List.mem_singleton_self _)
      refine safe_finish fun s₅ x h₅ => ⟨covered_debit (hlock _), .debit admin userId amount.toInt note _ b hneg ?_ ?_⟩
      · rw [kept_balance h₅ (hlock _), kept_balance h₄ (hlock _), hfind]
      · unfold UserBalance.valid holdsPoints at hvalid
        simp only [Bool.and_eq_true, decide_eq_true_eq] at hvalid
        exact hvalid.1.1.1

/-- Every request is safe. -/
theorem safe_script (request : Request) : (discipline text).Safe (request.script text) none [] false s := by
  cases request with
  | claimReferral caller code => exact (safe_claimReferral caller code).map
  | claimDailyCheckin caller => exact (safe_claimDailyCheckin caller).map
  | purchaseStoreItem caller itemId => exact (safe_purchaseStoreItem caller itemId).map
  | equipCosmetics caller payload => exact (safe_equipCosmetics caller payload).map
  | adminCreateStoreItem admin id input =>
    simp only [Request.script, adminCreateStoreItem]
    generalize input.item text admin id = given
    exact safe_createStoreItem given
  | adminUpdateStoreItem itemId input => exact (safe_adminUpdateStoreItem itemId input).map
  | adminDeleteStoreItem itemId => exact (safe_adminDeleteStoreItem itemId).map
  | adminGrantPoints admin userId amount note => exact (safe_adminGrantPoints admin userId amount note).map
  | adminGrantItem itemId userId => exact (safe_adminGrantItem itemId userId).map

/-! ## Runs -/

/-- What happens apart from the requests: time passes, accounts are made, and given their code to invite by. -/
inductive Elsewhere where
  | wait (elapsed : Nat)
  | register (user : User)
  | code (userId : UserId) (code : String)
  deriving DecidableEq

def elsewhere : Elsewhere → EconomyDb → EconomyDb
  | .wait elapsed, db => { db with now := db.now + elapsed }
  | .register user, db => { db with users := db.users.insert user }
  | .code userId code, db => { db with referralCodes := db.referralCodes.set userId code }

abbrev Requests (I : Type) :=
  System (Served EconomyDb Key I) I (Call EconomyDb Timestamp Write Key Statement.Answer EconomyError Response)

variable (text) {I : Type} [DecidableEq I]

/-- One event of the requests on the database. -/
def step : Requests I → Event I (Outside I Elsewhere) → Requests I := (economy text).step elsewhere

/-- Requests on a database, none of which has begun. -/
def start (s : EconomyDb) (requests : I → Request) : Requests I := Database.initial s fun i => (requests i).script text

variable {text}

theorem tolerates_elsewhere : (discipline text).Tolerates elsewhere := by
  intro a s held hvalid
  have hvalid : Valid s := hvalid
  cases a with
  | wait elapsed =>
    refine ⟨⟨hvalid.retired, hvalid.stocked⟩, fun n _ => Keeps.refl n s, ?_, fun _ h => h, fun _ h => .inl h, fun _ _ h => .inl h⟩
    exact Int.le_add_of_nonneg_right (Int.natCast_nonneg elapsed)
  | register user => exact ⟨⟨hvalid.retired, hvalid.stocked⟩, fun n _ => Keeps.refl n s, Int.le_refl _, fun _ h => h, fun _ h => .inl h,
      fun _ _ h => .inl h⟩
  | code userId code => exact ⟨⟨hvalid.retired, hvalid.stocked⟩, fun n _ => Keeps.refl n s, Int.le_refl _, fun _ h => h, fun _ h => .inl h,
      fun _ _ h => .inl h⟩

omit [DecidableEq I] in
theorem sound_start {requests : I → Request} (hvalid : Valid s) : (discipline text).Sound (start text s requests) :=
  Discipline.Sound.initial hvalid fun i => safe_script (requests i)

end Genzh.Gamification
