/-
What the locks of the economy are good for. Every write is covered by locks that the transaction holds until it ends
(`Write.needs`), so that the holder of a lock finds what it guards unchanged (`Keeps`): the row of a balance and the
number of its owner's invites; the row of an item and the ownership rows of it; that an item is still there; whether
somebody has been referred; what somebody wears. `Commits` is the list of what the handlers commit.
-/
import Genzh.Gamification.Store

namespace Genzh.Gamification

open Genzh.Lib Genzh.Domain Genzh.Infrastructure

abbrev Log := List (Executed EconomyDb Timestamp Statement)

/-! ## Locks and what they keep -/

/-- The locks without which a write is not committed. -/
def Write.needs : Write → EconomyDb → List (Lock Key)
  | credit u _, _ | payDaily u _ _ _, _ | adjust u _, _ => [.exclusive (.balance u)]
  | ledger _, _ => []
  | refer r, _ => [.exclusive (.referee r.refereeId), .exclusive (.balance r.referrerId)]
  | own r, _ => [.shared (.item r.itemId)]
  | addItem i, _ => [.exclusive (.item i.id)]
  | editItem x _ _, _ => [.shared (.item x)]
  | dropItem x, db => .exclusive (.item x) :: (db.wearers x).map fun u => .exclusive (.equipped u)
  | wearRow u _, _ | setSlot u _ _ _, _ => [.exclusive (.equipped u)]

/-- What the holder of a lock finds unchanged. -/
def Keeps (n : Lock Key) (s s' : EconomyDb) : Prop :=
  match n.key, n.mode with
  | .balance u, .exclusive => s'.userBalances.find u = s.userBalances.find u ∧ s'.invites u = s.invites u
  | .item x, .exclusive => s'.storeItems.find x = s.storeItems.find x ∧ s'.holdings x = s.holdings x
  | .item x, .shared => s.storeItems.contains x = true → s'.storeItems.contains x = true
  | .referee u, .exclusive => s'.referrals.find u = s.referrals.find u
  | .equipped u, .exclusive => s'.userEquippedItems.find u = s.userEquippedItems.find u
  | _, _ => True

theorem Keeps.refl (n : Lock Key) (s : EconomyDb) : Keeps n s s := by
  unfold Keeps
  split <;> simp

theorem Keeps.trans {n : Lock Key} {s s' s'' : EconomyDb} (h : Keeps n s s') (h' : Keeps n s' s'') : Keeps n s s'' := by
  obtain ⟨k, m⟩ := n
  cases k <;> cases m
  case balance.exclusive => exact ⟨h'.1.trans h.1, h'.2.trans h.2⟩
  case item.shared => exact fun hx => h' (h hx)
  case item.exclusive => exact ⟨h'.1.trans h.1, h'.2.trans h.2⟩
  case referee.exclusive => exact Eq.trans h' h
  case equipped.exclusive => exact Eq.trans h' h
  all_goals trivial

section Exec

variable {s : EconomyDb}

theorem find_credit {u u' : UserId} {amount : Int} : ((Write.credit u amount).exec s).userBalances.find u' =
    if u = u' then some (((s.userBalances.find u').getD (.none u')).credit amount) else s.userBalances.find u' := by
  refine (Table.find_upsert s.userBalances _ _ _ u').trans ?_
  by_cases hu : u = u'
  · subst hu
    rw [if_pos (show key ((UserBalance.none u).credit amount) = u from rfl), if_pos rfl]
    cases s.userBalances.find u <;> rfl
  · rw [if_neg (show ¬ key ((UserBalance.none u).credit amount) = u' from hu), if_neg hu]

theorem find_payDaily {u u' : UserId} {reward streak : Int} {claimed : Timestamp} :
    ((Write.payDaily u reward streak claimed).exec s).userBalances.find u' =
      if u = u' then some (((s.userBalances.find u').getD (.none u')).payDaily reward streak claimed)
      else s.userBalances.find u' := by
  refine (Table.find_upsert s.userBalances _ _ _ u').trans ?_
  by_cases hu : u = u'
  · subst hu
    rw [if_pos (show key ((UserBalance.none u).payDaily reward streak claimed) = u from rfl), if_pos rfl]
    cases s.userBalances.find u <;> rfl
  · rw [if_neg (show ¬ key ((UserBalance.none u).payDaily reward streak claimed) = u' from hu), if_neg hu]

theorem find_adjust {u u' : UserId} {amount : Int} : ((Write.adjust u amount).exec s).userBalances.find u' =
    if u = u' then (s.userBalances.find u').map (·.adjust amount) else s.userBalances.find u' :=
  Table.find_update s.userBalances u u' (·.adjust amount) fun _ => rfl

/-- A new referral is one invite more for who referred. -/
theorem invites_refer {r : Referral} (h : s.referrals.contains r.refereeId = false) (u : UserId) :
    ((Write.refer r).exec s).invites u = s.invites u + if r.referrerId = u then 1 else 0 := by
  refine (Table.count_insert s.referrals r _).trans ?_
  have hkey : s.referrals.contains (key r) = false := h
  simp [EconomyDb.invites, hkey]

theorem invites_refer_of_ne {r : Referral} {u : UserId} (h : r.referrerId ≠ u) :
    ((Write.refer r).exec s).invites u = s.invites u := by
  refine (Table.count_insert s.referrals r _).trans ?_
  simp [EconomyDb.invites, h]

theorem holdings_own_of_ne {r : InventoryItem} {x : StoreItemId} (h : r.itemId ≠ x) :
    ((Write.own r).exec s).holdings x = s.holdings x := by
  unfold EconomyDb.holdings Table.select
  change (s.userInventory.insert r).rows.filter _ = _
  unfold Table.insert
  split
  · rfl
  · simp [h]

theorem holdings_dropItem_of_ne {x y : StoreItemId} (h : x ≠ y) : ((Write.dropItem x).exec s).holdings y = s.holdings y := by
  unfold EconomyDb.holdings Table.select
  change (s.userInventory.rows.filter fun r => !decide (r.itemId = x)).filter _ = _
  rw [List.filter_filter]
  refine List.filter_congr fun r _ => ?_
  by_cases hr : r.itemId = y
  · simp [hr, Ne.symm h]
  · simp [hr]

theorem contains_addItem {i : StoreItem} {x : StoreItemId} :
    ((Write.addItem i).exec s).storeItems.contains x = (s.storeItems.contains x || decide (i.id = x)) :=
  Table.contains_insert s.storeItems i x

theorem find_editItem {x y : StoreItemId} {e : ItemEdit} {now : Timestamp} : ((Write.editItem x e now).exec s).storeItems.find y =
    if x = y then (s.storeItems.find y).map (e.set now) else s.storeItems.find y :=
  Table.find_update s.storeItems x y (e.set now) fun _ => rfl

theorem contains_editItem {x y : StoreItemId} {e : ItemEdit} {now : Timestamp} :
    ((Write.editItem x e now).exec s).storeItems.contains y = s.storeItems.contains y :=
  Table.contains_updateWhere s.storeItems _ (e.set now) (fun _ => rfl) y

theorem contains_dropItem {x y : StoreItemId} :
    ((Write.dropItem x).exec s).storeItems.contains y = (s.storeItems.contains y && decide (x ≠ y)) :=
  Table.contains_delete s.storeItems x y

theorem find_setSlot {u v : UserId} {slot : ItemType} {target : Option StoreItemId} {now : Timestamp} :
    ((Write.setSlot u slot target now).exec s).userEquippedItems.find v =
      if u = v then (s.userEquippedItems.find v).map (·.setSlot slot target now) else s.userEquippedItems.find v :=
  Table.find_update s.userEquippedItems u v (·.setSlot slot target now) fun _ => rfl

/-- Who does not wear an item, loses nothing with it. -/
theorem takeOff_of_not_worn {e : EquippedItems} {x : StoreItemId} (h : ∀ t, e.slots t ≠ some x) : e.takeOff x = e := by
  obtain ⟨u, slots, updatedAt⟩ := e
  unfold EquippedItems.takeOff
  congr 1
  funext t
  change (slots t).filter _ = slots t
  rcases ht : slots t with _ | y
  · rfl
  · have hne : y ≠ x := fun hy => h t (ht.trans (congrArg some hy))
    exact Option.filter_some_pos (decide_eq_true hne)

theorem find_equipped_dropItem {x : StoreItemId} {u : UserId} :
    ((Write.dropItem x).exec s).userEquippedItems.find u = (s.userEquippedItems.find u).map (·.takeOff x) := by
  refine (Table.find_updateWhere s.userEquippedItems (fun _ => true) (·.takeOff x) (fun _ => rfl) u).trans ?_
  simp

theorem mem_wearers {x : StoreItemId} {u : UserId} :
    u ∈ s.wearers x ↔ ∃ e, s.userEquippedItems.find u = some e ∧ ∃ t, e.slots t = some x := by
  unfold EconomyDb.wearers
  simp only [List.mem_map, Table.mem_select, List.any_eq_true, decide_eq_true_eq]
  constructor
  · rintro ⟨e, ⟨he, t, -, ht⟩, rfl⟩
    exact ⟨e, Table.mem_iff_find.1 he, t, ht⟩
  · rintro ⟨e, he, t, ht⟩
    exact ⟨e, ⟨(Table.find_eq_some.1 he).1, t, t.mem_all, ht⟩, Table.find_key he⟩

section Excluded

variable {w : Write} {x : StoreItemId} {u : UserId}

theorem keeps_balance (h : ∀ m ∈ w.needs s, m.Compatible (.exclusive (.balance u))) :
    Keeps (.exclusive (.balance u)) s (w.exec s) := by
  have hother : ∀ {v}, .exclusive (.balance v) ∈ w.needs s → v ≠ u := fun hv he => (h _ hv).ne (congrArg Key.balance he)
  cases w with
  | credit v amount => exact ⟨find_credit.trans (if_neg (hother (List.mem_singleton_self _))), rfl⟩
  | payDaily v reward streak claimed => exact ⟨find_payDaily.trans (if_neg (hother (List.mem_singleton_self _))), rfl⟩
  | adjust v amount => exact ⟨find_adjust.trans (if_neg (hother (List.mem_singleton_self _))), rfl⟩
  | refer r => exact ⟨rfl, invites_refer_of_ne (hother (List.mem_cons_of_mem _ (List.mem_singleton_self _)))⟩
  | _ => exact ⟨rfl, rfl⟩

/-- Whoever shares the lock of an item finds it still there: deleting it takes the lock for itself. -/
theorem keeps_item_shared (h : ∀ m ∈ w.needs s, m.Compatible (.shared (.item x))) : Keeps (.shared (.item x)) s (w.exec s) := by
  intro hx
  cases w with
  | addItem i => rw [contains_addItem, hx, Bool.true_or]
  | editItem y e now => rw [contains_editItem, hx]
  | dropItem y =>
    have hne : y ≠ x := fun hy => by
      have := (h _ List.mem_cons_self (congrArg Key.item hy)).1
      cases this
    rw [contains_dropItem, hx, decide_eq_true hne]
    rfl
  | _ => exact hx

theorem keeps_item (h : ∀ m ∈ w.needs s, m.Compatible (.exclusive (.item x))) : Keeps (.exclusive (.item x)) s (w.exec s) := by
  have hother : ∀ {y}, .exclusive (.item y) ∈ w.needs s → y ≠ x := fun hy he => (h _ hy).ne (congrArg Key.item he)
  cases w with
  | own r =>
    have hne : r.itemId ≠ x := fun hx => (h _ (List.mem_singleton_self _)).ne (congrArg Key.item hx)
    exact ⟨rfl, holdings_own_of_ne hne⟩
  | addItem i =>
    refine ⟨(Table.find_insert s.storeItems i x).trans ?_, rfl⟩
    rw [if_neg (show ¬ key i = x from hother (List.mem_singleton_self _)), Option.or_none]
  | editItem y e now =>
    have hne : y ≠ x := fun hx => (h _ (List.mem_singleton_self _)).ne (congrArg Key.item hx)
    exact ⟨find_editItem.trans (if_neg hne), rfl⟩
  | dropItem y =>
    have hne := hother List.mem_cons_self
    exact ⟨(Table.find_delete s.storeItems y x).trans (if_neg hne), holdings_dropItem_of_ne hne⟩
  | _ => exact ⟨rfl, rfl⟩

theorem keeps_referee (h : ∀ m ∈ w.needs s, m.Compatible (.exclusive (.referee u))) :
    Keeps (.exclusive (.referee u)) s (w.exec s) := by
  cases w with
  | refer r =>
    have hne : r.refereeId ≠ u := fun he => (h _ List.mem_cons_self).ne (congrArg Key.referee he)
    refine (Table.find_insert s.referrals r u).trans ?_
    rw [if_neg (show ¬ key r = u from hne), Option.or_none]
  | _ => exact rfl

/-- Deleting an item changes what its wearers wear, and takes the locks of all of them. -/
theorem keeps_equipped (h : ∀ m ∈ w.needs s, m.Compatible (.exclusive (.equipped u))) :
    Keeps (.exclusive (.equipped u)) s (w.exec s) := by
  have hother : ∀ {v}, .exclusive (.equipped v) ∈ w.needs s → v ≠ u := fun hv he => (h _ hv).ne (congrArg Key.equipped he)
  cases w with
  | wearRow v now =>
    refine (Table.find_insert s.userEquippedItems _ u).trans ?_
    rw [if_neg (show ¬ key (EquippedItems.mk v (fun _ => none) now) = u from hother (List.mem_singleton_self _)), Option.or_none]
  | setSlot v slot target now => exact find_setSlot.trans (if_neg (hother (List.mem_singleton_self _)))
  | dropItem x =>
    refine find_equipped_dropItem.trans ?_
    rcases hu : s.userEquippedItems.find u with _ | e
    · rfl
    · have hworn : u ∉ s.wearers x := fun hw => hother (List.mem_cons_of_mem _ (List.mem_map_of_mem hw)) rfl
      refine congrArg some (takeOff_of_not_worn fun t ht => hworn (mem_wearers.2 ⟨e, hu, t, ht⟩))
  | _ => exact rfl

end Excluded

/-- A write that a lock excludes leaves what it guards alone. -/
theorem keeps_exec (w : Write) {n : Lock Key} (h : ∀ m ∈ w.needs s, m.Compatible n) : Keeps n s (w.exec s) := by
  obtain ⟨k, m⟩ := n
  cases k <;> cases m
  case balance.exclusive => exact keeps_balance h
  case item.shared => exact keeps_item_shared h
  case item.exclusive => exact keeps_item h
  case referee.exclusive => exact keeps_referee h
  case equipped.exclusive => exact keeps_equipped h
  all_goals trivial

/-! ## What only grows, and what always holds -/

/-- Time passes; an item goes for good, and what is owned of it goes with it. -/
structure Grows (s s' : EconomyDb) : Prop where
  now : s.now ≤ s'.now
  retired : ∀ x ∈ s.retired, x ∈ s'.retired
  items : ∀ x, s.storeItems.contains x = true → s'.storeItems.contains x = true ∨ x ∈ s'.retired
  owned : ∀ u x, s.owns u x = true → s'.owns u x = true ∨ x ∈ s'.retired

theorem Grows.refl (s : EconomyDb) : Grows s s :=
  ⟨Int.le_refl _, fun _ h => h, fun _ h => .inl h, fun _ _ h => .inl h⟩

theorem Grows.trans {s s' s'' : EconomyDb} (h : Grows s s') (h' : Grows s' s'') : Grows s s'' where
  now := Int.le_trans h.now h'.now
  retired x hx := h'.retired x (h.retired x hx)
  items x hx := (h.items x hx).elim (h'.items x) fun hx => .inr (h'.retired x hx)
  owned u x hx := (h.owned u x hx).elim (h'.owned u x) fun hx => .inr (h'.retired x hx)

theorem owns_own {r : InventoryItem} {u : UserId} {x : StoreItemId} :
    ((Write.own r).exec s).owns u x = (s.owns u x || decide ((r.userId, r.itemId) = (u, x))) :=
  Table.contains_insert s.userInventory r (u, x)

theorem owns_dropItem_of_ne {u : UserId} {x y : StoreItemId} (h : x ≠ y) :
    ((Write.dropItem x).exec s).owns u y = s.owns u y := by
  unfold EconomyDb.owns Table.contains
  change ((s.userInventory.deleteWhere fun r => r.itemId = x).find (u, y)).isSome = _
  rw [Table.find_deleteWhere]
  rcases hf : s.userInventory.find (u, y) with _ | r
  · rfl
  · have hy : r.itemId = y := congrArg Prod.snd (Table.find_key hf)
    rw [Option.filter_some_pos (by simpa [hy] using Ne.symm h)]

theorem Grows.exec (w : Write) (s : EconomyDb) : Grows s (w.exec s) := by
  cases w with
  | own r => exact ⟨Int.le_refl _, fun _ h => h, fun _ h => .inl h, fun u x h => .inl (by rw [owns_own, h, Bool.true_or])⟩
  | addItem i =>
    exact ⟨Int.le_refl _, fun _ h => h, fun x h => .inl (by rw [contains_addItem, h, Bool.true_or]), fun _ _ h => .inl h⟩
  | editItem x e now =>
    exact ⟨Int.le_refl _, fun _ h => h, fun y h => .inl (contains_editItem.trans h), fun _ _ h => .inl h⟩
  | dropItem x =>
    refine ⟨Int.le_refl _, fun _ h => List.mem_cons_of_mem _ h, fun y h => ?_, fun u y h => ?_⟩ <;> by_cases hxy : x = y
    · exact .inr (hxy ▸ List.mem_cons_self)
    · exact .inl (by rw [contains_dropItem, h, decide_eq_true hxy]; rfl)
    · exact .inr (hxy ▸ List.mem_cons_self)
    · exact .inl ((owns_dropItem_of_ne hxy).trans h)
  | _ => exact ⟨Int.le_refl _, fun _ h => h, fun _ h => .inl h, fun _ _ h => .inl h⟩

/-- The foreign key of what is owned, and that a deleted item does not come back. -/
structure Valid (s : EconomyDb) : Prop where
  retired : ∀ x ∈ s.retired, s.storeItems.contains x = false
  stocked : ∀ r ∈ s.userInventory.rows, s.storeItems.contains r.itemId = true

theorem valid_empty (now : Timestamp) (users : Table User) : Valid (.empty now users) :=
  ⟨fun _ hx => (List.not_mem_nil hx).elim, fun _ hr => (List.not_mem_nil hr).elim⟩

/-- What is owned of an item that is still there, was not lost meanwhile. -/
theorem Grows.owns {s s' : EconomyDb} (h : Grows s s') (hvalid : Valid s') {u : UserId} {x : StoreItemId} (howns : s.owns u x = true)
    (hx : s'.storeItems.contains x = true) : s'.owns u x = true := by
  rcases h.owned u x howns with howns | hgone
  · exact howns
  · rw [hvalid.retired x hgone] at hx
    cases hx

/-- What a write must find when it is committed. -/
def Write.Fits : Write → EconomyDb → Prop
  | addItem i, s => i.id ∉ s.retired
  | own r, s => s.storeItems.contains r.itemId = true
  | _, _ => True

theorem Valid.exec (h : Valid s) (w : Write) (hfits : w.Fits s) : Valid (w.exec s) := by
  cases w with
  | own r =>
    refine ⟨h.retired, fun r' hr' => ?_⟩
    rcases Table.mem_insert.1 hr' with hr' | ⟨rfl, -⟩
    · exact h.stocked r' hr'
    · exact hfits
  | addItem i =>
    refine ⟨fun x hx => ?_, fun r hr => ?_⟩
    · have hne : ¬ i.id = x := fun hi => hfits (hi ▸ hx)
      rw [contains_addItem, h.retired x hx, decide_eq_false hne]
      rfl
    · rw [contains_addItem, h.stocked r hr, Bool.true_or]
  | editItem x e now => exact ⟨fun y hy => contains_editItem.trans (h.retired y hy), fun r hr => contains_editItem.trans (h.stocked r hr)⟩
  | dropItem x =>
    refine ⟨fun y hy => ?_, fun r hr => ?_⟩
    · rw [contains_dropItem]
      rcases List.mem_cons.1 hy with rfl | hy
      · simp
      · rw [h.retired y hy, Bool.false_and]
    · obtain ⟨hr, hx⟩ := Table.mem_deleteWhere.1 hr
      rw [contains_dropItem, h.stocked r hr]
      simpa using Ne.symm (of_decide_eq_false hx)
  | _ => exact ⟨h.retired, h.stocked⟩

end Exec

/-! ## What is committed -/

/-- A write of an equip: the slot it sets holds what was found to be owned and of its type. -/
inductive Dresses (log : Log) (s : EconomyDb) (u : UserId) : Write → Prop
  | row (now) : Dresses log s u (.wearRow u now)
  | off (slot now) : Dresses log s u (.setSlot u slot none now)
  | on (slot x now) (e) (he : e ∈ log) (hstmt : e.stmt = .wornType u x)
    (htype : (e.view.storeItems.find x).map (·.itemType) = some slot) (howns : s.owns u x = true) :
    Dresses log s u (.setSlot u slot (some x) now)

/-- The entry of a credit in the ledger. -/
def creditWrites (u : UserId) (amount : Int) (reason : Reason) (metadata : Metadata) (start : Timestamp) : List Write :=
  [.credit u amount, .ledger { userId := u, amount, reason, metadata, createdAt := start }]

/-- What a referral pays, the bonus of a rung apart. -/
def referralWrites (code : String) (referrer referee : UserId) (start : Timestamp) : List Write :=
  .refer { referrerId := referrer, refereeId := referee, referralCode := code, rewardPoints := referralRewardPoints, createdAt := start } ::
    (creditWrites referee referralRewardPoints .referralWelcomeBonus (.welcome code referrer) start ++
      creditWrites referrer referralRewardPoints .referralInviteBonus (.invite code referee) start)

/-- The bonus of a rung, if one is reached. -/
def milestoneWrites (referrer : UserId) (invites : Int) (start : Timestamp) : List Write :=
  match rungAt invites with
  | some rung => creditWrites referrer rung.bonusPoints .referralMilestone (.milestone rung.label invites) start
  | none => []

/-- What paying for an item writes. -/
def chargeWrites (u : UserId) (i : StoreItem) (start : Timestamp) : List Write :=
  if 0 < i.pricePoints then
    [.adjust u (-i.pricePoints), .ledger
      { userId := u, amount := -i.pricePoints, reason := .storePurchase, metadata := .purchase i.id i.sku i.name, createdAt := start }]
  else []

/-- What buying an item writes. -/
def purchaseWrites (u : UserId) (i : StoreItem) (start : Timestamp) : List Write :=
  chargeWrites u i start ++ [.own { userId := u, itemId := i.id, paidPoints := i.pricePoints, source := .purchase, acquiredAt := start }]

/-- What the handlers commit, by what they have executed and what they find when they commit it. -/
inductive Commits (log : Log) (s : EconomyDb) : List Write → Prop
  | checkIn (u streak start v v' mid) (reward column : Int) (hpos : 0 < reward)
    (hpaid : (⟨.payDaily u reward column, start, v'⟩ :: mid) <:+ log) (hlock : ⟨.lockClaim u, start, v⟩ ∈ mid)
    (hsame : s.lastClaim u = v'.lastClaim u)
    (hguard : v.userBalances.contains u = true → v'.lastClaim u = v.lastClaim u ∧ ∀ last, v.lastClaim u = some last →
      ∃ w mid', (⟨.readClock, start, w⟩ :: mid') <:+ mid ∧ ⟨.lockClaim u, start, v⟩ ∈ mid' ∧ last + 20 * hour ≤ w.now) :
    Commits log s [.payDaily u reward column start,
      .ledger { userId := u, amount := reward, reason := .dailyCheckin, metadata := .checkin streak, createdAt := start }]
  | refer (code referrer referee start) (hne : referee ≠ referrer) (hnew : s.referrals.find referee = none) :
    Commits log s (referralWrites code referrer referee start ++ milestoneWrites referrer (s.invites referrer + 1) start)
  | grant (admin u amount note start) (hpos : 0 < amount) :
    Commits log s (creditWrites u amount .adminGrant (.admin admin note) start)
  | debit (admin u amount note start b) (hneg : amount < 0) (hb : s.userBalances.find u = some b) (henough : 0 ≤ b.balance + amount) :
    Commits log s [.adjust u amount,
      .ledger { userId := u, amount, reason := .adminAdjustment, metadata := .admin admin note, createdAt := start }]
  | stray (admin u amount note start v) (hneg : amount < 0) (hlog : ⟨.adjust u amount, start, v⟩ ∈ log)
    (hnone : v.userBalances.find u = none) :
    Commits log s [.ledger { userId := u, amount, reason := .adminAdjustment, metadata := .admin admin note, createdAt := start }]
  | purchase (u i start v rest) (hlog : log = ⟨.insertInventory u i.id i.pricePoints, start, v⟩ :: rest)
    (hi : s.storeItems.find i.id = some i) (howns : s.owns u i.id = false)
    (hstock : ∀ limit, i.stockLimit = some limit → (s.holdings i.id).length < limit)
    (hbalance : 0 < i.pricePoints → ∃ b, s.userBalances.find u = some b ∧ i.pricePoints ≤ b.balance) :
    Commits log s (purchaseWrites u i start)
  | give (u x now rest) (hlog : log = ⟨.grantInventory u x, now, s⟩ :: rest) (hx : s.storeItems.contains x = true)
    (howns : s.owns u x = false) :
    Commits log s [.own { userId := u, itemId := x, paidPoints := 0, source := .grant, acquiredAt := now }]
  | addItem (i) (hnew : s.storeItems.contains i.id = false) (hprice : 0 ≤ i.pricePoints) : Commits log s [.addItem i]
  | editItem (x e now) (rest) (hprice : 0 ≤ e.pricePoints) (hlog : log = ⟨.updateItem x e, now, s⟩ :: rest) :
    Commits log s [.editItem x e now]
  | dropItem (x start rest) (hlog : log = ⟨.deleteItem x, start, s⟩ :: rest) : Commits log s [.dropItem x]
  | dress (u ws) (h : ∀ w ∈ ws, Dresses log s u w) : Commits log s ws

/-- The locks that are held cover the writes, and each finds what it must. -/
def Covered (held : List (Lock Key)) : List Write → EconomyDb → Prop
  | [], _ => True
  | w :: ws, s => (∀ m ∈ w.needs s, m ∈ held) ∧ w.Fits s ∧ Covered held ws (w.exec s)

variable (text : Casing)

@[simp] theorem write_economy : (economy text).write = Write.exec := rfl

variable {text} {held : List (Lock Key)} {ws : List Write} {s : EconomyDb}

theorem Covered.keeps (h : Covered held ws s) {n : Lock Key} (hcomp : ∀ m ∈ held, m.Compatible n) :
    Keeps n s ((economy text).apply ws s) := by
  induction ws generalizing s with
  | nil => exact .refl n s
  | cons w ws ih => exact (keeps_exec w fun m hm => hcomp m (h.1 m hm)).trans (ih h.2.2)

theorem Covered.grows (h : Covered held ws s) : Grows s ((economy text).apply ws s) := by
  induction ws generalizing s with
  | nil => exact .refl s
  | cons w ws ih => exact (Grows.exec w s).trans (ih h.2.2)

theorem Covered.valid (h : Covered held ws s) (hvalid : Valid s) : Valid ((economy text).apply ws s) := by
  induction ws generalizing s with
  | nil => exact hvalid
  | cons w ws ih => exact ih h.2.2 (hvalid.exec w h.2.1)

variable (text)

/-- An equip writes what somebody wears, and nothing else. -/
theorem apply_dress (s : EconomyDb) {log : Log} {s₀ : EconomyDb} {u : UserId} (h : ∀ w ∈ ws, Dresses log s₀ u w) :
    ∃ worn, (economy text).apply ws s = { s with userEquippedItems := worn } := by
  induction ws generalizing s with
  | nil => exact ⟨_, rfl⟩
  | cons w ws ih =>
    obtain ⟨worn, hworn⟩ := ih (w.exec s) fun w hw => h w (List.mem_cons_of_mem _ hw)
    rw [Database.apply_cons, write_economy, hworn]
    cases h w List.mem_cons_self <;> exact ⟨worn, rfl⟩

/-- A credit moves points. -/
theorem apply_credit (s : EconomyDb) (u : UserId) (amount : Int) (reason : Reason) (metadata : Metadata) (start : Timestamp) :
    ∃ userBalances balanceTransactions, (economy text).apply (creditWrites u amount reason metadata start) s =
      { s with userBalances, balanceTransactions } := ⟨_, _, rfl⟩

/-- A referral writes itself and moves points. -/
theorem apply_refer (s : EconomyDb) (code : String) (referrer referee : UserId) (invites : Int) (start : Timestamp) :
    ∃ referrals userBalances balanceTransactions,
      (economy text).apply (referralWrites code referrer referee start ++ milestoneWrites referrer invites start) s =
        { s with referrals, userBalances, balanceTransactions } := by
  unfold referralWrites
  rw [List.cons_append, Database.apply_cons, List.append_assoc, Database.apply_append, Database.apply_append]
  have hcredit : ∀ (t : EconomyDb) u amount reason metadata, ∃ userBalances balanceTransactions,
      (economy text).apply (creditWrites u amount reason metadata start) t = { t with userBalances, balanceTransactions } :=
    fun t u amount reason metadata => apply_credit text t u amount reason metadata start
  obtain ⟨b₁, t₁, h₁⟩ := hcredit _ referee referralRewardPoints .referralWelcomeBonus (.welcome code referrer)
  rw [h₁]
  obtain ⟨b₂, t₂, h₂⟩ := hcredit _ referrer referralRewardPoints .referralInviteBonus (.invite code referee)
  rw [h₂]
  unfold milestoneWrites
  cases rungAt invites with
  | none => exact ⟨_, _, _, rfl⟩
  | some rung =>
    obtain ⟨b₃, t₃, h₃⟩ := hcredit _ referrer rung.bonusPoints .referralMilestone (.milestone rung.label invites)
    exact ⟨_, _, _, h₃⟩

/-- A purchase moves points and makes somebody own the item. -/
theorem apply_purchase (s : EconomyDb) (u : UserId) (i : StoreItem) (start : Timestamp) :
    ∃ userBalances balanceTransactions, (economy text).apply (purchaseWrites u i start) s =
      { s with
        userBalances, balanceTransactions
        userInventory := s.userInventory.insert
          { userId := u, itemId := i.id, paidPoints := i.pricePoints, source := .purchase, acquiredAt := start } } := by
  unfold purchaseWrites chargeWrites
  split <;> exact ⟨_, _, rfl⟩

/-- How the handlers share the database. -/
def discipline : Discipline (economy text) where
  Good := Valid
  keeps := Keeps
  grows := Grows
  Acts log held ws s := Covered held ws s ∧ Commits log s ws
  keeps_refl := .refl
  keeps_trans _ _ _ _ := .trans
  grows_refl := .refl
  grows_trans _ _ _ := .trans
  acts_keeps _ _ _ _ _ _ h hcomp := h.1.keeps hcomp
  acts_grows _ _ _ _ _ h := h.1.grows
  acts_good _ _ _ _ hvalid h := h.1.valid hvalid

end Genzh.Gamification
