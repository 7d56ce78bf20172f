/-
The handlers that move points and cosmetics, statement by statement. Each comes from an authenticated caller, or from
a member of staff; the ones that only read are not here.
-/
import Genzh.Gamification.Store

namespace Genzh.Gamification

open Genzh.Lib Genzh.Domain

abbrev EconomyM := Script (Command.Answer Statement.Answer) EconomyError

/-- One statement. -/
def ask (q : Statement) : EconomyM q.Answer := Script.query (Command.stmt q)

def beginTx : EconomyM Unit := Script.query Command.begin

def commitTx : EconomyM Unit := Script.query Command.commit

/-- `return Err(ApiError::bad_request(..))` unless `c`. -/
def require (c : Bool) (message : String) : EconomyM Unit := Script.ensure c (.badRequest message)

/-! ## Responses -/

structure ClaimReferralResponse where
  message : String
  pointsAwarded : Int
  newBalance : Int
  deriving DecidableEq, Repr

structure DailyCheckinResponse where
  pointsAwarded : Int
  newBalance : Int
  dailyStreak : Int
  deriving DecidableEq, Repr

structure UserInventoryItem where
  userId : UserId
  item : StoreItem
  paidPoints : Int
  source : Source
  acquiredAt : Timestamp
  equipped : Bool
  deriving DecidableEq, Repr

structure EquippedCosmetics where
  userId : UserId
  slots : ItemType → Option StoreItem
  updatedAt : Option Timestamp

structure GrantPointsResponse where
  amount : Int
  newBalance : Int
  deriving DecidableEq, Repr

inductive Response where
  | referral (r : ClaimReferralResponse)
  | checkin (r : DailyCheckinResponse)
  | purchased (r : UserInventoryItem)
  | equipped (r : EquippedCosmetics)
  | item (i : StoreItem)
  | deleted
  | points (r : GrantPointsResponse)
  | granted (inserted : Bool)

/-! ## Helpers -/

/-- Append one ledger entry. -/
def writeLedger (userId : UserId) (amount : Int) (reason : Reason) (metadata : Metadata) : EconomyM Unit :=
  ask (.writeLedger userId amount reason metadata)

/-- Credit points and write the entry that explains them, as one unit. -/
def credit (userId : UserId) (amount : Int) (reason : Reason) (metadata : Metadata) : EconomyM Unit := do
  ask (.credit userId amount)
  writeLedger userId amount reason metadata

/-- The current balance, treating "no row yet" as zero. -/
def balanceOf (userId : UserId) : EconomyM Int := do
  let balance ← ask (.balanceOf userId)
  return balance.getD 0

/-- `streak as i32` -/
def asI32 (n : Int) : Int := Int.bmod n 4294967296

variable (text : Casing)

def normalizeSku (raw : String) : Except EconomyError String :=
  let sku := String.ofList ((text.toLowercase (trim raw)).toList.map fun c => if c == ' ' then '-' else c)
  if sku.utf8ByteSize < 3 || 64 < sku.utf8ByteSize then .error (.badRequest "The SKU must be between 3 and 64 characters.")
  else if !sku.toList.all fun c => c.isAlphanum || c == '-' || c == '_' then
    .error (.badRequest "The SKU may only contain letters, digits, '-' and '_'.")
  else .ok sku

def requireText (raw : Option String) (field : String) (max : Nat) : Except EconomyError String :=
  let value := trim (raw.getD "")
  if value.isEmpty then .error (.badRequest s!"The {field} is required.")
  else if max < value.length then .error (.badRequest s!"The {field} must be {max} characters or fewer.")
  else .ok value

def parseItemType (raw : Option String) : Except EconomyError ItemType :=
  match ItemType.parse (trim (raw.getD "")) with
  | some t => .ok t
  | none => .error (.badRequest ("Pick a slot: frame, badge, banner, name_color, name_font, title, " ++
      "avatar_effect or chat_bubble."))

def parseRarity (raw : String) : Except EconomyError ItemRarity :=
  match ItemRarity.parse (trim raw) with
  | some r => .ok r
  | none => .error (.badRequest "Pick a rarity: common, rare, epic or legendary.")

def validatePrice (price : Int) : Except EconomyError Int :=
  if !(0 ≤ price && price ≤ 10000000) then .error (.badRequest "The price must be between 0 and 10,000,000 points.")
  else .ok price

def validateStock (limit : Option Int) : Except EconomyError (Option Int) :=
  if limit.any fun n => n ≤ 0 then .error (.badRequest "A stock limit must be at least 1. Leave it empty for unlimited.")
  else .ok limit

/-- One person's equipped set, resolved to whole items. -/
def loadEquipped (userId : UserId) : EconomyM EquippedCosmetics := do
  match ← ask (.readEquipped userId) with
  | none => return { userId, slots := fun _ => none, updatedAt := none }
  | some row =>
    let ids := ItemType.all.filterMap row.slots
    -- there is nothing to look up for somebody who wears nothing
    let items ← if ids.isEmpty then pure [] else ask (.readItems ids)
    return {
      userId := row.userId
      slots := fun t => (row.slots t).bind fun x => items.find? fun i => i.id = x
      updatedAt := some row.updatedAt }

/-! ## Referrals -/

/-- `POST /api/v1/referrals/claim` — apply somebody's invite code. -/
def claimReferral (caller : UserId) (payload : String) : EconomyM ClaimReferralResponse := do
  let code := normalizeReferralCode text.toUppercase payload
  require (!code.isEmpty) "Enter a referral code."
  let referrerId ← Script.found (.notFound "referral code") (← ask (.codeOwner code))
  require (referrerId ≠ caller) "You cannot use your own invite code."
  beginTx
  let already ← ask (.referred caller)
  Script.ensure (!already) (.conflict "referral")
  ask (.insertReferral {
    referrerId := referrerId, refereeId := caller, referralCode := code, rewardPoints := referralRewardPoints, createdAt := 0 })
  credit caller referralRewardPoints .referralWelcomeBonus (.welcome code referrerId)
  credit referrerId referralRewardPoints .referralInviteBonus (.invite code caller)
  let invites ← ask (.countReferrals referrerId)
  match rungAt invites with
  | some rung => credit referrerId rung.bonusPoints .referralMilestone (.milestone rung.label invites)
  | none => pure ()
  let newBalance ← balanceOf caller
  commitTx
  return {
    message := s!"Invite accepted — {referralRewardPoints} points added."
    pointsAwarded := referralRewardPoints
    newBalance }

/-! ## The daily check-in -/

/-- The instant `Utc::now()` reads, where the last claim is compared with it. -/
def clockIf (lastClaim : Option Timestamp) : EconomyM Timestamp :=
  match lastClaim with
  | some _ => ask .readClock
  | none => pure 0

/-- `POST /api/v1/economy/daily-checkin` — claim today's points. -/
def claimDailyCheckin (caller : UserId) : EconomyM DailyCheckinResponse := do
  beginTx
  let existing ← ask (.lockClaim caller)
  let (lastClaim, streak) := existing.getD (none, 0)
  let now ← clockIf lastClaim
  require (!(lastClaim.any fun last => Duration.numHours (now - last) < dailyClaimCooldownHours))
    "Already claimed today — come back tomorrow."
  let streak := nextStreak (← clockIf lastClaim) lastClaim streak
  let reward := dailyCheckinReward streak
  ask (.payDaily caller reward (asI32 streak))
  writeLedger caller reward .dailyCheckin (.checkin streak)
  let newBalance ← balanceOf caller
  commitTx
  return { pointsAwarded := reward, newBalance, dailyStreak := asI32 streak }

/-! ## The store and the inventory -/

/-- `POST /api/v1/store/items/{id}/purchase` — buy one item with points. -/
def purchaseStoreItem (caller : UserId) (itemId : StoreItemId) : EconomyM UserInventoryItem := do
  beginTx
  let item ← Script.found (.notFound "store item") (← ask (.lockItem itemId))
  let owned ← ask (.owned caller itemId)
  Script.ensure (!owned) (.conflict "inventory item")
  match item.stockLimit with
  | some limit =>
    let sold ← ask (.countOwners itemId)
    require (!(limit ≤ sold)) "This item is sold out."
  | none => pure ()
  let balance := (← ask (.lockBalance caller)).getD 0
  require (!(balance < item.pricePoints)) s!"Not enough points — {item.name} costs {item.pricePoints}, you have {balance}."
  if 0 < item.pricePoints then
    ask (.adjust caller (-item.pricePoints))
    writeLedger caller (-item.pricePoints) .storePurchase (.purchase item.id item.sku item.name)
  let acquiredAt ← ask (.insertInventory caller itemId item.pricePoints)
  commitTx
  return { userId := caller, item, paidPoints := item.pricePoints, source := .purchase, acquiredAt, equipped := false }

/-- `POST /api/v1/inventory/equip` body: absent leaves a slot as it is, `some none` clears it. -/
structure EquipCosmeticsRequest where
  frameItemId : Option (Option StoreItemId) := none
  badgeItemId : Option (Option StoreItemId) := none
  bannerItemId : Option (Option StoreItemId) := none
  nameColorItemId : Option (Option StoreItemId) := none
  nameFontItemId : Option (Option StoreItemId) := none
  titleItemId : Option (Option StoreItemId) := none
  avatarEffectItemId : Option (Option StoreItemId) := none
  chatBubbleItemId : Option (Option StoreItemId) := none
  deriving DecidableEq, Repr

/-- Each slot with the change asked for. -/
def EquipCosmeticsRequest.slots (payload : EquipCosmeticsRequest) : List (ItemType × Option (Option StoreItemId)) := [
  (.frame, payload.frameItemId),
  (.badge, payload.badgeItemId),
  (.banner, payload.bannerItemId),
  (.nameColor, payload.nameColorItemId),
  (.nameFont, payload.nameFontItemId),
  (.title, payload.titleItemId),
  (.avatarEffect, payload.avatarEffectItemId),
  (.chatBubble, payload.chatBubbleItemId)]

/-- One slot of an equip. -/
def equipSlot (caller : UserId) : ItemType × Option (Option StoreItemId) → EconomyM Unit
  | (_, none) => pure ()
  | (slot, some none) => ask (.setSlot caller slot none)
  | (slot, some (some itemId)) => do
    let itemType ← Script.found (.badRequest "You do not own that item.") (← ask (.wornType caller itemId))
    require (itemType = slot) s!"A {itemType.key} cannot be worn in the {slot.key} slot."
    ask (.setSlot caller slot (some itemId))

/-- `POST /api/v1/inventory/equip` — wear or remove cosmetics. -/
def equipCosmetics (caller : UserId) (payload : EquipCosmeticsRequest) : EconomyM EquippedCosmetics := do
  beginTx
  ask (.wearRow caller)
  Script.forEach payload.slots (equipSlot caller)
  commitTx
  loadEquipped caller

/-! ## The console -/

/-- The body of a catalog item: on an update, what is absent is left as it was. -/
structure StoreItemInput where
  sku : Option String := none
  name : Option String := none
  description : Option String := none
  itemType : Option String := none
  rarity : Option String := none
  pricePoints : Option Int := none
  assetUrl : Option (Option String) := none
  styleConfig : Option String := none
  isActive : Option Bool := none
  isLimited : Option Bool := none
  stockLimit : Option (Option Int) := none
  sortOrder : Option Int := none
  deriving DecidableEq, Repr

/-- The item a body describes, under the identifier that is drawn for it. -/
def StoreItemInput.item (admin : UserId) (id : StoreItemId) (input : StoreItemInput) : Except EconomyError StoreItem := do
  let sku ← normalizeSku text (input.sku.getD "")
  let name ← requireText input.name "name" 64
  let itemType ← parseItemType input.itemType
  let rarity ← parseRarity (input.rarity.getD "common")
  let price ← validatePrice (input.pricePoints.getD 0)
  let stockLimit ← validateStock (input.stockLimit.getD none)
  return {
    id, sku, name, itemType, rarity
    description := input.description.getD ""
    pricePoints := price
    assetUrl := (input.assetUrl.getD none).filter fun u => !(trim u).isEmpty
    styleConfig := input.styleConfig.getD "\x7b\x7d"
    isActive := input.isActive.getD true
    isLimited := input.isLimited.getD false
    stockLimit
    sortOrder := input.sortOrder.getD 0
    createdBy := some admin
    createdAt := 0, updatedAt := 0 }

/-- `POST /api/v1/admin/store/items` — add an item to the catalog. -/
def adminCreateStoreItem (admin : UserId) (id : StoreItemId) (input : StoreItemInput) : EconomyM StoreItem := do
  let item ← Script.lift (input.item text admin id)
  let taken ← ask (.skuTaken item.sku)
  Script.ensure (!taken) (.conflict "store item sku")
  ask (.insertItem item)

/-- The edit a body asks for, of an item as it was read. -/
def StoreItemInput.edit (existing : StoreItem) (input : StoreItemInput) : Except EconomyError ItemEdit := do
  let name ← match input.name with
    | some raw => requireText (some raw) "name" 64
    | none => .ok existing.name
  let itemType ← match input.itemType with
    | some raw => parseItemType (some raw)
    | none => .ok existing.itemType
  let rarity ← match input.rarity with
    | some raw => parseRarity raw
    | none => .ok existing.rarity
  let price ← validatePrice (input.pricePoints.getD existing.pricePoints)
  let stockLimit ← match input.stockLimit with
    | some value => validateStock value
    | none => .ok existing.stockLimit
  return {
    name, itemType, rarity
    description := input.description.getD existing.description
    pricePoints := price
    assetUrl := match input.assetUrl with
      | some value => value.filter fun u => !(trim u).isEmpty
      | none => existing.assetUrl
    styleConfig := input.styleConfig.getD existing.styleConfig
    isActive := input.isActive.getD existing.isActive
    isLimited := input.isLimited.getD existing.isLimited
    stockLimit
    sortOrder := input.sortOrder.getD existing.sortOrder }

/-- `PATCH /api/v1/admin/store/items/{id}` — edit an item, price included. -/
def adminUpdateStoreItem (itemId : StoreItemId) (input : StoreItemInput) : EconomyM StoreItem := do
  let existing ← Script.found (.notFound "store item") (← ask (.readItem itemId))
  let edit ← Script.lift (input.edit existing)
  ask (.updateItem itemId edit)

/-- Why an item is not deleted. -/
def ownersMessage (owners : Int) (name : String) : String :=
  let who := if owners = 1 then "1 person owns" else s!"{owners} people own"
  s!"{who} '{name}'. Deactivate it instead of deleting it."

/-- `DELETE /api/v1/admin/store/items/{id}` — remove an item from the catalog. -/
def adminDeleteStoreItem (itemId : StoreItemId) : EconomyM Unit := do
  let item ← Script.found (.notFound "store item") (← ask (.readItem itemId))
  let owners ← ask (.countOwners itemId)
  require (!(0 < owners)) (ownersMessage owners item.name)
  ask (.deleteItem itemId)

/-- `POST /api/v1/admin/economy/grant` — credit or debit an account by hand. -/
def adminGrantPoints (admin userId : UserId) (amount : Int64) (note : Option String) : EconomyM GrantPointsResponse := do
  require (amount ≠ 0) "Enter an amount other than zero."
  -- the absolute value of the least 64-bit number is that number
  require (!(1000000 < amount.abs)) "That is more than one grant may move."
  beginTx
  if 0 < amount then
    credit userId amount.toInt .adminGrant (.admin admin note)
  else
    let balance := (← ask (.lockBalance userId)).getD 0
    require (!(balance < amount.abs.toInt)) s!"That account only holds {balance} points."
    ask (.adjust userId amount.toInt)
    writeLedger userId amount.toInt .adminAdjustment (.admin admin note)
  let newBalance ← balanceOf userId
  commitTx
  return { amount := amount.toInt, newBalance }

/-- `POST /api/v1/admin/store/items/{id}/grant` — give an item away. -/
def adminGrantItem (itemId : StoreItemId) (userId : UserId) : EconomyM Bool := do
  let present ← ask (.itemExists itemId)
  Script.ensure present (.notFound "store item")
  ask (.grantInventory userId itemId)

/-! ## Requests -/

inductive Request where
  | claimReferral (caller : UserId) (code : String)
  | claimDailyCheckin (caller : UserId)
  | purchaseStoreItem (caller : UserId) (itemId : StoreItemId)
  | equipCosmetics (caller : UserId) (payload : EquipCosmeticsRequest)
  | adminCreateStoreItem (admin : UserId) (id : StoreItemId) (input : StoreItemInput)
  | adminUpdateStoreItem (itemId : StoreItemId) (input : StoreItemInput)
  | adminDeleteStoreItem (itemId : StoreItemId)
  | adminGrantPoints (admin userId : UserId) (amount : Int64) (note : Option String)
  | adminGrantItem (itemId : StoreItemId) (userId : UserId)
  deriving DecidableEq

/-- What a request does. -/
def Request.script : Request → EconomyM Response
  | .claimReferral caller code => .referral <$> Gamification.claimReferral text caller code
  | .claimDailyCheckin caller => .checkin <$> Gamification.claimDailyCheckin caller
  | .purchaseStoreItem caller itemId => .purchased <$> Gamification.purchaseStoreItem caller itemId
  | .equipCosmetics caller payload => .equipped <$> Gamification.equipCosmetics caller payload
  | .adminCreateStoreItem admin id input => .item <$> Gamification.adminCreateStoreItem text admin id input
  | .adminUpdateStoreItem itemId input => .item <$> Gamification.adminUpdateStoreItem itemId input
  | .adminDeleteStoreItem itemId => (fun _ => .deleted) <$> Gamification.adminDeleteStoreItem itemId
  | .adminGrantPoints admin userId amount note => .points <$> Gamification.adminGrantPoints admin userId amount note
  | .adminGrantItem itemId userId => .granted <$> Gamification.adminGrantItem itemId userId

end Genzh.Gamification
