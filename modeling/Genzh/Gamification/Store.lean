/-
The tables of the economy, and the statements on them: what each locks, what it answers, and what it writes. Balances
and their ledger, referrals, the catalog, who owns what of it, and who wears what.

A row lock that is held until the end of a transaction is the exclusive lock of its key; the `KEY SHARE` lock a
foreign key takes of the row it points at is the shared one. An edit that leaves an item's key alone waits for neither
more nor less than a foreign key does: for whoever has the item `FOR UPDATE`.
-/
import Genzh.Domain.Gamification
import Genzh.Infrastructure.Db
import Genzh.Lib.Map
import Genzh.Lib.Transactions

namespace Genzh.Gamification

open Genzh.Lib Genzh.Domain Genzh.Infrastructure

/-! ## Rows -/

/-- One account's standing. -/
structure UserBalance where
  userId : UserId
  balance : Int
  lifetimeEarned : Int
  lastDailyClaim : Option Timestamp
  dailyStreak : Int
  deriving DecidableEq, Repr

/-- One person having invited another. -/
structure Referral where
  referrerId : UserId
  refereeId : UserId
  referralCode : String
  rewardPoints : Int
  createdAt : Timestamp
  deriving DecidableEq, Repr

/-- How somebody came by an item. -/
inductive Source where
  | purchase
  | grant
  deriving DecidableEq, Repr

/-- An item somebody owns. -/
structure InventoryItem where
  userId : UserId
  itemId : StoreItemId
  paidPoints : Int
  source : Source
  acquiredAt : Timestamp
  deriving DecidableEq, Repr

/-- What somebody is wearing, slot by slot. -/
structure EquippedItems where
  userId : UserId
  slots : ItemType → Option StoreItemId
  updatedAt : Timestamp

instance : HasKey UserBalance UserId := ⟨UserBalance.userId⟩
instance : HasKey Referral UserId := ⟨Referral.refereeId⟩
instance : HasKey StoreItem StoreItemId := ⟨StoreItem.id⟩
instance : HasKey InventoryItem (UserId × StoreItemId) := ⟨fun r => (r.userId, r.itemId)⟩
instance : HasKey EquippedItems UserId := ⟨EquippedItems.userId⟩

structure EconomyDb extends Db where
  /-- The column of `profiles`. -/
  referralCodes : Map UserId String
  userBalances : Table UserBalance
  /-- Append-only. -/
  balanceTransactions : List BalanceTransaction
  referrals : Table Referral
  storeItems : Table StoreItem
  userInventory : Table InventoryItem
  userEquippedItems : Table EquippedItems
  /-- The identifiers of the items that were deleted: none is ever drawn again. -/
  retired : List StoreItemId

namespace EconomyDb

/-- A database just migrated, with these accounts. -/
def empty (now : Timestamp) (users : Table User) : EconomyDb where
  toDb := { Db.empty now with users }
  referralCodes := .empty
  userBalances := .empty
  balanceTransactions := []
  referrals := .empty
  storeItems := .empty
  userInventory := .empty
  userEquippedItems := .empty
  retired := []

variable (db : EconomyDb)

/-- How many invites somebody has had accepted. -/
def invites (u : UserId) : Nat := db.referrals.count fun r => r.referrerId = u

/-- The ownership rows of an item. -/
def holdings (x : StoreItemId) : List InventoryItem := db.userInventory.select fun r => r.itemId = x

def owns (u : UserId) (x : StoreItemId) : Bool := db.userInventory.contains (u, x)

/-- What an account has claimed, and when: nothing, where it has no row. -/
def lastClaim (u : UserId) : Option Timestamp := (db.userBalances.find u).bind (·.lastDailyClaim)

end EconomyDb

/-- Anything a handler fails with. -/
inductive EconomyError where
  | badRequest (message : String)
  | notFound (entity : String)
  | conflict (entity : String)
  | database (e : RepositoryError)
  deriving DecidableEq, Repr

/-! ## Writes -/

/-- What an edit sets. -/
structure ItemEdit where
  name : String
  description : String
  itemType : ItemType
  rarity : ItemRarity
  pricePoints : Int
  assetUrl : Option String
  styleConfig : String
  isActive : Bool
  isLimited : Bool
  stockLimit : Option Int
  sortOrder : Int
  deriving DecidableEq, Repr

/-- The item after an edit. -/
def ItemEdit.set (e : ItemEdit) (now : Timestamp) (i : StoreItem) : StoreItem :=
  { i with
    name := e.name, description := e.description, itemType := e.itemType, rarity := e.rarity
    pricePoints := e.pricePoints, assetUrl := e.assetUrl, styleConfig := e.styleConfig, isActive := e.isActive
    isLimited := e.isLimited, stockLimit := e.stockLimit, sortOrder := e.sortOrder, updatedAt := now }

@[simp] theorem ItemEdit.set_id (e : ItemEdit) (now : Timestamp) (i : StoreItem) : (e.set now i).id = i.id := rfl

/-- What a statement writes. -/
inductive Write where
  | credit (u : UserId) (amount : Int)
  | payDaily (u : UserId) (reward streak : Int) (claimed : Timestamp)
  | adjust (u : UserId) (amount : Int)
  | ledger (t : BalanceTransaction)
  | refer (r : Referral)
  | own (r : InventoryItem)
  | addItem (i : StoreItem)
  | editItem (x : StoreItemId) (e : ItemEdit) (now : Timestamp)
  | dropItem (x : StoreItemId)
  | wearRow (u : UserId) (now : Timestamp)
  | setSlot (u : UserId) (slot : ItemType) (target : Option StoreItemId) (now : Timestamp)
  deriving DecidableEq, Repr

/-- The row of a balance after a credit. -/
def UserBalance.credit (amount : Int) (b : UserBalance) : UserBalance :=
  { b with balance := b.balance + amount, lifetimeEarned := b.lifetimeEarned + amount }

/-- The row of a balance after a check-in. -/
def UserBalance.payDaily (reward streak : Int) (claimed : Timestamp) (b : UserBalance) : UserBalance :=
  { b.credit reward with lastDailyClaim := some claimed, dailyStreak := streak }

def UserBalance.adjust (amount : Int) (b : UserBalance) : UserBalance := { b with balance := b.balance + amount }

/-- The row an account has that has none. -/
def UserBalance.none (u : UserId) : UserBalance :=
  { userId := u, balance := 0, lifetimeEarned := 0, lastDailyClaim := Option.none, dailyStreak := 0 }

@[simp] theorem UserBalance.credit_userId (amount : Int) (b : UserBalance) : (b.credit amount).userId = b.userId := rfl

@[simp] theorem UserBalance.payDaily_userId (reward streak : Int) (claimed : Timestamp) (b : UserBalance) :
    (b.payDaily reward streak claimed).userId = b.userId := rfl

@[simp] theorem UserBalance.adjust_userId (amount : Int) (b : UserBalance) : (b.adjust amount).userId = b.userId := rfl

/-- Take an item off wherever it is worn: `ON DELETE SET NULL`. -/
def EquippedItems.takeOff (x : StoreItemId) (e : EquippedItems) : EquippedItems :=
  { e with slots := fun t => (e.slots t).filter fun y => y ≠ x }

def EquippedItems.setSlot (slot : ItemType) (target : Option StoreItemId) (now : Timestamp) (e : EquippedItems) : EquippedItems :=
  { e with slots := Function.update e.slots slot target, updatedAt := now }

/-- Carry a write out. -/
def Write.exec : Write → EconomyDb → EconomyDb
  | credit u amount, db =>
    { db with userBalances := db.userBalances.upsert ((UserBalance.none u).credit amount) (·.credit amount) fun _ => rfl }
  | payDaily u reward streak claimed, db =>
    { db with
      userBalances := db.userBalances.upsert ((UserBalance.none u).payDaily reward streak claimed)
        (·.payDaily reward streak claimed) fun _ => rfl }
  | adjust u amount, db => { db with userBalances := db.userBalances.update u (·.adjust amount) fun _ => rfl }
  | ledger t, db => { db with balanceTransactions := db.balanceTransactions ++ [t] }
  | refer r, db => { db with referrals := db.referrals.insert r }
  | own r, db => { db with userInventory := db.userInventory.insert r }
  | addItem i, db => { db with storeItems := db.storeItems.insert i }
  | editItem x e now, db => { db with storeItems := db.storeItems.update x (e.set now) fun _ => rfl }
  -- the rows of its owners go with it, and whoever wears it wears nothing there
  | dropItem x, db =>
    { db with
      storeItems := db.storeItems.delete x
      userInventory := db.userInventory.deleteWhere fun r => r.itemId = x
      userEquippedItems := db.userEquippedItems.updateWhere (fun _ => true) (·.takeOff x) fun _ => rfl
      retired := x :: db.retired }
  | wearRow u now, db =>
    { db with userEquippedItems := db.userEquippedItems.insert { userId := u, slots := fun _ => none, updatedAt := now } }
  | setSlot u slot target now, db =>
    { db with userEquippedItems := db.userEquippedItems.update u (·.setSlot slot target now) fun _ => rfl }

/-! ## Statements -/

/-- What the database and its clock are asked. -/
inductive Statement where
  | codeOwner (code : String)
  | referred (u : UserId)
  | insertReferral (r : Referral)
  | credit (u : UserId) (amount : Int)
  | writeLedger (u : UserId) (amount : Int) (reason : Reason) (metadata : Metadata)
  | countReferrals (u : UserId)
  | balanceOf (u : UserId)
  /-- `Utc::now()`. -/
  | readClock
  | lockClaim (u : UserId)
  | payDaily (u : UserId) (reward streak : Int)
  | lockItem (x : StoreItemId)
  | owned (u : UserId) (x : StoreItemId)
  | countOwners (x : StoreItemId)
  | lockBalance (u : UserId)
  | adjust (u : UserId) (amount : Int)
  | insertInventory (u : UserId) (x : StoreItemId) (paidPoints : Int)
  | grantInventory (u : UserId) (x : StoreItemId)
  | readItem (x : StoreItemId)
  | itemExists (x : StoreItemId)
  | skuTaken (sku : String)
  | insertItem (i : StoreItem)
  | updateItem (x : StoreItemId) (e : ItemEdit)
  | deleteItem (x : StoreItemId)
  | wearRow (u : UserId)
  | wornType (u : UserId) (x : StoreItemId)
  | setSlot (u : UserId) (slot : ItemType) (target : Option StoreItemId)
  | readEquipped (u : UserId)
  | readItems (xs : List StoreItemId)
  deriving DecidableEq, Repr

/-- What a statement answers. -/
@[reducible] def Statement.Answer : Statement → Type
  | codeOwner _ => Option UserId
  | referred _ | owned .. | itemExists _ | skuTaken _ => Bool
  | insertReferral _ | credit .. | writeLedger .. | payDaily .. | adjust .. | deleteItem _ | wearRow _ | setSlot .. => Unit
  | countReferrals _ | countOwners _ => Int
  | balanceOf _ | lockBalance _ => Option Int
  | readClock | insertInventory .. => Timestamp
  | lockClaim _ => Option (Option Timestamp × Int)
  | lockItem _ | readItem _ => Option StoreItem
  | grantInventory .. => Bool
  | insertItem _ | updateItem .. => StoreItem
  | wornType .. => Option ItemType
  | readEquipped _ => Option EquippedItems
  | readItems _ => List StoreItem

/-- What is locked. -/
inductive Key where
  | balance (u : UserId)
  | item (x : StoreItemId)
  | referee (u : UserId)
  | equipped (u : UserId)
  deriving DecidableEq, Repr

/-- Who wears an item. -/
def EconomyDb.wearers (db : EconomyDb) (x : StoreItemId) : List UserId :=
  (db.userEquippedItems.select fun e => ItemType.all.any fun t => e.slots t = some x).map (·.userId)

/-- The locks a statement takes. `FOR UPDATE` locks the row it finds, and nothing where it finds none. -/
def Statement.locks : Statement → EconomyDb → List (Lock Key)
  | insertReferral r, _ => [.exclusive (.referee r.refereeId)]
  | credit u _, _ | payDaily u _ _, _ => [.exclusive (.balance u)]
  | lockClaim u, db | lockBalance u, db | adjust u _, db =>
    if db.userBalances.contains u then [.exclusive (.balance u)] else []
  | lockItem x, db => if (db.storeItems.find x).any (·.isActive) then [.exclusive (.item x)] else []
  | insertInventory _ x _, _ => [.shared (.item x)]
  | grantInventory u x, db => if db.owns u x then [] else [.shared (.item x)]
  | insertItem i, _ => [.exclusive (.item i.id)]
  | updateItem x _, _ => [.shared (.item x)]
  | deleteItem x, db => .exclusive (.item x) :: (db.wearers x).map fun u => .exclusive (.equipped u)
  | wearRow u, db => if db.userEquippedItems.contains u then [] else [.exclusive (.equipped u)]
  | setSlot u _ target, _ => .exclusive (.equipped u) :: (target.toList.map fun x => .shared (.item x))
  | _, _ => []

/-- Does a `BIGINT` column with `CHECK (.. >= 0)` hold it? -/
def holdsPoints (n : Int) : Bool := 0 ≤ n && n < 9223372036854775808

/-- The constraints on a row of `user_balances`. -/
def UserBalance.valid (b : UserBalance) : Bool := holdsPoints b.balance && holdsPoints b.lifetimeEarned && 0 ≤ b.dailyStreak

/-- The constraints on a row of `store_items`. -/
def validItem (price : Int) (stockLimit : Option Int) : Bool := 0 ≤ price && stockLimit.all fun n => 0 < n

/-- How texts compare without their case: Rust's two functions, and PostgreSQL's `LOWER`. -/
structure Casing where
  toUppercase : String → String
  toLowercase : String → String
  lower : String → String

/-- A statement that keeps its constraints answers and writes; another one is an error. -/
def checked {α : Type} (ok : Bool) (answer : α) (writes : List Write) : Except EconomyError (α × List Write) :=
  if ok then .ok (answer, writes) else .error (.database .database)

variable (text : Casing)

/-- What a statement answers and writes, in a transaction that began at `start`. -/
def Statement.exec : (q : Statement) → Timestamp → EconomyDb → Except EconomyError (q.Answer × List Write)
  | codeOwner code, _, db =>
    .ok ((db.referralCodes.rows.find? fun e => text.lower e.val = text.lower code).map (·.key), [])
  | referred u, _, db => .ok (db.referrals.contains u, [])
  | insertReferral r, start, db =>
    checked (db.userExists r.referrerId && db.userExists r.refereeId && !db.referrals.contains r.refereeId &&
      r.refereeId ≠ r.referrerId) () [.refer { r with createdAt := start }]
  | credit u amount, _, db =>
    checked (db.userExists u && (((db.userBalances.find u).getD (.none u)).credit amount).valid) () [.credit u amount]
  | writeLedger u amount reason metadata, start, db =>
    checked (db.userExists u) () [.ledger { userId := u, amount, reason, metadata, createdAt := start }]
  | countReferrals u, _, db => .ok (db.invites u, [])
  | balanceOf u, _, db => .ok ((db.userBalances.find u).map (·.balance), [])
  | readClock, _, db => .ok (db.now, [])
  | lockClaim u, _, db => .ok ((db.userBalances.find u).map fun b => (b.lastDailyClaim, b.dailyStreak), [])
  | payDaily u reward streak, start, db =>
    checked (db.userExists u && (((db.userBalances.find u).getD (.none u)).payDaily reward streak start).valid) ()
      [.payDaily u reward streak start]
  | lockItem x, _, db => .ok ((db.storeItems.find x).filter (·.isActive), [])
  | owned u x, _, db => .ok (db.owns u x, [])
  | countOwners x, _, db => .ok ((db.holdings x).length, [])
  | lockBalance u, _, db => .ok ((db.userBalances.find u).map (·.balance), [])
  | adjust u amount, _, db =>
    match db.userBalances.find u with
    -- an update that finds no row is no error
    | none => .ok ((), [])
    | some b => checked (b.adjust amount).valid () [.adjust u amount]
  | insertInventory u x paidPoints, start, db =>
    checked (db.userExists u && db.storeItems.contains x && !db.owns u x) start
      [.own { userId := u, itemId := x, paidPoints, source := .purchase, acquiredAt := start }]
  | grantInventory u x, start, db =>
    if db.owns u x then .ok (false, [])
    else checked (db.userExists u && db.storeItems.contains x) true
      [.own { userId := u, itemId := x, paidPoints := 0, source := .grant, acquiredAt := start }]
  | readItem x, _, db => .ok (db.storeItems.find x, [])
  | itemExists x, _, db => .ok (db.storeItems.contains x, [])
  | skuTaken sku, _, db => .ok (db.storeItems.rows.any fun i => i.sku = sku, [])
  | insertItem i, start, db =>
    checked (!db.storeItems.contains i.id && !db.retired.contains i.id && !(db.storeItems.rows.any fun j => j.sku = i.sku) &&
      validItem i.pricePoints i.stockLimit && i.createdBy.all db.userExists)
      { i with createdAt := start, updatedAt := start } [.addItem { i with createdAt := start, updatedAt := start }]
  | updateItem x e, start, db =>
    match db.storeItems.find x with
    | none => .error (.database (.notFound "store item"))
    | some i => checked (validItem e.pricePoints e.stockLimit) (e.set start i) [.editItem x e start]
  | deleteItem x, _, db => .ok ((), if db.storeItems.contains x then [.dropItem x] else [])
  | wearRow u, start, db =>
    if db.userEquippedItems.contains u then .ok ((), []) else checked (db.userExists u) () [.wearRow u start]
  | wornType u x, _, db => .ok (if db.owns u x then (db.storeItems.find x).map (·.itemType) else none, [])
  | setSlot u slot target, start, db => checked (target.all db.storeItems.contains) () [.setSlot u slot target start]
  | readEquipped u, _, db => .ok (db.userEquippedItems.find u, [])
  | readItems xs, _, db => .ok (db.storeItems.select fun i => xs.contains i.id, [])

/-- The database of the economy. -/
def economy : Database EconomyDb Timestamp Write Key Statement.Answer EconomyError where
  now db := db.now
  write := Write.exec
  locks := Statement.locks
  exec := Statement.exec text
  broken := .database .database

end Genzh.Gamification
