/-
Points, referrals, and what points are spent on: the rewards, the invite ladder, and the catalog.
-/
import Genzh.Domain.Text

namespace Genzh.Domain

structure StoreItemId where
  uuid : Uuid
  deriving DecidableEq, Repr

/-! ## Rewards -/

/-- What one referral pays out, to each side. -/
def referralRewardPoints : Int := 100

/-- What a daily check-in pays before the streak bonus. -/
def dailyCheckinBasePoints : Int := 50

/-- Extra points per consecutive day, and their ceiling. -/
def dailyStreakStepPoints : Int := 10
def dailyStreakMaxBonus : Int := 100

/-- Hours that must pass before the next check-in is allowed. -/
def dailyClaimCooldownHours : Int := 20

/-- Hours after which a missed day breaks the streak. -/
def dailyStreakGraceHours : Int := 48

/-- What a check-in pays given the streak it continues. -/
def dailyCheckinReward (streak : Int) : Int :=
  let bonus := (max streak 1 - 1) * dailyStreakStepPoints
  dailyCheckinBasePoints + min bonus dailyStreakMaxBonus

/-- `num_hours`: whole hours, rounded towards zero. -/
def Duration.numHours (d : Duration) : Int := Int.tdiv d (3600 * 1000000)

/-- An hour, and so the cool-down, as the database counts it. -/
def hour : Duration := 3600 * 1000000

/-- The streak a check-in at this instant would be part of. -/
def nextStreak (now : Timestamp) (lastClaim : Option Timestamp) (current : Int) : Int :=
  match lastClaim with
  | some last => if Duration.numHours (now - last) < dailyStreakGraceHours then max current 0 + 1 else 1
  | none => 1

theorem dailyCheckinReward_pos (streak : Int) : 0 < dailyCheckinReward streak := by
  simp only [dailyCheckinReward, dailyCheckinBasePoints, dailyStreakStepPoints, dailyStreakMaxBonus]
  omega

theorem numHours_lt {d : Int} {h : Nat} (hh : 0 < h) : Duration.numHours d < h ↔ d < h * hour := by
  unfold Duration.numHours hour
  have hcast : Int.tdiv (h * (3600 * 1000000)) (3600 * 1000000) = h := Int.mul_tdiv_cancel _ (by decide)
  constructor
  · intro hlt
    by_contra hge
    have hmono := Int.tdiv_le_tdiv (c := 3600 * 1000000) (by decide) (not_lt.1 hge)
    rw [hcast] at hmono
    omega
  · intro hlt
    rcases lt_or_ge d 0 with hneg | hpos
    · have hmono := Int.tdiv_le_tdiv (c := 3600 * 1000000) (by decide) hneg.le
      rw [Int.zero_tdiv] at hmono
      omega
    · rw [Int.tdiv_eq_ediv_of_nonneg hpos]
      exact Int.ediv_lt_of_lt_mul (by decide) hlt

/-- The cool-down has passed when twenty hours have. -/
theorem cooledDown_iff {last now : Timestamp} :
    ¬ Duration.numHours (now - last) < dailyClaimCooldownHours ↔ last + 20 * hour ≤ now := by
  rw [show dailyClaimCooldownHours = ((20 : Nat) : Int) from rfl, numHours_lt (by decide), not_lt]
  exact ⟨Int.add_le_of_le_sub_left, Int.le_sub_left_of_add_le⟩

/-! ## The ledger -/

/-- Why points moved. -/
inductive Reason where
  | referralWelcomeBonus
  | referralInviteBonus
  | referralMilestone
  | dailyCheckin
  | storePurchase
  | adminGrant
  | adminAdjustment
  deriving DecidableEq, Repr

/-- The stable key. -/
def Reason.key : Reason → String
  | referralWelcomeBonus => "referral_welcome_bonus"
  | referralInviteBonus => "referral_invite_bonus"
  | referralMilestone => "referral_milestone"
  | dailyCheckin => "daily_checkin"
  | storePurchase => "store_purchase"
  | adminGrant => "admin_grant"
  | adminAdjustment => "admin_adjustment"

/-- What an entry says about its occasion. -/
inductive Metadata where
  | welcome (code : String) (referrerId : UserId)
  | invite (code : String) (refereeId : UserId)
  | milestone (milestone : String) (invites : Int)
  | checkin (streak : Int)
  | purchase (itemId : StoreItemId) (sku name : String)
  | admin (admin : UserId) (note : Option String)
  deriving DecidableEq, Repr

/-- One movement of points, credit or debit. -/
structure BalanceTransaction where
  userId : UserId
  /-- Positive credits, negative debits. -/
  amount : Int
  reason : Reason
  metadata : Metadata
  createdAt : Timestamp
  deriving DecidableEq, Repr

/-! ## The invite ladder -/

/-- A rung of the ladder. -/
structure ReferralMilestone where
  invites : Int
  bonusPoints : Int
  label : String
  deriving DecidableEq, Repr

def referralMilestones : List ReferralMilestone := [
  { invites := 1, bonusPoints := 0, label := "First Friend" },
  { invites := 3, bonusPoints := 100, label := "Getting Loud" },
  { invites := 5, bonusPoints := 250, label := "Recruiter" },
  { invites := 10, bonusPoints := 750, label := "Community Builder" },
  { invites := 25, bonusPoints := 2500, label := "Legend" }]

/-- The rung that pays a bonus at this many invites. -/
def rungAt (invites : Int) : Option ReferralMilestone :=
  referralMilestones.find? fun m => m.invites == invites && 0 < m.bonusPoints

/-- Normalise a referral code for comparison. -/
def normalizeReferralCode (toUppercase : String → String) (raw : String) : String :=
  toUppercase (String.ofList ((trim raw).toList.filter fun c => c != '-' && c != ' '))

/-! ## The catalog -/

/-- Where on a profile an item is worn. -/
inductive ItemType where
  | frame
  | badge
  | banner
  | nameColor
  | nameFont
  | title
  | avatarEffect
  | chatBubble
  deriving DecidableEq, Repr

namespace ItemType

/-- The value stored in the `item_type` column. -/
def key : ItemType → String
  | frame => "frame"
  | badge => "badge"
  | banner => "banner"
  | nameColor => "name_color"
  | nameFont => "name_font"
  | title => "title"
  | avatarEffect => "avatar_effect"
  | chatBubble => "chat_bubble"

/-- Every slot. -/
def all : List ItemType := [frame, badge, banner, nameColor, nameFont, title, avatarEffect, chatBubble]

/-- Parse a stored key back. -/
def parse (raw : String) : Option ItemType := all.find? fun t => t.key == raw

theorem mem_all (t : ItemType) : t ∈ all := by cases t <;> decide

theorem parse_key (t : ItemType) : parse t.key = some t := by cases t <;> decide

end ItemType

/-- How rare an item is meant to feel. -/
inductive ItemRarity where
  | common
  | rare
  | epic
  | legendary
  deriving DecidableEq, Repr

namespace ItemRarity

/-- The value stored in the `rarity` column. -/
def key : ItemRarity → String
  | common => "common"
  | rare => "rare"
  | epic => "epic"
  | legendary => "legendary"

def all : List ItemRarity := [common, rare, epic, legendary]

/-- Parse a stored key back. -/
def parse (raw : String) : Option ItemRarity := all.find? fun r => r.key == raw

theorem parse_key (r : ItemRarity) : parse r.key = some r := by cases r <;> decide

end ItemRarity

/-- One item in the catalog, as staff created it. -/
structure StoreItem where
  id : StoreItemId
  sku : String
  name : String
  description : String
  itemType : ItemType
  rarity : ItemRarity
  pricePoints : Int
  assetUrl : Option String
  /-- The JSON text of what the client draws it from. -/
  styleConfig : String
  isActive : Bool
  isLimited : Bool
  /-- `none` is unlimited. -/
  stockLimit : Option Int
  sortOrder : Int
  createdBy : Option UserId
  createdAt : Timestamp
  updatedAt : Timestamp
  deriving DecidableEq, Repr

end Genzh.Domain
