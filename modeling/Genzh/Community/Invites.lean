/-
Invite links. A code is short, revocable, and can be given a life of its own: an expiry, a use limit. Whether
a link works is asked in three places, and written three times: of the row that was read, in the statement
that claims a use, and, the other way round, in the statement that prunes.
-/
import Genzh.Community.Authorization

namespace Genzh.Community

open Genzh.Lib Genzh.Domain Genzh.Infrastructure

/-! ## Codes -/

/-- Characters an invite code is built from. -/
def inviteAlphabet : List Char := "23456789abcdefghjkmnpqrstuvwxyzABCDEFGHJKMNPQRSTUVWXYZ".toList

def inviteCodeLen : Nat := 8

/-- A short, unambiguous code: the first bytes of a random UUID, folded into the alphabet. -/
def generateCode (draw : Uuid) : String :=
  String.ofList ((draw.asBytes.take inviteCodeLen).map fun byte =>
    inviteAlphabet.getD (byte.toNat % inviteAlphabet.length) '2')

/-! ## Which links work -/

/-- Would this link work right now? -/
def isUsable (now : Timestamp) (i : Invite) : Bool :=
  if i.revokedAt.isSome then false
  else if i.expiresAt.any fun expires => expires ≤ now then false
  else if i.maxUses.any fun max => max ≤ i.uses then false
  else true

/-- The condition of the statement that claims a use. -/
def claimable (now : Timestamp) (i : Invite) : Bool :=
  i.revokedAt.isNone && i.expiresAt.all (fun expires => now < expires) && i.maxUses.all fun max => i.uses < max

/-- Seven days. -/
def inviteRetention : Duration := 7 * 24 * 3600 * 1000000

/-- The condition of the statement that prunes. -/
def isStale (now : Timestamp) (i : Invite) : Bool :=
  i.expiresAt.any (fun expires => expires < now - inviteRetention) ||
    i.revokedAt.any (fun revoked => revoked < now - inviteRetention) ||
    (i.maxUses.any (fun max => max ≤ i.uses) && decide (i.createdAt < now - inviteRetention))

/-! ## Statements -/

/-- The last value of an `INTEGER` column. -/
def maxInteger : Int := 2147483647

/-- `INSERT INTO community_invites`. -/
def insertInvite (code : String) (communityId : CommunityId) (userId : UserId) (expiresAt : Option Timestamp)
    (maxUses : Option Int32) : SqlM Invite := do
  SqlM.check (fun _ => expiresAt.all Timestamp.storable && maxUses.all fun max => decide (0 < max.toInt)) .database
  SqlM.check (fun db => !db.communityInvites.contains code) (.conflict "community_invites_pkey")
  SqlM.check (fun db => db.communityExists communityId && db.userExists userId) .foreignKey
  let now ← Prog.read Db.now
  let invite : Invite :=
    { code, communityId, createdBy := some userId, expiresAt, maxUses := maxUses.map Int32.toInt, uses := 0,
      revokedAt := none, createdAt := now }
  Prog.modify fun db => { db with communityInvites := db.communityInvites.insert invite }
  pure invite

def findInvite (db : Db) (code : String) : Except ServiceError Invite :=
  match db.communityInvites.find code with
  | some invite => .ok invite
  | none => .error (.notFound "invite")

/-- Claim a use: the row is counted up where the condition holds, and the count has to fit its column. -/
def claimUse (code : String) : SqlM (Option CommunityId) := do
  let claimed ← Prog.read fun db => (db.communityInvites.find code).filter (claimable db.now)
  match claimed with
  | none => pure none
  | some invite => do
    SqlM.check (fun _ => invite.uses + 1 ≤ maxInteger) .database
    Prog.modify fun db =>
      { db with communityInvites := db.communityInvites.update code (fun i => { i with uses := i.uses + 1 }) fun _ => rfl }
    pure (some invite.communityId)

/-- `UPDATE community_invites SET revoked_at = now()`. -/
def revokeInviteRow (code : String) : SqlM Unit :=
  Prog.modify fun db =>
    { db with communityInvites := db.communityInvites.update code (fun i => { i with revokedAt := some db.now }) fun _ => rfl }

/-- Prune invites that expired, were revoked, or reached max uses over 7 days ago. -/
def pruneExpiredInvites : SqlM Nat := do
  let pruned ← Prog.read fun db => db.communityInvites.count (isStale db.now)
  Prog.modify fun db => { db with communityInvites := db.communityInvites.deleteWhere (isStale db.now) }
  pure pruned

/-- Insert a membership, and the default role with it. -/
def addMemberRow (communityId : CommunityId) (userId : UserId) : SqlM CommunityMember :=
  Prog.transaction do
    SqlM.check (fun db => !db.communityMembers.contains (communityId, userId)) (.conflict "community_members_pkey")
    SqlM.check (fun db => db.communityExists communityId && db.userExists userId) .foreignKey
    Prog.modify fun db => { db with communityMembers := db.communityMembers.insert { communityId, userId } }
    Prog.modify fun db =>
      { db with
        memberRoles := (db.roles.select fun r => r.communityId = communityId && r.isDefault).foldl
          (fun t r => t.insert { communityId, userId, roleId := r.id }) db.memberRoles }
    pure { communityId, userId }

/-! ## The service -/

/-- Add a member: callers may add themselves or, with `manage_members`, somebody else. -/
def addMember (communityId : CommunityId) (actorId targetId : UserId) : SqlM CommunityMember := do
  Prog.query fun db =>
    if actorId ≠ targetId then do
      let context ← memberContext db communityId actorId
      context.require .manageMembers
    else if db.communityExists communityId then .ok () else .error (.notFound "community")
  Prog.query fun db =>
    if db.communityMembers.contains (communityId, targetId) then .error (.domain (.conflict "membership")) else .ok ()
  addMemberRow communityId targetId

/-- When an invite stops working. -/
def inviteExpiry (now : Timestamp) : Option Int → Except ServiceError (Option Timestamp)
  | none => .ok none
  | some hours =>
    match (Duration.hours hours).bind (Timestamp.add now) with
    | some expiresAt => .ok (some expiresAt)
    | none => .error .panicked

def isConflict : ServiceError → Bool
  | .repository (.conflict _) => true
  | _ => false

/-- How often a code is drawn. -/
def codeAttempts : Nat := 5

/-- Insert an invite under the first code that is free, `left` attempts being left before the `n`-th draw. -/
def mintInvite (communityId : CommunityId) (userId : UserId) (expiresAt : Option Timestamp) (maxUses : Option Int32)
    (draws : Nat → Uuid) : Nat → Nat → SqlM Invite
  | 0, _ => Prog.fail (.invalid "code" "could not mint a unique invite code")
  | left + 1, n =>
    Prog.orElse (insertInvite (generateCode (draws n)) communityId userId expiresAt maxUses) isConflict
      (mintInvite communityId userId expiresAt maxUses draws left (n + 1))

/-- Mint a code. -/
def createInvite (communityId : CommunityId) (userId : UserId) (expiresInHours : Option Int) (maxUses : Option Int32)
    (draws : Nat → Uuid) : SqlM Invite := do
  let context ← Prog.query fun db => memberContext db communityId userId
  Prog.lift (context.require .manageMembers)
  Prog.ensure (maxUses.all fun max => decide (0 < max.toInt)) (.invalid "max_uses" "must be greater than zero")
  let now ← Prog.read Db.now
  let expiresAt ← Prog.lift (inviteExpiry now expiresInHours)
  mintInvite communityId userId expiresAt maxUses draws codeAttempts 0

/-- The invite a preview is of. -/
def previewed (db : Db) (code : String) : Except ServiceError Invite := do
  let invite ← findInvite db code
  if isUsable db.now invite then .ok invite else .error (.notFound "invite")

/-- Redeem a code: join the community it points at. -/
def redeemInvite (code : String) (userId : UserId) : SqlM CommunityId := do
  let claimed ← claimUse code
  let communityId ← SqlM.found "invite" claimed
  Prog.orElse
    (do let _ ← addMember communityId userId userId
        pure communityId)
    isConflict (pure communityId)

/-- Stop a link working, keeping the row so it can still be explained. -/
def revokeInvite (code : String) (userId : UserId) : SqlM Unit := do
  let invite ← Prog.query fun db => findInvite db code
  let context ← Prog.query fun db => memberContext db invite.communityId userId
  Prog.lift (context.require .manageMembers)
  revokeInviteRow code

/-! ## The three conditions -/

section Conditions

variable {now : Timestamp} {i : Invite}

theorem claimable_iff : claimable now i = true ↔
    i.revokedAt = none ∧ (∀ expires, i.expiresAt = some expires → now < expires) ∧ ∀ max, i.maxUses = some max → i.uses < max := by
  unfold claimable
  rw [Bool.and_eq_true, Bool.and_eq_true, Option.isNone_iff_eq_none, Option.all_eq_true, Option.all_eq_true]
  simp [and_assoc]

/-- The row that was read is asked what the statement that claims a use asks. -/
theorem isUsable_eq_claimable : isUsable now i = claimable now i := by
  unfold isUsable claimable
  have hnot : ∀ a b : Int, (!decide (a ≤ b)) = decide (b < a) := by
    intro a b
    rw [← decide_not, decide_eq_decide, not_le]
  rcases i.revokedAt with _ | revoked
  · rcases i.expiresAt with _ | expires <;> rcases i.maxUses with _ | max <;> simp [← hnot]
  · simp

end Conditions

end Genzh.Community
