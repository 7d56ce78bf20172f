/-
The database: one table for each the services below read or write, with its primary key, and the
clock `now()` reads. A foreign key or a second unique index is checked by the statement that writes
the row, as the database does.

`SqlM` is the type of every repository call and service method. A statement that fails stops the
call and keeps what the statements before it wrote, unless they share a transaction.
-/
import Genzh.Lib.Table
import Genzh.Lib.Prog
import Genzh.Domain.Platform
import Genzh.Domain.Room
import Genzh.Domain.Message

namespace Genzh.Infrastructure

open Genzh.Lib Genzh.Domain

/-! ## Rows -/

structure User where
  id : UserId
  handle : String
  email : String
  isActive : Bool
  /-- `none` for an account that came from a provider. -/
  passwordHash : Option String := none
  platformRole : PlatformRole := .user
  suspendedAt : Option Timestamp := none
  suspensionReason : Option String := none
  deriving DecidableEq, Repr

structure Profile where
  userId : UserId
  displayName : String
  avatarUrl : Option String
  deriving DecidableEq, Repr

/-- An identity at a provider, linked to an account. -/
structure OAuthAccount where
  userId : UserId
  provider : String
  providerUserId : String
  email : Option String
  deriving DecidableEq, Repr

structure Session where
  id : SessionId
  userId : UserId
  refreshTokenHash : String
  expiresAt : Timestamp
  revokedAt : Option Timestamp
  createdAt : Timestamp
  deriving DecidableEq, Repr

structure Community where
  id : CommunityId
  ownerId : UserId
  isQuarantined : Bool := false
  deriving DecidableEq, Repr

structure CommunityMember where
  communityId : CommunityId
  userId : UserId
  deriving DecidableEq, Repr

structure Role where
  id : RoleId
  communityId : CommunityId
  isDefault : Bool
  name : String := ""
  color : Option String := none
  position : Int := 0
  deriving DecidableEq, Repr

structure MemberRole where
  communityId : CommunityId
  userId : UserId
  roleId : RoleId
  deriving DecidableEq, Repr

structure RolePermission where
  roleId : RoleId
  permissionKey : String
  deriving DecidableEq, Repr

/-- Whether an override grants or revokes. -/
inductive PermissionEffect where
  | allow
  | deny
  deriving DecidableEq, Repr

structure RoomPermission where
  roomId : RoomId
  roleId : RoleId
  permissionKey : String
  effect : PermissionEffect
  deriving DecidableEq, Repr

/-- A row of `rooms`: the room, and the column that dates when it last became empty. -/
structure RoomRow extends Room where
  emptiedAt : Option Timestamp
  deriving DecidableEq, Repr

/-- An invite, as its creator sees it. -/
structure Invite where
  code : String
  communityId : CommunityId
  createdBy : Option UserId
  /-- `none` means it never expires. -/
  expiresAt : Option Timestamp
  /-- `none` means unlimited. -/
  maxUses : Option Int
  uses : Int
  revokedAt : Option Timestamp
  createdAt : Timestamp
  deriving DecidableEq, Repr

structure Block where
  blockerId : UserId
  blockedId : UserId
  createdAt : Timestamp
  deriving DecidableEq, Repr

inductive FriendshipStatus where
  | pending
  | accepted
  | declined
  deriving DecidableEq, Repr

structure Friendship where
  requesterId : UserId
  addresseeId : UserId
  status : FriendshipStatus
  deriving DecidableEq, Repr

instance : HasKey User UserId := ⟨User.id⟩
instance : HasKey Profile UserId := ⟨Profile.userId⟩
instance : HasKey OAuthAccount (String × String) := ⟨fun a => (a.provider, a.providerUserId)⟩
instance : HasKey Session SessionId := ⟨Session.id⟩
instance : HasKey Community CommunityId := ⟨Community.id⟩
instance : HasKey CommunityMember (CommunityId × UserId) := ⟨fun m => (m.communityId, m.userId)⟩
instance : HasKey Role RoleId := ⟨Role.id⟩
instance : HasKey MemberRole (CommunityId × UserId × RoleId) := ⟨fun m => (m.communityId, m.userId, m.roleId)⟩
instance : HasKey RolePermission (RoleId × String) := ⟨fun p => (p.roleId, p.permissionKey)⟩
instance : HasKey RoomPermission (RoomId × RoleId × String) := ⟨fun p => (p.roomId, p.roleId, p.permissionKey)⟩
instance : HasKey RoomRow RoomId := ⟨fun r => r.id⟩
instance : HasKey RoomParticipant (RoomId × UserId) := ⟨fun p => (p.roomId, p.userId)⟩
instance : HasKey RoomAnonymousIdentity (RoomId × UserId) := ⟨fun i => (i.roomId, i.userId)⟩
instance : HasKey Message MessageId := ⟨Message.id⟩
instance : HasKey Invite String := ⟨Invite.code⟩
instance : HasKey Block (UserId × UserId) := ⟨fun b => (b.blockerId, b.blockedId)⟩
instance : HasKey Friendship (UserId × UserId) := ⟨fun f => (f.requesterId, f.addresseeId)⟩

/-! ## The database -/

structure Db where
  /-- What `now()` reads. -/
  now : Timestamp
  users : Table User
  profiles : Table Profile
  oauthAccounts : Table OAuthAccount
  sessions : Table Session
  communities : Table Community
  communityMembers : Table CommunityMember
  roles : Table Role
  memberRoles : Table MemberRole
  rolePermissions : Table RolePermission
  roomPermissions : Table RoomPermission
  rooms : Table RoomRow
  roomParticipants : Table RoomParticipant
  roomAnonymousIdentities : Table RoomAnonymousIdentity
  messages : Table Message
  communityInvites : Table Invite
  blocks : Table Block
  friendships : Table Friendship

namespace Db

/-- A database just migrated. -/
def empty (now : Timestamp) : Db where
  now := now
  users := .empty
  profiles := .empty
  oauthAccounts := .empty
  sessions := .empty
  communities := .empty
  communityMembers := .empty
  roles := .empty
  memberRoles := .empty
  rolePermissions := .empty
  roomPermissions := .empty
  rooms := .empty
  roomParticipants := .empty
  roomAnonymousIdentities := .empty
  messages := .empty
  communityInvites := .empty
  blocks := .empty
  friendships := .empty

/-- Set the clock. -/
def tick (now : Timestamp) (db : Db) : Db := { db with now }

variable (db : Db)

/-- The row of a room. -/
def room (r : RoomId) : Option RoomRow := db.rooms.find r

/-- Has `u` a participant row in `r`? -/
def participates (r : RoomId) (u : UserId) : Bool := db.roomParticipants.contains (r, u)

/-- How many participant rows `r` has. -/
def participantCount (r : RoomId) : Nat := db.roomParticipants.count fun p => p.roomId = r

/-- The participants of `r`, in the order they joined. -/
def participants (r : RoomId) : List UserId := (db.roomParticipants.select fun p => p.roomId = r).map (·.userId)

/-- The foreign keys to `users`, `communities` and `rooms`. -/
def userExists (u : UserId) : Bool := db.users.contains u
def communityExists (c : CommunityId) : Bool := db.communities.contains c
def roomExists (r : RoomId) : Bool := db.rooms.contains r

end Db

/-- What only talks to the database. -/
abbrev RepoM := Prog Db RepositoryError

namespace RepoM

/-- Check a constraint of the statement. -/
def check (c : Db → Bool) (e : RepositoryError) : RepoM Unit := do
  let holds ← Prog.read c
  Prog.ensure holds e

theorem exec_check_bind {α : Type} (c : Db → Bool) (e : RepositoryError) (m : RepoM α) (db : Db) :
    (check c e >>= fun _ => m).exec db = if c db then m.exec db else (.error e, db) := by
  rw [Prog.exec_bind]
  unfold check
  rw [Prog.exec_read_bind, Prog.exec_ensure]
  by_cases h : c db <;> simp [h]

theorem frames_check {γ : Type} {obs : Db → γ} (c : Db → Bool) (e : RepositoryError) : Prog.Frames obs (check c e) :=
  (Prog.Frames.read _).bind fun _ => Prog.Frames.ensure _ _

end RepoM

/-- Repository calls and service methods. -/
abbrev SqlM := Prog Db ServiceError

namespace SqlM

/-- A statement the database refused. -/
def refuse {α : Type} (e : RepositoryError) : SqlM α := Prog.fail (.repository e)

/-- Check a constraint of the statement. -/
def check (c : Db → Bool) (e : RepositoryError) : SqlM Unit := do
  let holds ← Prog.read c
  Prog.ensure holds (.repository e)

/-- `.ok_or_else(|| ServiceError::not_found(entity))?` -/
def found {α : Type} (entity : String) : Option α → SqlM α
  | some a => pure a
  | none => Prog.fail (.notFound entity)

theorem exec_check_bind {α : Type} (c : Db → Bool) (e : RepositoryError) (m : SqlM α) (db : Db) :
    (check c e >>= fun _ => m).exec db = if c db then m.exec db else (.error (.repository e), db) := by
  rw [Prog.exec_bind]
  unfold check
  rw [Prog.exec_read_bind, Prog.exec_ensure]
  by_cases h : c db <;> simp [h]

theorem isOk_check_bind {α : Type} (c : Db → Bool) (e : RepositoryError) (m : SqlM α) (db : Db) :
    ((check c e >>= fun _ => m).exec db).1.isOk = (c db && (m.exec db).1.isOk) := by
  rw [exec_check_bind]
  cases c db <;> rfl

theorem frames_check {γ : Type} {obs : Db → γ} (c : Db → Bool) (e : RepositoryError) : Prog.Frames obs (check c e) :=
  (Prog.Frames.read _).bind fun _ => Prog.Frames.ensure _ _

theorem exec_found_bind {α β : Type} (entity : String) (o : Option α) (f : α → SqlM β) (db : Db) :
    (found entity o >>= f).exec db = match o with
      | some a => (f a).exec db
      | none => (.error (.notFound entity), db) := by
  cases o <;> rfl

end SqlM

/-! ## Participants -/

namespace Db

variable {db : Db} {r : RoomId} {u : UserId}

theorem participates_iff : db.participates r u = true ↔ ∃ p ∈ db.roomParticipants.rows, p.roomId = r ∧ p.userId = u := by
  unfold participates
  rw [Table.contains_iff]
  constructor
  · rintro ⟨p, h⟩
    obtain ⟨hm, hk⟩ := Table.find_eq_some.1 h
    exact ⟨p, hm, congrArg Prod.fst hk, congrArg Prod.snd hk⟩
  · rintro ⟨p, hm, rfl, rfl⟩
    exact ⟨p, Table.mem_iff_find.1 hm⟩

theorem mem_participants : u ∈ db.participants r ↔ db.participates r u = true := by
  rw [participates_iff]
  simp [participants, Table.mem_select]
  tauto

theorem nodup_participants (db : Db) (r : RoomId) : (db.participants r).Nodup := by
  unfold participants Table.select
  have h : ((db.roomParticipants.rows.filter fun p => p.roomId = r).map key).Nodup :=
    db.roomParticipants.nodup.sublist (List.filter_sublist.map _)
  refine List.Nodup.of_map (fun u => (r, u)) ?_
  rw [List.map_map]
  convert h using 1
  apply List.map_congr_left
  intro p hp
  have : p.roomId = r := by simpa using (List.mem_filter.1 hp).2
  simp [← this, key]

theorem participantCount_eq_length : db.participantCount r = (db.participants r).length := by
  simp [participantCount, participants, Table.count, Table.select, List.countP_eq_length_filter]

theorem participantCount_pos : 0 < db.participantCount r ↔ ∃ u, db.participates r u = true := by
  rw [participantCount_eq_length, List.length_pos_iff_exists_mem]
  simp only [mem_participants]

end Db

end Genzh.Infrastructure
