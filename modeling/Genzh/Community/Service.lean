/-
Opening and closing a community. A community is created with its roles, its channels and its owner's
membership in one transaction; deleting it takes its rooms and everything in them with it.
-/
import Genzh.Community.Authorization

namespace Genzh.Community

open Genzh.Lib Genzh.Domain Genzh.Infrastructure

/-- A role a community is created with. -/
structure RoleTemplate where
  isDefault : Bool
  permissions : PermissionSet
  name : String := ""
  color : Option String := none
  position : Int := 0
  deriving DecidableEq, Repr

/-- A room a community is created with. -/
structure RoomTemplate where
  name : String
  topic : Option String
  roomType : RoomType
  position : Int
  deriving DecidableEq, Repr

/-- Expand a mask back into the permissions it holds. -/
def toPermissions (s : PermissionSet) : List Permission := Permission.all.filter fun p => s.contains p.bit

/-- The row of a template's channel: the statement leaves the dates and the cap to their defaults. -/
def templateRow (now : Timestamp) (communityId : CommunityId) (ownerId : UserId) (id : RoomId) (t : RoomTemplate) :
    RoomRow where
  id := id
  communityId := some communityId
  ownerId := some ownerId
  name := t.name
  topic := t.topic
  category := "random"
  roomType := t.roomType
  visibility := .public
  status := .active
  isAnonymous := false
  position := t.position
  maxParticipants := none
  currentParticipants := 0
  startedAt := some now
  expiresAt := none
  endedAt := none
  createdAt := now
  updatedAt := now
  emptiedAt := none

/-- Insert a starter role and its grants. -/
def insertRole (communityId : CommunityId) (role : RoleId × RoleTemplate) : SqlM Unit := do
  SqlM.check (fun db => !db.roles.contains role.1) (.conflict "roles_pkey")
  Prog.modify fun db =>
    { db with
      roles := db.roles.insert
        { id := role.1, communityId, isDefault := role.2.isDefault, name := role.2.name, color := role.2.color,
          position := role.2.position }
      rolePermissions := (toPermissions role.2.permissions).foldl
        (fun t p => t.insert { roleId := role.1, permissionKey := p.toKey }) db.rolePermissions }

/-- Insert a starter channel. -/
def insertTemplateRoom (communityId : CommunityId) (ownerId : UserId) (room : RoomId × RoomTemplate) : SqlM Unit := do
  SqlM.check (fun db => !db.roomExists room.1) (.conflict "rooms_pkey")
  Prog.modify fun db => { db with rooms := db.rooms.insert (templateRow db.now communityId ownerId room.1 room.2) }

/-- Create a community, its starter roles and channels, and its owner's membership. -/
def createCommunity (id : CommunityId) (ownerId : UserId) (roles : List (RoleId × RoleTemplate))
    (rooms : List (RoomId × RoomTemplate)) : SqlM Unit :=
  Prog.transaction do
    SqlM.check (fun db => !db.communityExists id) (.conflict "communities_pkey")
    SqlM.check (fun db => db.userExists ownerId) .foreignKey
    Prog.modify fun db => { db with communities := db.communities.insert { id, ownerId } }
    Prog.forEach roles (insertRole id)
    Prog.forEach rooms (insertTemplateRoom id ownerId)
    Prog.modify fun db =>
      { db with communityMembers := db.communityMembers.insert { communityId := id, userId := ownerId } }

/-- Is it a room of this community? -/
def roomOf (db : Db) (id : CommunityId) (roomId : RoomId) : Bool :=
  (db.room roomId).any fun r => r.communityId = some id

/-- Is it a role of this community? -/
def roleOf (db : Db) (id : CommunityId) (roleId : RoleId) : Bool :=
  (db.roles.find roleId).any fun r => r.communityId = id

/-- `DELETE FROM communities`, with what cascades from it. -/
def deleteCommunityRow (id : CommunityId) (db : Db) : Db :=
  { db with
    communities := db.communities.delete id
    communityMembers := db.communityMembers.deleteWhere fun m => m.communityId = id
    roles := db.roles.deleteWhere fun r => r.communityId = id
    memberRoles := db.memberRoles.deleteWhere fun m => m.communityId = id
    rolePermissions := db.rolePermissions.deleteWhere fun p => roleOf db id p.roleId
    roomPermissions := db.roomPermissions.deleteWhere fun p => roomOf db id p.roomId || roleOf db id p.roleId
    rooms := db.rooms.deleteWhere fun r => r.communityId = some id
    roomParticipants := db.roomParticipants.deleteWhere fun p => roomOf db id p.roomId
    roomAnonymousIdentities := db.roomAnonymousIdentities.deleteWhere fun i => roomOf db id i.roomId
    messages := db.messages.deleteWhere fun m => roomOf db id m.roomId
    communityInvites := db.communityInvites.deleteWhere fun i => i.communityId = id }

/-- Delete a community: its owner only. -/
def deleteCommunity (id : CommunityId) (userId : UserId) : SqlM Unit := do
  let context ← Prog.query fun db => memberContext db id userId
  Prog.ensure context.isOwner (.denied "owner_only")
  Prog.modify (deleteCommunityRow id)

end Genzh.Community
