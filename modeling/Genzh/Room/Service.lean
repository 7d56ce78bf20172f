/-
The room application service. `access` resolves what a caller may do in a room: by their roles when a
community stands behind it, and otherwise by ownership alone. `visibleAccess` is the check every
reader and writer of a room's content makes first; for a direct conversation it also asks whether a
block stands between the caller and the peer.

The identifier a call draws at random is an argument of it, and a call reads the clock once.
-/
import Genzh.Room.Repository
import Genzh.Community.Authorization
import Genzh.Social.Service

namespace Genzh.Room

open Genzh.Lib Genzh.Domain Genzh.Infrastructure Genzh.Community Genzh.Social

/-- A caller's resolved standing in one room. -/
structure RoomAccess where
  room : Room
  member : Option MemberContext
  permissions : PermissionSet
  deriving DecidableEq, Repr

/-- Assert a permission, or fail with a typed error. -/
def RoomAccess.require (a : RoomAccess) (p : Permission) : Except ServiceError Unit :=
  if a.permissions.allows p then .ok () else .error (.denied p.toKey)

/-- Input for creating a room. -/
structure CreateRoom where
  name : String
  topic : Option String := none
  category : Option String := none
  roomType : RoomType
  visibility : Option RoomVisibility := none
  isAnonymous : Bool := false
  durationMinutes : Option Int := none
  position : Option Int := none
  maxParticipants : Option Int := none
  participantIds : Option (List UserId) := none
  deriving DecidableEq, Repr

/-! ## Access -/

/-- What a standalone room grants: everything to its owner, and to anyone else the default set with
screen share, since there is no role here that could grant it later. -/
def standalonePermissions (room : Room) (userId : UserId) : PermissionSet :=
  if room.ownerId = some userId then PermissionSet.administrator
  else PermissionSet.defaultMember ||| Permission.screenShare.bit

/-- Resolve a caller's standing in a room. -/
def access (db : Db) (roomId : RoomId) (userId : UserId) : Except ServiceError RoomAccess :=
  match db.room roomId with
  | none => .error (.notFound "room")
  | some row =>
    match row.communityId with
    | some communityId => do
      let member ← memberContext db communityId userId
      let permissions := applyRoomOverrides member.permissions member.roleIds (roomOverrides db roomId)
      .ok { room := row.toRoom, member := some member, permissions }
    | none => .ok { room := row.toRoom, member := none, permissions := standalonePermissions row.toRoom userId }

/-- In a direct conversation, nothing stands between the caller and the peer. -/
def ensurePeer (db : Db) (room : Room) (roomId : RoomId) (userId : UserId) : Except ServiceError Unit :=
  if room.isDirect then
    match directPeer db roomId userId with
    | some peer => ensureCanReach db userId peer
    | none => .ok ()
  else .ok ()

/-- Resolve access and assert the room is visible. -/
def visibleAccess (db : Db) (roomId : RoomId) (userId : UserId) : Except ServiceError RoomAccess := do
  let a ← access db roomId userId
  a.require .viewRoom
  ensurePeer db a.room roomId userId
  .ok a

/-! ## Creating a room -/

/-- Is a room of this category outside any community a playground room? -/
def isPlayground (communityId : Option CommunityId) (category : String) : Bool :=
  communityId.isNone && category ≠ directCategory

/-- The lifetime a new room gets. A playground room always has one, within the ceiling. -/
def roomDuration (communityId : Option CommunityId) (category : String) (minutes : Option Int) : Option Int :=
  if isPlayground communityId category then
    some (max 1 (min (minutes.getD defaultPlaygroundTtlMinutes) maxPlaygroundTtlMinutes))
  else minutes

/-- When a new room expires; fails where the arithmetic panics. -/
def roomExpiry (now : Timestamp) : Option Int → Except ServiceError (Option Timestamp)
  | none => .ok none
  | some minutes =>
    match (Duration.minutes minutes).bind (Timestamp.add now) with
    | some t => .ok (some t)
    | none => .error .panicked

/-- The participant cap a new room gets, once it is in range. -/
def validateCap (limit : Option Int) : Except DomainError Unit :=
  if limit.any fun m => m ≤ 0 || mediaRoomMaxParticipants < m then
    .error (.invalid "max_participants" s!"must be between 1 and {mediaRoomMaxParticipants}")
  else .ok ()

/-- Inside a community, creating a room takes the permission to manage them. -/
def ensureMayCreate (db : Db) (communityId : Option CommunityId) (userId : UserId) : Except ServiceError Unit :=
  match communityId with
  | some cid => do
    let context ← memberContext db cid userId
    context.require .manageRoom
  | none => .ok ()

/-- The room a creation inserts, or why it is refused. -/
def newRoom (db : Db) (id : RoomId) (communityId : Option CommunityId) (userId : UserId) (input : CreateRoom) :
    Except ServiceError Room := do
  ensureMayCreate db communityId userId
  let name ← liftDomain (validateRoomName input.name)
  liftDomain (validateCap input.maxParticipants)
  let category := input.category.getD "random"
  let expiresAt ← roomExpiry db.now (roomDuration communityId category input.durationMinutes)
  .ok {
    id, communityId, ownerId := some userId, name, topic := input.topic, category
    roomType := input.roomType
    visibility := input.visibility.getD .public
    status := .active
    isAnonymous := input.isAnonymous
    position := input.position.getD 0
    maxParticipants := if input.roomType.isMedia then input.maxParticipants else none
    currentParticipants := 1
    startedAt := some db.now
    expiresAt
    endedAt := none
    createdAt := db.now
    updatedAt := db.now }

/-- Give a participant of a new room a place, whatever comes of it. -/
def seat (created : Room) (userId : UserId) (role : RoomParticipantRole) : SqlM Unit := do
  Prog.attempt (joinRoom created.id userId role)
  if created.isAnonymous then Prog.attempt (getOrCreateAnonymousIdentity created.id userId)

/-- The participants a creation names besides the creator. -/
def invited (userId : UserId) (input : CreateRoom) : List UserId :=
  (input.participantIds.getD []).filter fun pid => pid ≠ userId

/-- Create a room, inside a community or as a standalone one. -/
def create (id : RoomId) (communityId : Option CommunityId) (userId : UserId) (input : CreateRoom) : SqlM Room := do
  let candidate ← Prog.query fun db => newRoom db id communityId userId input
  let created ← insertRoom candidate
  seat created userId .owner
  Prog.forEach (invited userId input) fun pid => seat created pid .participant
  pure created

/-! ## Being in a room -/

/-- Fetch a room the caller can see. -/
def get (roomId : RoomId) (userId : UserId) : SqlM Room := do
  let a ← Prog.query fun db => visibleAccess db roomId userId
  pure a.room

/-- The identity somebody who joins an anonymous room gets. -/
def joinIdentity (room : Room) (roomId : RoomId) (userId : UserId) : SqlM (Option RoomAnonymousIdentity) :=
  if room.isAnonymous then do
    let identity ← getOrCreateAnonymousIdentity roomId userId
    pure (some identity)
  else pure none

/-- Join a room; in an anonymous one this assigns the identity. -/
def join (roomId : RoomId) (userId : UserId) : SqlM (Room × Option RoomAnonymousIdentity) := do
  let a ← Prog.query fun db => visibleAccess db roomId userId
  let role := if a.room.ownerId = some userId then RoomParticipantRole.owner else .participant
  let _ ← joinRoom roomId userId role
  let identity ← joinIdentity a.room roomId userId
  let updated ← Prog.read fun db => db.room roomId
  pure ((updated.map (·.toRoom)).getD a.room, identity)

/-- Leave a room. -/
def leave (roomId : RoomId) (userId : UserId) : SqlM Bool := leaveRoom roomId userId

/-- Switch a participant between their public and anonymous persona. -/
def setPersona (roomId : RoomId) (userId : UserId) (isAnonymous : Bool) : SqlM RoomParticipant := do
  let _ ← Prog.query fun db => visibleAccess db roomId userId
  let row ← setParticipantPersona roomId userId isAnonymous
  SqlM.found "participant" row

/-- Update a room. The name is replaced by the normalised one. -/
def update (roomId : RoomId) (userId : UserId) (input : UpdateRoom) : SqlM Room := do
  let a ← Prog.query fun db => access db roomId userId
  Prog.lift (a.require .manageRoom)
  let name ← Prog.lift (liftDomain (input.name.mapM validateRoomName))
  updateRoom roomId { input with name }

/-- Delete a room. -/
def delete (roomId : RoomId) (userId : UserId) : SqlM Unit := do
  let a ← Prog.query fun db => access db roomId userId
  Prog.lift (a.require .manageRoom)
  let gone ← deleteRoom roomId
  Prog.ensure gone (.notFound "room")

end Genzh.Room
