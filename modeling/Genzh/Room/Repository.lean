/-
The statements of the room repository. A transaction of several statements is one `transaction`; the
recount of the two columns derived from the participant rows, `currentParticipants` and `emptiedAt`,
is a statement of its own, as every path that adds or removes a participant is meant to end with it.

Where the database leaves an order open (two rows with one `joined_at`, two conversations with one
`updated_at`), the row inserted first is taken.
-/
import Genzh.Infrastructure.Db

namespace Genzh.Room

open Genzh.Lib Genzh.Domain Genzh.Infrastructure

/-- Input for updating a room. -/
structure UpdateRoom where
  name : Option String := none
  topic : Option String := none
  category : Option String := none
  visibility : Option RoomVisibility := none
  status : Option RoomStatus := none
  position : Option Int := none
  maxParticipants : Option Int := none
  deriving DecidableEq, Repr

/-! ## Statements -/

/-- What a recount writes: how many participant rows there are, and since when there is none. -/
def recountRow (now : Timestamp) (total : Nat) (r : RoomRow) : RoomRow :=
  { r with
    currentParticipants := total
    emptiedAt := if 0 < total then none else r.emptiedAt.or (some now) }

/-- Bring `currentParticipants` and `emptiedAt` back in line with the participant rows of a room. -/
def recountParticipants (roomId : RoomId) (db : Db) : Db :=
  { db with rooms := db.rooms.update roomId (recountRow db.now (db.participantCount roomId)) fun _ => rfl }

/-- `INSERT INTO room_participants .. ON CONFLICT DO UPDATE SET last_seen_at = now()`. -/
def insertParticipant (roomId : RoomId) (userId : UserId) (role : RoomParticipantRole) (db : Db) : Db :=
  let row : RoomParticipant :=
    { roomId, userId, role, isMuted := false, isAnonymous := false, joinedAt := db.now, lastSeenAt := db.now }
  { db with roomParticipants := db.roomParticipants.upsert row (fun p => { p with lastSeenAt := db.now }) fun _ => rfl }

/-- `DELETE FROM room_participants` of one user in one room. -/
def deleteParticipant (roomId : RoomId) (userId : UserId) (db : Db) : Db :=
  { db with roomParticipants := db.roomParticipants.delete (roomId, userId) }

/-- Is the row a participant of a room in status `ended`? -/
def inEndedRoom (db : Db) (p : RoomParticipant) : Bool := (db.room p.roomId).any fun r => r.status = .ended

/-- `DELETE FROM room_participants` of every room in status `ended`. -/
def deleteParticipantsOfEnded (db : Db) : Db :=
  { db with roomParticipants := db.roomParticipants.deleteWhere (inEndedRoom db) }

/-- A room set to `ended` by a job: the moment it first ended is kept. -/
def endRoom (now : Timestamp) (r : RoomRow) : RoomRow :=
  { r with status := .ended, endedAt := r.endedAt.or (some now) }

/-- The rooms whose duration has elapsed. -/
def elapsed (now : Timestamp) (r : RoomRow) : Bool := r.status = .active && r.expiresAt.any fun exp => exp ≤ now

/-- The playground rooms that have been empty for the whole of `grace`. -/
def abandoned (now : Timestamp) (grace : Duration) (r : RoomRow) : Bool :=
  r.status = .active && r.communityId.isNone && r.category ≠ directCategory && r.currentParticipants = 0 &&
    r.emptiedAt.any fun t => t ≤ now - grace

/-- `UPDATE rooms SET status = 'ended'` of the rooms a job picks. -/
def endRooms (p : RoomRow → Bool) (db : Db) : Db :=
  { db with rooms := db.rooms.updateWhere p (endRoom db.now) fun _ => rfl }

/-- `DELETE FROM rooms`, with what cascades from it. -/
def deleteRoomRow (id : RoomId) (db : Db) : Db :=
  { db with
    rooms := db.rooms.delete id
    roomParticipants := db.roomParticipants.deleteWhere fun p => p.roomId = id
    roomAnonymousIdentities := db.roomAnonymousIdentities.deleteWhere fun i => i.roomId = id
    messages := db.messages.deleteWhere fun m => m.roomId = id
    roomPermissions := db.roomPermissions.deleteWhere fun p => p.roomId = id }

/-- `COALESCE` of every column an update names, and the time of the update. -/
def updateRow (now : Timestamp) (input : UpdateRoom) (r : RoomRow) : RoomRow :=
  { r with
    name := input.name.getD r.name
    topic := input.topic.or r.topic
    category := input.category.getD r.category
    visibility := input.visibility.getD r.visibility
    status := input.status.getD r.status
    position := input.position.getD r.position
    maxParticipants := input.maxParticipants.or r.maxParticipants
    updatedAt := now }

/-- The `CHECK` on `max_participants`. -/
def capPositive (r : Room) : Bool := r.maxParticipants.all fun m => 0 < m

/-! ## Reads -/

/-- The other participant of a direct room: the earliest joiner other than the caller. -/
def directPeer (db : Db) (roomId : RoomId) (userId : UserId) : Option UserId :=
  (db.roomParticipants.selectFirst (fun p => p.roomId = roomId && p.userId ≠ userId)
    fun p q => p.joinedAt < q.joinedAt).map (·.userId)

/-- Is the room a direct conversation: category `dm` and no community? -/
def isConversation (r : RoomRow) : Bool := r.category = directCategory && r.communityId.isNone

/-- An existing direct message room between two users, the one updated last. -/
def findDirectRoom (db : Db) (a b : UserId) : Option Room :=
  (db.rooms.selectFirst (fun r => isConversation r && db.participates r.id a && db.participates r.id b)
    fun r r' => r'.updatedAt < r.updatedAt).map (·.toRoom)

/-! ## Calls -/

/-- Insert a room. The columns the statement does not bind take their defaults. -/
def insertRoom (room : Room) : SqlM Room := do
  SqlM.check (fun _ => capPositive room && room.expiresAt.all Timestamp.storable) .database
  SqlM.check (fun db => !db.roomExists room.id) (.conflict "rooms_pkey")
  SqlM.check (fun db => room.communityId.all db.communityExists && room.ownerId.all db.userExists) .foreignKey
  let now ← Prog.read Db.now
  let created := { room with createdAt := now, updatedAt := now }
  Prog.modify fun db => { db with rooms := db.rooms.insert { toRoom := created, emptiedAt := none } }
  pure created

/-- Partially update a room. -/
def updateRoom (id : RoomId) (input : UpdateRoom) : SqlM Room := do
  let now ← Prog.read Db.now
  let row ← Prog.read fun db => db.room id
  match row with
  | none => SqlM.refuse (.notFound "room")
  | some row => do
    let updated := updateRow now input row
    SqlM.check (fun _ => capPositive updated.toRoom) .database
    Prog.modify fun db => { db with rooms := db.rooms.update id (updateRow now input) fun _ => rfl }
    pure updated.toRoom

/-- Delete a room. Its participants, identities, messages and overrides go with it. -/
def deleteRoom (id : RoomId) : SqlM Bool := do
  let present ← Prog.read fun db => db.roomExists id
  Prog.modify (deleteRoomRow id)
  pure present

/-- Get or create the room-scoped anonymous identity of a user. -/
def getOrCreateAnonymousIdentity (roomId : RoomId) (userId : UserId) : SqlM RoomAnonymousIdentity := do
  let existing ← Prog.read fun db => db.roomAnonymousIdentities.find (roomId, userId)
  match existing with
  | some identity => pure identity
  | none => do
    let (aliasName, avatarSeed, accentColor) := generateAnonymousIdentity roomId userId
    SqlM.check (fun db => db.roomAnonymousIdentities.rows.all fun i => i.roomId ≠ roomId || i.aliasName ≠ aliasName)
      (.conflict "room_anon_unique_alias")
    SqlM.check (fun db => db.roomExists roomId && db.userExists userId) .foreignKey
    let createdAt ← Prog.read Db.now
    let identity := { roomId, userId, aliasName, avatarSeed, accentColor, createdAt }
    Prog.modify fun db => { db with roomAnonymousIdentities := db.roomAnonymousIdentities.insert identity }
    pure identity

/-- Join a room as a participant. -/
def joinRoom (roomId : RoomId) (userId : UserId) (role : RoomParticipantRole) : SqlM (Option RoomParticipant) :=
  Prog.transaction do
    SqlM.check (fun db => db.participates roomId userId || (db.roomExists roomId && db.userExists userId)) .foreignKey
    Prog.modify (insertParticipant roomId userId role)
    let participant ← Prog.read fun db => db.roomParticipants.find (roomId, userId)
    Prog.modify (recountParticipants roomId)
    pure participant

/-- Leave a room. -/
def leaveRoom (roomId : RoomId) (userId : UserId) : SqlM Bool :=
  Prog.transaction do
    let present ← Prog.read fun db => db.participates roomId userId
    Prog.modify (deleteParticipant roomId userId)
    Prog.modify (recountParticipants roomId)
    pure present

/-- Set a participant's active persona. -/
def setParticipantPersona (roomId : RoomId) (userId : UserId) (isAnonymous : Bool) : SqlM (Option RoomParticipant) := do
  let now ← Prog.read Db.now
  let set := fun p : RoomParticipant => { p with isAnonymous, lastSeenAt := now }
  Prog.modify fun db =>
    { db with roomParticipants := db.roomParticipants.update (roomId, userId) set fun _ => rfl }
  Prog.read fun db => db.roomParticipants.find (roomId, userId)

/-- End rooms whose duration has elapsed. -/
def expireEphemeralRooms : SqlM Nat :=
  Prog.transaction do
    let now ← Prog.read Db.now
    let expired ← Prog.read fun db => db.rooms.count (elapsed now)
    Prog.modify (endRooms (elapsed now))
    if 0 < expired then Prog.modify deleteParticipantsOfEnded
    pure expired

/-- End playground rooms that everybody has left. -/
def endEmptyPlaygroundRooms (grace : Duration) : SqlM Nat :=
  Prog.transaction do
    let now ← Prog.read Db.now
    let ended ← Prog.read fun db => db.rooms.count (abandoned now grace)
    Prog.modify (endRooms (abandoned now grace))
    pure ended

end Genzh.Room
