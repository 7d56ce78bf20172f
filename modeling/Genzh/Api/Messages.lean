/-
What leaves the server about a message: the page of history, the pins and the search results that show it, the events of
its posting, its edit and its deletion, what is recorded for whoever it notifies, and what the audit log keeps. A view
carries the row of the message as it is stored, and beside it the room identity of the author where it is anonymous.

A notification is modelled up to the values it is recorded with.
-/
import Genzh.Api.Persona
import Genzh.Api.Protocol
import Genzh.Messaging.Search
import Genzh.Notification.Dispatch

namespace Genzh.Api.Messages

open Genzh.Lib Genzh.Domain Genzh.Infrastructure Genzh.Room Genzh.Messaging Genzh.Notification

/-! ## Views -/

/-- A message plus everything a client needs to render it. -/
structure MessageView where
  message : Message
  reactions : List ReactionSummary
  /-- The alias of the author, if the message is anonymous. -/
  anonymousAuthor : Option RoomAnonymousIdentity
  deriving DecidableEq, Repr

/-- A page of history. -/
structure HistoryResponse where
  messages : List MessageView
  nextBefore : Option Timestamp
  nextBeforeId : Option MessageId
  deriving DecidableEq, Repr

inductive AuditAction where
  | messageCreated
  | messageEdited
  | messageRemoved
  deriving DecidableEq, Repr

/-- What is worth saying about an action, before it is stored. -/
structure AuditRecord where
  actorId : Option UserId
  actorHandle : Option String
  action : AuditAction
  subjectType : Option String
  subjectId : Option Uuid
  summary : String
  deriving DecidableEq, Repr

namespace AuditRecord

/-- A record with nothing but the essentials. -/
def new (actor : Option UserId) (action : AuditAction) (summary : String) : AuditRecord :=
  { actorId := actor, actorHandle := none, action, subjectType := none, subjectId := none, summary }

/-- What was acted on. -/
def about (record : AuditRecord) (subjectType : String) (subjectId : Uuid) : AuditRecord :=
  { record with subjectType := some subjectType, subjectId := some subjectId }

end AuditRecord

/-- Two lowercase hexadecimal digits. -/
def hexByte (byte : BitVec 8) : String :=
  let digit := fun n : Nat => Char.ofNat (if n < 10 then '0'.toNat + n else 'a'.toNat + (n - 10))
  String.ofList [digit (byte.toNat / 16), digit (byte.toNat % 16)]

/-- `Display` of a UUID: its bytes, with hyphens after the fourth, the sixth, the eighth and the tenth. -/
def uuidText (u : Uuid) : String :=
  let bytes := (Uuid.asBytes u).map hexByte
  let part := fun start length => String.join ((bytes.drop start).take length)
  String.intercalate "-" [part 0 4, part 4 2, part 6 2, part 8 2, part 10 6]

/-! ## Tables -/

/-- A message at the top of its room. -/
structure PinnedMessage where
  roomId : RoomId
  messageId : MessageId
  pinnedBy : Option UserId
  pinnedAt : Timestamp
  deriving DecidableEq, Repr

instance : HasKey PinnedMessage (RoomId × MessageId) := ⟨fun p => (p.roomId, p.messageId)⟩

structure ChatDb extends ReactionDb where
  pinnedMessages : Table PinnedMessage

abbrev ChatM := Prog ChatDb ServiceError

/-- A service that only uses the rest of the database. -/
def overDb {α : Type} (m : SqlM α) : ChatM α := fun db => ((m.exec db.toDb).1, { db with toDb := (m.exec db.toDb).2 })

/-- `.ok()` -/
def tried {α : Type} (m : ChatM α) : ChatM (Option α) := fun db => (.ok (m.exec db).1.toOption, (m.exec db).2)

/-- The room identity of a user. -/
def anonymousIdentity (db : Db) (r : RoomId) (u : UserId) : Option RoomAnonymousIdentity := db.roomAnonymousIdentities.find (r, u)

/-- The room identity of the author, for an anonymous message. -/
def anonymousAuthor (db : Db) (r : RoomId) (m : Message) : Option RoomAnonymousIdentity :=
  if m.isAnonymous then anonymousIdentity db r m.authorId else none

/-- A room's pinned messages, most recently pinned first. -/
def pinnedMessages (db : ChatDb) (r : RoomId) : List Message :=
  (((db.pinnedMessages.select fun p => p.roomId = r).insertionSort fun p q => q.pinnedAt ≤ p.pinnedAt).filterMap
    fun p => db.messages.find p.messageId).take 100

/-! ## Reading -/

/-- A page, as its reader gets it. -/
def historyResponse (db : Db) (r : RoomId) (page : MessagePage) (reactions : Map MessageId (List ReactionSummary)) :
    HistoryResponse where
  messages := page.messages.map fun m => {
    message := m
    reactions := (reactions.get m.id).getD []
    anonymousAuthor := anonymousAuthor db r m }
  nextBefore := page.nextBefore
  nextBeforeId := page.nextBeforeId

/-- `GET /rooms/{id}/messages` -/
def list (db : ChatDb) (r : RoomId) (u : UserId) (before : Option Timestamp) (beforeId : Option MessageId) (limit : Option Int) :
    Except ServiceError HistoryResponse := do
  let _ ← visibleAccess db.toDb r u
  let page ← ((history r u before beforeId limit).exec db.toDb).1
  let reactions ← ((reactionsFor r u (page.messages.map (·.id))).exec db.toReactionDb).1
  .ok (historyResponse db.toDb r page reactions)

/-- `GET /rooms/{id}/pins` -/
def pins (db : ChatDb) (r : RoomId) (u : UserId) : Except ServiceError (List Message) := do
  let _ ← visibleAccess db.toDb r u
  .ok (pinnedMessages db r)

/-! ## Writing -/

/-- What leaves the server when a message is posted. -/
structure Posted where
  message : Message
  event : ChatServerEvent
  notifications : List NewNotification
  audit : Option AuditRecord
  deriving DecidableEq, Repr

/-- The identity a message is sent under, made up for the first one. -/
def identityFor (masked : Bool) (r : RoomId) (u : UserId) : ChatM (Option RoomAnonymousIdentity) :=
  if masked then tried (overDb (getOrCreateAnonymousIdentity r u)) else pure none

/-- Who to name publicly: nobody, for an anonymous message. -/
def publicActor (masked : Bool) (u : UserId) : Option UserId := if masked then none else some u

def createdEvent (message : Message) (identity : Option RoomAnonymousIdentity) : ChatServerEvent :=
  .messageCreated message.roomId message [] identity

def createdAudit (masked : Bool) (u : UserId) (r : RoomId) (message : Message) : AuditRecord :=
  (AuditRecord.new (publicActor masked u) .messageCreated s!"Message created in room {uuidText r.uuid}").about "message"
    message.id.uuid

/-- `POST /rooms/{id}/messages`: what the body says, or else the participant's persona, or else the room's default. -/
def post (env : Surroundings) (id : MessageId) (r : RoomId) (u : UserId) (content : String) (isAnonymous : Option Bool)
    (verdict : Option FloodVerdict) (replyTo : Option MessageId) : ChatM Posted := do
  let a ← Prog.query fun db => visibleAccess db.toDb r u
  let participant ← Prog.read fun db => db.roomParticipants.find (r, u)
  let masked := isAnonymous.getD ((participant.map (·.isAnonymous)).getD a.room.isAnonymous)
  let message ← overDb (Messaging.post id r u content masked verdict replyTo)
  let identity ← identityFor masked r u
  let notifications ← Prog.read fun db => planned env db.toDb a.room message (publicActor masked u)
  pure { message, event := createdEvent message identity, notifications, audit := some (createdAudit masked u r message) }

/-- `send_message`, over a connection that follows the room. -/
def sendMessage (env : Surroundings) (id : MessageId) (r : RoomId) (u : UserId) (content : String) (isAnonymous : Option Bool)
    (verdict : Option FloodVerdict) : ChatM Posted := do
  let masked ← Prog.read fun db => persona db.toDb r u isAnonymous
  let message ← overDb (Messaging.post id r u content masked verdict none)
  let identity ← identityFor masked r u
  let room ← tried (overDb (Room.get r u))
  let notifications ← Prog.read fun db =>
    room.elim [] fun room => planned env db.toDb room message (publicActor masked u)
  pure { message, event := createdEvent message identity, notifications, audit := none }

/-- What leaves the server when a message is edited, and what its author is answered. -/
structure Edited where
  updated : Message
  event : ChatServerEvent
  audit : AuditRecord
  deriving DecidableEq, Repr

/-- `UPDATE messages SET content = .., edited_at = now()`. -/
def updateContent (id : MessageId) (content : String) : ChatM Message := do
  Prog.modify fun db =>
    { db with messages := db.messages.update id (fun m => { m with content, editedAt := some db.now }) fun _ => rfl }
  Prog.query fun db =>
    match db.messages.find id with
    | some updated => .ok updated
    | none => .error (.repository (.notFound "message"))

/-- `PATCH /messages/{id}` -/
def edit (id : MessageId) (u : UserId) (content : String) : ChatM Edited := do
  let content ← Prog.query fun db => checkEdit db.toDb id u content
  let updated ← updateContent id content
  let identity ← Prog.read fun db => anonymousAuthor db.toDb updated.roomId updated
  let reactions ← Prog.read fun db =>
    ((((reactionsFor updated.roomId u [id]).exec db.toReactionDb).1.toOption.bind fun tallies => tallies.get id).getD [])
  pure {
    updated
    event := .messageUpdated updated.roomId updated reactions identity
    audit := (AuditRecord.new (publicActor updated.isAnonymous u) .messageEdited
      s!"Message {uuidText id.uuid} edited in room {uuidText updated.roomId.uuid}").about "message" id.uuid }

/-- What leaves the server when a message is deleted. -/
structure Deleted where
  event : ChatServerEvent
  audit : AuditRecord
  deriving DecidableEq, Repr

/-- What a deletion is refused for: only the author, and whoever manages the room, may. -/
def checkDelete (db : Db) (id : MessageId) (u : UserId) : Except ServiceError Unit := do
  let existing ← findMessage db id
  let a ← visibleAccess db existing.roomId u
  if existing.authorId ≠ u then a.require .manageRoom else .ok ()

/-- `DELETE FROM messages`. The reactions and the pin go with it, and the answers to it stay. -/
def deleteRow (id : MessageId) (db : ChatDb) : ChatDb :=
  { db with
    messages := (db.messages.delete id).updateWhere (fun m => m.replyToId = some id) (fun m => { m with replyToId := none })
      fun _ => rfl
    messageReactions := db.messageReactions.deleteWhere fun reaction => reaction.messageId = id
    pinnedMessages := db.pinnedMessages.deleteWhere fun pin => pin.messageId = id }

/-- `DELETE /messages/{id}` -/
def delete (id : MessageId) (u : UserId) : ChatM Deleted := do
  let message ← Prog.query fun db => findMessage db.toDb id
  Prog.query fun db => checkDelete db.toDb id u
  Prog.modify (deleteRow id)
  pure {
    event := .messageDeleted message.roomId id
    audit := (AuditRecord.new (some u) .messageRemoved s!"Message {uuidText id.uuid} removed").about "message" id.uuid }

end Genzh.Api.Messages
