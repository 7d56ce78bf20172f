/-
Posting into a room and reading its history. A post checks permission first, then the shape of the
text, then what it carries, and only then the flood guard, whose verdict is an argument: a guard that
cannot be asked allows.
-/
import Genzh.Room.Service

namespace Genzh.Messaging

open Genzh.Lib Genzh.Domain Genzh.Infrastructure Genzh.Room

/-- What the flood guard says about one message. -/
inductive FloodVerdict where
  | allowed
  | tooFast (retryAfterSeconds : Nat)
  | repeated (retryAfterSeconds : Nat)
  deriving DecidableEq, Repr

def flooding : String := "You are sending messages too quickly — wait a moment"
def repeating : String := "You have already sent that message — try saying something else"

/-- A verdict as the service reports it; `none` is a guard that is unavailable. -/
def guard : Option FloodVerdict → Except ServiceError Unit
  | none | some .allowed => .ok ()
  | some (.tooFast s) => .error (.domain (.throttled flooding (max 1 s)))
  | some (.repeated s) => .error (.domain (.throttled repeating (max 1 s)))

/-- A reply must point at a message in the same room. -/
def checkReply (db : Db) (roomId : RoomId) : Option MessageId → Except ServiceError Unit
  | none => .ok ()
  | some parentId =>
    match db.messages.find parentId with
    | none => .error (.notFound "message")
    | some parent => if parent.roomId = roomId then .ok () else .error (.notFound "message")

/-- Insert a message. -/
def insertMessage (message : Message) : SqlM Message := do
  SqlM.check (fun db => !db.messages.contains message.id) (.conflict "messages_pkey")
  SqlM.check (fun db => db.roomExists message.roomId && db.userExists message.authorId &&
    message.replyToId.all db.messages.contains) .foreignKey
  let now ← Prog.read Db.now
  let created := { message with createdAt := now }
  Prog.modify fun db => { db with messages := db.messages.insert created }
  pure created

/-- What a post is refused for before anything is written, and the text it stores otherwise. -/
def checkPost (db : Db) (roomId : RoomId) (authorId : UserId) (content : String) (verdict : Option FloodVerdict)
    (replyToId : Option MessageId) : Except ServiceError String := do
  let a ← visibleAccess db roomId authorId
  a.require .sendMessage
  let content ← liftDomain (validateMessageContent content)
  liftDomain (checkContent content)
  guard verdict
  checkReply db roomId replyToId
  .ok content

/-- Post a message. -/
def post (id : MessageId) (roomId : RoomId) (authorId : UserId) (content : String) (isAnonymous : Bool)
    (verdict : Option FloodVerdict) (replyToId : Option MessageId) : SqlM Message := do
  let content ← Prog.query fun db => checkPost db roomId authorId content verdict replyToId
  let createdAt ← Prog.read Db.now
  insertMessage { id, roomId, authorId, content, replyToId, isAnonymous, editedAt := none, createdAt }

/-! ## History -/

/-- One page of history, newest first, and the cursor of the next. -/
structure MessagePage where
  messages : List Message
  nextBefore : Option Timestamp
  nextBeforeId : Option MessageId
  deriving DecidableEq, Repr

/-- `ORDER BY created_at DESC, id DESC`. -/
def newestFirst (m n : Message) : Bool :=
  n.createdAt < m.createdAt || (n.createdAt = m.createdAt && n.id.uuid.toNat ≤ m.id.uuid.toNat)

/-- Is the message older than the cursor? -/
def beforeCursor (before : Option Timestamp) (beforeId : Option MessageId) (m : Message) : Bool :=
  match before, beforeId with
  | some t, some i => m.createdAt < t || (m.createdAt = t && m.id.uuid.toNat < i.uuid.toNat)
  | some t, none => m.createdAt < t
  | none, _ => true

/-- A page of a room's messages: one more row is fetched to learn whether another page exists. -/
def listMessages (db : Db) (roomId : RoomId) (before : Option Timestamp) (beforeId : Option MessageId) (limit : Nat) :
    MessagePage :=
  let rows := (db.messages.select fun m => m.roomId = roomId && beforeCursor before beforeId m).insertionSort
    fun m n => newestFirst m n
  let fetched := rows.take (limit + 1)
  let messages := fetched.take limit
  let last := if limit < fetched.length then messages.getLast? else none
  { messages, nextBefore := last.map (·.createdAt), nextBeforeId := last.map (·.id) }

/-- Read history. -/
def history (roomId : RoomId) (userId : UserId) (before : Option Timestamp) (beforeId : Option MessageId)
    (limit : Option Int) : SqlM MessagePage := do
  let _ ← Prog.query fun db => visibleAccess db roomId userId
  Prog.read fun db => listMessages db roomId before beforeId (clampPageSize limit).toNat

end Genzh.Messaging
