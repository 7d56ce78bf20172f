/-
What travels over the chat socket to the client, and which of the published events a connection takes. Every
connection reads the same stream and filters it for itself: by the rooms it is subscribed to, by the user it is
authenticated as, and by whether that user was staff then.
-/
import Genzh.Api.Session
import Genzh.Domain.Notification
import Genzh.Messaging.Reactions

namespace Genzh.Api

open Genzh.Lib Genzh.Domain Genzh.Messaging

/-- Which part of the console an event refers to. -/
inductive ConsoleTopic where
  | supportQueue
  | liveMedia
  | broadcasts
  | users
  | auditLog
  deriving DecidableEq, Repr

/-- Why a ringing call stopped. -/
inductive CallEndReason where
  | cancelled
  | declined
  | ended
  deriving DecidableEq, Repr

/-- Events for clients. -/
inductive ChatServerEvent where
  | authenticated (userId : UserId)
  | subscribed (roomId : RoomId)
  | unsubscribed (roomId : RoomId)
  | messageCreated (roomId : RoomId) (message : Message) (reactions : List ReactionSummary)
      (anonymousAuthor : Option RoomAnonymousIdentity)
  | messageUpdated (roomId : RoomId) (message : Message) (reactions : List ReactionSummary)
      (anonymousAuthor : Option RoomAnonymousIdentity)
  | messageDeleted (roomId : RoomId) (messageId : MessageId)
  | reactionsUpdated (roomId : RoomId) (messageId : MessageId) (reactions : List ReactionSummary)
  | notificationCreated (userId : UserId) (notification : Notification) (isNew : Bool)
  | presenceChanged (userId : UserId) (online : Bool)
  | callRinging (userId : UserId) (roomId : RoomId) (fromUserId : UserId) (fromDisplayName : String) (video : Bool)
  | callEnded (userId : UserId) (roomId : RoomId) (fromUserId : UserId) (reason : CallEndReason)
  | directRoomOpened (userId : UserId) (roomId : RoomId)
  | typing (roomId : RoomId) (userId : UserId) (displayName : String) (isTyping : Bool)
  | consoleChanged (topic : ConsoleTopic)
  | pong
  | error (message : String)
  deriving DecidableEq, Repr

namespace ChatServerEvent

/-- Room this event belongs to, if it is room-scoped. -/
def roomId : ChatServerEvent → Option RoomId
  | messageCreated roomId .. | messageUpdated roomId .. | messageDeleted roomId _ | reactionsUpdated roomId .. |
    typing roomId .. => some roomId
  | _ => none

/-- Does this event reach staff only? -/
def requiresStaff : ChatServerEvent → Bool
  | consoleChanged _ => true
  | _ => false

/-- The one user this event is addressed to, if it is user-scoped. -/
def targetUser : ChatServerEvent → Option UserId
  | directRoomOpened userId _ | notificationCreated userId .. | callRinging userId .. | callEnded userId .. => some userId
  | _ => none

/-- An event has one scope. -/
theorem scopes_apart {e : ChatServerEvent} {r : RoomId} (h : e.roomId = some r) : e.requiresStaff = false ∧ e.targetUser = none := by
  cases e <;> first | exact ⟨rfl, rfl⟩ | cases h

end ChatServerEvent

/-- Should a published event reach this connection? `isStaff` is whether its user was staff when it authenticated. -/
def Session.accepts (isStaff : Bool) (s : Session) (e : ChatServerEvent) : Bool :=
  if e.requiresStaff && !isStaff then false
  else if e.roomId.any fun roomId => !s.isSubscribed roomId then false
  else
    match e.targetUser with
    | some target => s.currentUser = some target
    | none => true

/-- An event of a room reaches the connections subscribed to it. -/
theorem Session.accepts_room {isStaff : Bool} {s : Session} {e : ChatServerEvent} {r : RoomId} (h : e.roomId = some r) :
    s.accepts isStaff e = s.isSubscribed r := by
  obtain ⟨hstaff, htarget⟩ := ChatServerEvent.scopes_apart h
  unfold Session.accepts
  rw [hstaff, htarget, h]
  cases hs : s.isSubscribed r <;> simp [hs]

end Genzh.Api
