/-
What each client command does to the connection it comes over: to what the connection remembers, to the store of
attention, and to the typing indicators of a room. A connection makes at most one call to the store for a command, and
publishes at most one typing event.
-/
import Genzh.Api.Session
import Genzh.Infrastructure.Attention

namespace Genzh.Api.Ws

open Genzh.Lib Genzh.Domain Genzh.Infrastructure Genzh.Room

/-- Shortest gap between two "X is typing" broadcasts from one connection for one room, in nanoseconds. -/
def typingInterval : Nat := 1000000000

/-- Everything one connection remembers. -/
structure Session extends Api.Session where
  /-- Whoever this connection is counted against for presence. -/
  countedAs : Option UserId
  /-- When this connection last told a room somebody was typing. -/
  typingSent : Map RoomId Nat
  /-- The socket is gone, and the loop that handled its commands has ended. -/
  released : Bool

/-- A call a connection makes to the store of attention, about itself. -/
inductive AttentionCall where
  | focus (userId : UserId) (roomId : RoomId)
  | blur
  | touch
  deriving DecidableEq, Repr

def AttentionCall.op (connection : ConnectionId) (now : Nat) : AttentionCall → Attention.Op
  | focus userId roomId => .focus connection userId roomId now
  | blur => .blur connection now
  | touch => .touch connection now

/-- A typing event, and when it was let through. -/
structure Typing where
  roomId : RoomId
  userId : UserId
  isTyping : Bool
  sentAt : Nat
  deriving DecidableEq, Repr

/-- What a command leaves. -/
structure Handled where
  session : Session
  attention : Option AttentionCall := none
  typing : Option Typing := none

namespace Session

def new : Session where
  currentUser := none
  subscribedRooms := []
  focusedRoom := none
  pendingFocus := none
  countedAs := none
  typingSent := .empty
  released := false

/-- Say what this connection is reading, or that it is reading nothing. Only a room it is subscribed to counts, and one that
it is not waits for the subscription. -/
def attend (s : Session) (roomId : Option RoomId) : Handled :=
  match s.currentUser with
  | none => { session := s }
  | some user =>
    { session := { s with toSession := s.toSession.attend roomId }
      attention := some ((roomId.filter fun id => s.isSubscribed id).elim .blur fun id => .focus user id) }

/-- `subscribed_rooms.insert(room_id)` -/
def insertRoom (s : Session) (roomId : RoomId) : Session :=
  { s with subscribedRooms := roomId :: s.subscribedRooms.filter (· ≠ roomId) }

/-- Take a subscription, honouring any attention that was waiting on it. -/
def subscribe (s : Session) (roomId : RoomId) : Handled :=
  if s.pendingFocus = some roomId then (s.insertRoom roomId).attend (some roomId) else { session := s.insertRoom roomId }

def unsubscribe (s : Session) (roomId : RoomId) : Session := { s with toSession := s.toSession.unsubscribe roomId }

/-- This connection is still there. -/
def touch (s : Session) : Handled := { session := s, attention := if s.focusedRoom.isSome then some .touch else none }

/-- Accept the token of a user. What the previous identity was reading is not this one's to inherit. -/
def authenticate (s : Session) (user : UserId) : Handled :=
  let s := { s with currentUser := some user }
  if s.countedAs = some user then { session := s }
  else
    match s.countedAs with
    | some _ => { session := { s with focusedRoom := none, countedAs := some user }, attention := some .blur }
    | none => { session := { s with countedAs := some user } }

/-- The way out. -/
def release (s : Session) : Handled :=
  { session := { s with focusedRoom := none, countedAs := none, released := true }, attention := some .blur }

/-- Has it been long enough since the room was last told? -/
def due (s : Session) (roomId : RoomId) (now : Nat) : Bool :=
  (s.typingSent.get roomId).all fun last => decide (typingInterval ≤ now - last)

/-- May this connection say "typing" in this room right now? "Still typing" is throttled; "stopped" goes through when this
connection said "typing" first. -/
def mayAnnounceTyping (s : Session) (roomId : RoomId) (isTyping : Bool) (now : Nat) : Bool × Session :=
  if isTyping then
    if s.due roomId now then (true, { s with typingSent := s.typingSent.set roomId now }) else (false, s)
  else ((s.typingSent.get roomId).isSome, { s with typingSent := s.typingSent.erase roomId })

/-- Typing in a room is a stronger claim to be reading it than any focus. -/
def typing (s : Session) (roomId : RoomId) (isTyping : Bool) (now : Nat) : Handled :=
  match s.currentUser with
  | none => { session := s }
  | some user =>
    if s.isSubscribed roomId then
      let attended := s.attend (some roomId)
      let (may, session) := attended.session.mayAnnounceTyping roomId isTyping now
      { attended with session, typing := if may then some { roomId, userId := user, isTyping, sentAt := now } else none }
    else { session := s }

/-- Posting into a room is being in it. What becomes of the message is not the connection's. -/
def sendMessage (s : Session) (roomId : RoomId) : Handled :=
  if s.currentUser.isSome && s.isSubscribed roomId then s.attend (some roomId) else { session := s }

end Session

/-- The commands. A token counts as the user it names, if it is valid; a room is visible to the caller if the rooms service
says so then. -/
inductive ChatClientCommand where
  | ping
  | auth (token : Option UserId)
  | subscribe (roomId : RoomId) (visible : Bool)
  | unsubscribe (roomId : RoomId)
  | focus (roomId : Option RoomId)
  | typing (roomId : RoomId) (isTyping : Bool)
  | sendMessage (roomId : RoomId)
  | react
  | unreact
  deriving DecidableEq, Repr

/-- Route one command to its handler. -/
def handle (now : Nat) (s : Session) : ChatClientCommand → Handled
  | .ping => s.touch
  | .auth token => token.elim { session := s } s.authenticate
  | .subscribe roomId visible => if s.currentUser.isSome && visible then s.subscribe roomId else { session := s }
  | .unsubscribe roomId => (s.unsubscribe roomId).attend none
  | .focus roomId => s.attend roomId
  | .typing roomId isTyping => s.typing roomId isTyping now
  | .sendMessage roomId => s.sendMessage roomId
  | .react | .unreact => { session := s }

/-- What arrives over a socket: a command, or its end. Nothing is handled after the end. -/
inductive Arrival where
  | command (c : ChatClientCommand)
  | close
  deriving DecidableEq, Repr

def arrive (now : Nat) (s : Session) : Arrival → Handled
  | .command c => if s.released then { session := s } else handle now s c
  | .close => if s.released then { session := s } else s.release

/-! ## The rooms a connection follows and reads -/

theorem attend_some {s : Session} {u : UserId} (huser : s.currentUser = some u) (room : Option RoomId) :
    s.attend room =
      { session := { s with
          pendingFocus := room.filter fun id => !s.isSubscribed id
          focusedRoom := room.filter fun id => s.isSubscribed id }
        attention := some ((room.filter fun id => s.isSubscribed id).elim .blur fun id => .focus u id) } := by
  unfold Session.attend Api.Session.attend
  simp only [huser]

theorem attend_none {s : Session} (huser : s.currentUser = none) (room : Option RoomId) : s.attend room = { session := s } := by
  unfold Session.attend
  simp only [huser]

/-- The command, with what the rooms service says to it. -/
def asked (db : Db) (s : Api.Session) : Command → ChatClientCommand
  | .subscribe roomId => .subscribe roomId (s.currentUser.any fun user => (visibleAccess db roomId user).isOk)
  | .unsubscribe roomId => .unsubscribe roomId
  | .focus roomId => .focus roomId

theorem attend_session (s : Session) (roomId : Option RoomId) : (s.attend roomId).session.toSession = s.toSession.attend roomId := by
  unfold Session.attend Api.Session.attend
  cases s.currentUser <;> rfl

theorem subscribe_session (s : Session) (roomId : RoomId) : (s.subscribe roomId).session.toSession = s.toSession.subscribe roomId := by
  unfold Session.subscribe Api.Session.subscribe
  by_cases hpending : s.pendingFocus = some roomId
  · simp only [hpending, if_true]
    rw [attend_session]
    simp [Session.insertRoom, hpending]
  · simp only [hpending, if_false]
    rfl

/-- The commands about rooms do to the session what they do to it by itself. -/
theorem handle_asked (db : Db) (now : Nat) (s : Session) (c : Command) :
    (handle now s (asked db s.toSession c)).session.toSession = command db s.toSession c := by
  cases c with
  | subscribe r =>
    show (if s.currentUser.isSome && s.currentUser.any (fun user => (visibleAccess db r user).isOk) then s.subscribe r
      else { session := s }).session.toSession = _
    rcases huser : s.currentUser with _ | user
    · simp [command, huser]
    · rcases haccess : visibleAccess db r user with e | a
      · simp [command, huser, haccess, Except.isOk, Except.toBool]
      · have hgranted : ((some user).isSome && (some user).any fun user => (visibleAccess db r user).isOk) = true := by
          simp [haccess, Except.isOk, Except.toBool]
        rw [if_pos hgranted, subscribe_session]
        simp [command, huser, haccess]
  | unsubscribe r => exact attend_session _ none
  | focus r => exact attend_session s r

end Genzh.Api.Ws
