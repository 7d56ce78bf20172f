/-
Notifications: why somebody is told, what a row says, and the excerpt of a message that travels with it.
-/
import Genzh.Domain.Text

namespace Genzh.Domain

structure NotificationId where
  uuid : Uuid
  deriving DecidableEq, Repr

/-- Why someone is being notified. -/
inductive NotificationKind where
  | mention
  | everyone
  | directMessage
  | friendRequest
  | friendAccepted
  deriving DecidableEq, Repr

namespace NotificationKind

/-- The stable string used in the database and on the wire. -/
def key : NotificationKind → String
  | mention => "mention"
  | everyone => "everyone"
  | directMessage => "direct_message"
  | friendRequest => "friend_request"
  | friendAccepted => "friend_accepted"

/-- May a second event of this kind fold into a row that already stands for the first? -/
def folds : NotificationKind → Bool
  | mention | everyone | directMessage => true
  | friendRequest | friendAccepted => false

end NotificationKind

/-- One thing that happened, addressed to one person; or, once others folded in, several. -/
structure Notification where
  id : NotificationId
  userId : UserId
  kind : NotificationKind
  actorId : Option UserId
  roomId : Option RoomId
  messageId : Option MessageId
  /-- Of the latest event. -/
  preview : Option String
  /-- How many events the row stands for. -/
  count : Nat
  readAt : Option Timestamp
  createdAt : Timestamp
  updatedAt : Timestamp
  deriving DecidableEq, Repr

/-- How much of a message body travels with a notification. -/
def previewMaxChars : Nat := 140

/-- Trim a message body down to a preview. -/
def previewOf (content : String) : String :=
  let trimmed := (trim content).toList
  if trimmed.length ≤ previewMaxChars then String.ofList trimmed
  else String.ofList ((trimmed.take previewMaxChars).rdropWhile isWhitespace ++ ['…'])

/-- A preview is never longer than the limit and the mark that it was cut. -/
theorem previewOf_length (content : String) : (previewOf content).length ≤ previewMaxChars + 1 := by
  unfold previewOf
  simp only
  split
  · rename_i h
    rw [String.length_ofList]
    omega
  · rw [String.length_ofList, List.length_append, List.length_singleton]
    have hdrop := (List.rdropWhile_prefix isWhitespace (l := (trim content).toList.take previewMaxChars)).length_le
    have htake := List.length_take_le previewMaxChars (trim content).toList
    omega

end Genzh.Domain
