/-
One WebSocket connection: the rooms it hears about, and the one room it says it is reading. A
subscription is granted to whoever can see the room, without a word to anyone else; attention counts
only for a room the connection is subscribed to, and waits for the subscription if it arrives first.
-/
import Genzh.Room.Service

namespace Genzh.Api

open Genzh.Lib Genzh.Domain Genzh.Infrastructure Genzh.Room

/-- The state of a connection. -/
structure Session where
  currentUser : Option UserId
  subscribedRooms : List RoomId
  focusedRoom : Option RoomId
  pendingFocus : Option RoomId
  deriving DecidableEq, Repr

namespace Session

/-- A connection just authenticated. -/
def new (user : UserId) : Session where
  currentUser := some user
  subscribedRooms := []
  focusedRoom := none
  pendingFocus := none

def isSubscribed (s : Session) (roomId : RoomId) : Bool := roomId ∈ s.subscribedRooms

/-- Say what this connection is reading, or that it is reading nothing. -/
def attend (s : Session) (roomId : Option RoomId) : Session :=
  match s.currentUser with
  | none => s
  | some _ =>
    { s with
      pendingFocus := roomId.filter fun id => !s.isSubscribed id
      focusedRoom := roomId.filter fun id => s.isSubscribed id }

/-- Take a subscription, honouring any attention that was waiting on it. -/
def subscribe (s : Session) (roomId : RoomId) : Session :=
  let s := { s with subscribedRooms := roomId :: s.subscribedRooms.filter (· ≠ roomId) }
  if s.pendingFocus = some roomId then s.attend (some roomId) else s

def unsubscribe (s : Session) (roomId : RoomId) : Session :=
  { s with subscribedRooms := s.subscribedRooms.filter (· ≠ roomId) }

end Session

/-- What a client says over its connection about the rooms it follows. -/
inductive Command where
  | subscribe (roomId : RoomId)
  | unsubscribe (roomId : RoomId)
  | focus (roomId : Option RoomId)
  deriving DecidableEq, Repr

/-- Handle one command. A room the caller cannot see is not refused out loud. -/
def command (db : Db) (s : Session) : Command → Session
  | .subscribe roomId =>
    match s.currentUser with
    | none => s
    | some user =>
      match visibleAccess db roomId user with
      | .ok _ => s.subscribe roomId
      | .error _ => s
  | .unsubscribe roomId => (s.unsubscribe roomId).attend none
  | .focus roomId => s.attend roomId

/-! ## Attention follows admission -/

/-- The rooms a connection hears about or reads are rooms its user sees. -/
structure Admitted (db : Db) (u : UserId) (s : Session) : Prop where
  user : s.currentUser = some u
  subscribed : ∀ r ∈ s.subscribedRooms, (visibleAccess db r u).isOk = true
  focused : ∀ r, s.focusedRoom = some r → (visibleAccess db r u).isOk = true

theorem Admitted.attend {db : Db} {u : UserId} {s : Session} (h : Admitted db u s) (room : Option RoomId) :
    Admitted db u (s.attend room) := by
  unfold Session.attend
  rw [h.user]
  refine ⟨rfl, h.subscribed, fun r hr => h.subscribed r ?_⟩
  obtain ⟨-, hs⟩ := Option.filter_eq_some_iff.1 hr
  exact of_decide_eq_true hs

theorem Admitted.command {db : Db} {u : UserId} {s : Session} (h : Admitted db u s) (c : Command) :
    Admitted db u (Api.command db s c) := by
  cases c with
  | subscribe r =>
    unfold Api.command
    simp only [h.user]
    rcases hv : visibleAccess db r u with e | a
    · exact h
    · have hs : Admitted db u { s with subscribedRooms := r :: s.subscribedRooms.filter (· ≠ r) } := by
        refine ⟨h.user, fun r' hr' => ?_, h.focused⟩
        rcases List.mem_cons.1 hr' with rfl | hr'
        · rw [hv]
          rfl
        · exact h.subscribed r' (List.mem_filter.1 hr').1
      unfold Session.subscribe
      simp only
      split
      · exact hs.attend (some r)
      · exact hs
  | unsubscribe r =>
    have hs : Admitted db u (s.unsubscribe r) :=
      ⟨h.user, fun r' hr' => h.subscribed r' (List.mem_filter.1 hr').1, h.focused⟩
    exact hs.attend none
  | focus room => exact h.attend room

/-- Whatever a client says over its connection, what it ends up reading is a room its user sees. -/
theorem focused_visible {db : Db} {u : UserId} {cs : List Command} {r : RoomId}
    (h : (cs.foldl (command db) (Session.new u)).focusedRoom = some r) : (visibleAccess db r u).isOk = true := by
  have hinv : ∀ (cs : List Command) (s : Session), Admitted db u s → Admitted db u (cs.foldl (command db) s) := by
    intro cs
    induction cs with
    | nil => exact fun s hs => hs
    | cons c cs ih => exact fun s hs => ih _ (hs.command c)
  exact (hinv cs _ ⟨rfl, by simp [Session.new], by simp [Session.new]⟩).focused r h

end Genzh.Api
