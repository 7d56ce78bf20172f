/-
What one event does to the client: the frames it says and what they tell the server of the rooms followed and
the room read, and what becomes of the socket. `effect` is the inversion lemma the invariants of a run rest on.
-/
import Genzh.Client.ChatSocket
import Genzh.Lib.Journal

namespace Genzh.Client

open Genzh.Lib Genzh.Domain Genzh.Room Genzh.Api
open Genzh.Infrastructure (Db)

/-! ## What a frame tells -/

/-- Whether the room is followed from this frame on. -/
def Frame.follows (roomId : RoomId) : Frame → Option Bool
  | .subscribe id => if id = roomId then some true else none
  | .unsubscribe id => if id = roomId then some false else none
  | _ => none

/-- What a frame makes of the room being read. -/
inductive Mark where
  /-- It claims that this room is. -/
  | claims (roomId : Option RoomId)
  /-- It leaves a room, the one being read or another. -/
  | leaves
  deriving DecidableEq, Repr

def Frame.mark : Frame → Option Mark
  | .focus roomId => some (.claims roomId)
  | .unsubscribe _ => some .leaves
  | _ => none

/-- Typing or posting, which counts as reading the room. -/
def Frame.speaks : Frame → Bool
  | .typing _ _ => true
  | .sendMessage _ _ _ => true
  | _ => false

/-- The frame tells how the rooms followed and the room read change. -/
structure Tells (frame : Frame) (rooms : List RoomId) (read : Option RoomId) (rooms' : List RoomId)
    (read' : Option RoomId) : Prop where
  silent : frame.speaks = false
  joins : ∀ r b, frame.follows r = some b → (b = true ↔ r ∈ rooms')
  others : ∀ r, frame.follows r = none → (r ∈ rooms' ↔ r ∈ rooms)
  claims : ∀ r, frame.mark = some (.claims r) → read' = r
  keeps : frame.mark = none → read' = read

section Tells

variable {rooms : List RoomId} {read : Option RoomId} {r : RoomId}

theorem follows_subscribe (id : RoomId) : (Frame.subscribe id).follows r = if id = r then some true else none := rfl

theorem follows_unsubscribe (id : RoomId) : (Frame.unsubscribe id).follows r = if id = r then some false else none := rfl

theorem tells_ping : Tells .ping rooms read rooms read where
  silent := rfl
  joins _ _ h := by cases h
  others _ _ := Iff.rfl
  claims _ h := by cases h
  keeps _ := rfl

theorem tells_focus (roomId : Option RoomId) : Tells (.focus roomId) rooms read rooms roomId where
  silent := rfl
  joins _ _ h := by cases h
  others _ _ := Iff.rfl
  claims r h := by
    cases h
    rfl
  keeps h := by cases h

theorem tells_subscribe (roomId : RoomId) :
    Tells (.subscribe roomId) rooms read (if roomId ∈ rooms then rooms else rooms ++ [roomId]) read := by
  have hmem : ∀ r, r ∈ (if roomId ∈ rooms then rooms else rooms ++ [roomId]) ↔ r ∈ rooms ∨ roomId = r := by
    intro r
    split
    · rename_i hin
      exact ⟨.inl, fun h => h.elim id fun h => h ▸ hin⟩
    · simp [eq_comm]
  refine ⟨rfl, fun r b h => ?_, fun r h => ?_, fun r h => (by cases h), fun _ => rfl⟩
  · rw [hmem]
    rw [follows_subscribe] at h
    split at h
    · rename_i heq
      cases h
      simp [heq]
    · cases h
  · rw [hmem]
    rw [follows_subscribe] at h
    split at h
    · cases h
    · rename_i hne
      simp [hne]

theorem tells_unsubscribe (roomId : RoomId) :
    Tells (.unsubscribe roomId) rooms read (rooms.filter (· ≠ roomId)) (if read = some roomId then none else read) := by
  have hmem : ∀ r, r ∈ rooms.filter (· ≠ roomId) ↔ r ∈ rooms ∧ r ≠ roomId := by
    intro r
    rw [List.mem_filter, decide_eq_true_eq]
  refine ⟨rfl, fun r b h => ?_, fun r h => ?_, fun r h => (by cases h), fun h => (by cases h)⟩
  · rw [hmem]
    rw [follows_unsubscribe] at h
    split at h
    · rename_i heq
      cases h
      simp [heq]
    · cases h
  · rw [hmem]
    rw [follows_unsubscribe] at h
    split at h
    · cases h
    · rename_i hne
      exact and_iff_left fun h => hne h.symm

end Tells

/-! ## What an event does -/

/-- The sockets let go of are sockets the client had, with what had been sent over them. -/
def LetGo (s : ChatSocket) (left : List WebSocket) : Prop :=
  ∀ w ∈ left, ∃ v ∈ s.left ++ s.socket.toList, w.token = v.token ∧ w.sent = v.sent

inductive Effect (copy : Copy) (s : ChatSocket) : Event → ChatSocket → Prop
  /-- Timers, and sockets let go of. -/
  | idles {e : Event} {timer : Option Nat} {ping explicitly : Bool} {count : Nat} {left : List WebSocket}
      (hleft : LetGo s left) : Effect copy s e { s with
        reconnectTimer := timer
        pingTimer := ping
        isExplicitlyClosed := explicitly
        retryCount := count
        left := left }
  /-- The rooms followed or the room read change, and a frame tells so. -/
  | tells {e : Event} {frame : Frame} {rooms : List RoomId} {read : Option RoomId}
      (htells : Tells frame s.subscribedRooms s.focusedRoom rooms read) :
      Effect copy s e ({ s with subscribedRooms := rooms, focusedRoom := read }.say copy frame)
  /-- A frame is said. -/
  | sends {frame : Frame} : Effect copy s (.send frame) (s.say copy frame)
  /-- The socket is let go of, and a new one opened under the token now current, or none. -/
  | renews {e : Event} {token : Option String} {socket : Option WebSocket} {timer : Option Nat}
      {ping explicitly : Bool} {count : Nat} {left : List WebSocket}
      (hsocket : ∀ w, socket = some w → w = .new token) (hleft : LetGo s left) : Effect copy s e { s with
        token := token
        socket := socket
        reconnectTimer := timer
        pingTimer := ping
        isExplicitlyClosed := explicitly
        retryCount := count
        left := left }
  /-- The socket starts closing, or closes. -/
  | shuts {e : Event} {w : WebSocket} {readyState : ReadyState} {timer : Option Nat} {ping : Bool} {count : Nat}
      (hw : s.socket = some w) (hshut : readyState = .closing ∨ readyState = .closed) : Effect copy s e { s with
        socket := some { w with readyState := readyState }
        reconnectTimer := timer
        pingTimer := ping
        retryCount := count }
  /-- The socket opens. -/
  | opens {user : Option UserId} {w : WebSocket} (hw : s.socket = some w) (hstate : w.readyState = .connecting) :
      Effect copy s (.opens user) { s with
        socket := some { w with
          readyState := .opened
          session := some (handleSocket user)
          sent := w.sent ++ (s.handshake ++ s.messageQueue) }
        messageQueue := []
        pingTimer := true
        retryCount := 0 }
  /-- The session handles a frame. -/
  | serves {db : Db} {w : WebSocket} (hw : s.socket = some w) :
      Effect copy s (.serves db) { s with socket := some (w.serve db) }

namespace ChatSocket

variable {copy : Copy} {s : ChatSocket} {w : WebSocket}

theorem letGo_self : LetGo s s.left := fun w hw => ⟨w, List.mem_append_left _ hw, rfl, rfl⟩

theorem letGo_all : LetGo s (s.left ++ s.socket.toList) := fun w hw => ⟨w, hw, rfl, rfl⟩

/-- Nothing happens. -/
theorem effect_none (e : Event) : Effect copy s e s := .idles letGo_self

theorem effect_connect (e : Event) (timer : Option Nat) (throws : Bool) :
    Effect copy s e ({ s with reconnectTimer := timer }.connect throws) := by
  rcases connect_cases (s := { s with reconnectTimer := timer }) throws with ⟨-, hc⟩ | ⟨-, hc⟩ | ⟨-, timer, count, hc⟩ <;> rw [hc]
  · exact .idles letGo_self
  · exact .renews (fun w h => (Option.some.inj h).symm) letGo_all
  · exact .idles letGo_self

theorem letGo_disconnect : LetGo s s.disconnect.left := by
  unfold disconnect
  intro w hw
  rcases List.mem_append.1 hw with hw | hw
  · exact letGo_self w hw
  · rcases hs : s.socket with _ | v
    · rw [hs] at hw
      cases hw
    · rw [hs] at hw
      obtain rfl := List.mem_singleton.1 hw
      exact ⟨v, by simp, WebSocket.close_token v, WebSocket.close_sent v⟩

theorem effect_disconnect (e : Event) : Effect copy s e s.disconnect := .renews (fun _ h => (by cases h)) letGo_disconnect

/-- A connect where no socket is left. -/
theorem effect_renew {e : Event} {token : Option String} {timer : Option Nat} {ping explicitly : Bool} {count : Nat}
    {left : List WebSocket} (hleft : LetGo s left) (throws : Bool) : Effect copy s e ({ s with
      token := token
      socket := none
      reconnectTimer := timer
      pingTimer := ping
      isExplicitlyClosed := explicitly
      retryCount := count
      left := left }.connect throws) := by
  rcases connect_cases (s := { s with
      token := token
      socket := none
      reconnectTimer := timer
      pingTimer := ping
      isExplicitlyClosed := explicitly
      retryCount := count
      left := left }) throws with ⟨hl, -⟩ | ⟨-, hc⟩ | ⟨-, timer, count, hc⟩
  · cases hl
  · rw [hc]
    exact .renews (fun w h => (Option.some.inj h).symm) (by rw [Option.toList_none, List.append_nil]; exact hleft)
  · rw [hc]
    exact .renews (fun w h => (by cases h)) hleft

theorem effect_setToken (e : Event) (token : String) (throws : Bool) : Effect copy s e (s.setToken token throws) := by
  unfold setToken
  split
  · exact effect_none e
  · simp only
    split
    · exact effect_renew letGo_disconnect throws
    · -- `connect` finds the socket there is, which is none
      rename_i hnone
      rw [Bool.not_eq_true, Option.isSome_eq_false_iff, Option.isNone_iff_eq_none] at hnone
      rw [show ({ s with token := some token } : ChatSocket) = { s with token := some token, socket := none } by rw [← hnone]]
      exact effect_renew letGo_self throws

theorem effect_focus (e : Event) (roomId : Option RoomId) : Effect copy s e (s.focus copy roomId) := by
  unfold focus
  split
  · exact effect_none e
  · exact .tells (tells_focus roomId)

theorem effect_handleClose {e : Event} {left : List WebSocket} (hleft : LetGo s left) :
    Effect copy s e ({ s with left := left }.handleClose) := by
  obtain ⟨timer, count, h⟩ := handleClose_eq { s with left := left }
  rw [h]
  exact .idles hleft

theorem letGo_set {i : Nat} (hw : s.left[i]? = some w) (readyState : ReadyState) :
    LetGo s (s.left.set i { w with readyState := readyState }) := by
  intro v hv
  rcases List.mem_or_eq_of_mem_set hv with hv | rfl
  · exact letGo_self v hv
  · exact ⟨w, List.mem_append_left _ (List.mem_of_getElem? hw), rfl, rfl⟩

theorem effect_leftCloses (e : Event) (i : Nat) : Effect copy s e (s.leftCloses i) := by
  unfold leftCloses
  rcases hw : s.left[i]? with _ | w
  · exact effect_none e
  · simp only
    split
    · exact effect_none e
    · split
      · exact effect_handleClose (letGo_set hw .closed)
      · exact .idles (letGo_set hw .closed)

theorem step_opens (hw : s.socket = some w) (hstate : w.readyState = .connecting) (user : Option UserId) :
    s.step copy (.opens user) = { s with
      socket := some { w with
        readyState := .opened
        session := some (handleSocket user)
        sent := w.sent ++ (s.handshake ++ s.messageQueue) }
      messageQueue := []
      pingTimer := true
      retryCount := 0 } := by
  simp only [step, hw]
  unfold onSocket
  simp only
  rw [if_pos hstate, handleOpen_eq rfl rfl]
  rfl

/-- What any event does. -/
theorem effect (copy : Copy) (s : ChatSocket) (e : Event) : Effect copy s e (s.step copy e) := by
  cases e with
  | setToken token throws => exact effect_setToken _ token throws
  | connect throws => exact effect_connect _ s.reconnectTimer throws
  | disconnect => exact effect_disconnect _
  | subscribe roomId => exact .tells (tells_subscribe roomId)
  | unsubscribe roomId => exact .tells (tells_unsubscribe roomId)
  | focus roomId => exact effect_focus _ roomId
  | blur roomId =>
    unfold step blur
    simp only
    split
    · exact effect_none _
    · exact effect_focus _ none
  | send frame => exact .sends
  | reconnectTimer throws =>
    unfold step
    simp only
    split
    · exact effect_connect _ none throws
    · exact effect_none _
  | pingTimer =>
    unfold step
    simp only
    split
    · exact .tells tells_ping
    · exact effect_none _
  | opens user =>
    rcases hw : s.socket with _ | w <;> simp only [step, hw]
    · exact effect_none _
    · unfold onSocket
      simp only
      split
      · rename_i hstate
        rw [handleOpen_eq rfl rfl]
        exact Effect.opens (w := w) hw hstate
      · exact effect_none _
  | closing =>
    rcases hw : s.socket with _ | w <;> simp only [step, hw]
    · exact effect_none _
    · unfold onSocket
      simp only
      split
      · exact .shuts hw (.inl rfl)
      · exact effect_none _
  | closes =>
    rcases hw : s.socket with _ | w <;> simp only [step, hw]
    · exact effect_none _
    · unfold onSocket
      simp only
      split
      · exact effect_none _
      · obtain ⟨timer, count, hc⟩ := handleClose_eq { s with socket := some { w with readyState := .closed } }
        rw [hc]
        exact .shuts hw (.inr rfl)
  | leftCloses i => exact effect_leftCloses _ i
  | serves db =>
    rcases hw : s.socket with _ | w <;> simp only [step, hw]
    · exact effect_none _
    · exact .serves hw

end ChatSocket

end Genzh.Client
