/-
The client's chat socket: one connection to the server, the rooms it follows, the room being read,
and the frames that wait for a connection. The browser's side (when a socket opens, starts closing
or closes, when a timer fires, whether `new WebSocket` throws) and the server's (which frame it has
got to) are events.
-/
import Genzh.Api.Session

namespace Genzh.Client

open Genzh.Lib Genzh.Domain Genzh.Room Genzh.Api
open Genzh.Infrastructure (Db)

/-- A frame a client sends. -/
inductive Frame where
  | ping
  | subscribe (roomId : RoomId)
  | unsubscribe (roomId : RoomId)
  | focus (roomId : Option RoomId)
  | typing (roomId : RoomId) (isTyping : Bool)
  | sendMessage (roomId : RoomId) (content : String) (isAnonymous : Option Bool)
  | react (roomId : RoomId) (messageId : MessageId) (reaction : String)
  | unreact (roomId : RoomId) (messageId : MessageId) (reaction : String)
  deriving DecidableEq, Repr

/-- What is passed to `send`. The frame is all the client keeps of it; the token current then is noted beside it. -/
structure Data where
  frame : Frame
  under : Option String
  deriving DecidableEq, Repr

/-! ## The server's end -/

/-- The session of a connection that opens, with whoever its token speaks for. -/
def handleSocket (user : Option UserId) : Session where
  currentUser := user
  subscribedRooms := []
  focusedRoom := none
  pendingFocus := none

/-- Typing or posting in a room is being in it, for a connection that hears about the room. -/
def speakIn (s : Session) (roomId : RoomId) : Session :=
  if s.currentUser.isNone then s
  else if s.isSubscribed roomId then s.attend (some roomId)
  else s

/-- What the session remembers after a frame. -/
def handle (db : Db) (s : Session) : Frame → Session
  | .ping => s
  | .subscribe roomId => command db s (.subscribe roomId)
  | .unsubscribe roomId => command db s (.unsubscribe roomId)
  | .focus roomId => command db s (.focus roomId)
  | .typing roomId _ => speakIn s roomId
  | .sendMessage roomId _ _ => speakIn s roomId
  | .react _ _ _ => s
  | .unreact _ _ _ => s

/-! ## The sockets -/

inductive ReadyState where
  | connecting
  | opened
  | closing
  | closed
  deriving DecidableEq, Repr

/-- A socket of the browser, and how far the session at its other end has got with what was sent. -/
structure WebSocket where
  /-- The token current when it was opened, which its URL carries. -/
  token : Option String
  readyState : ReadyState
  /-- Whether the client's handlers are on it. -/
  attached : Bool
  sent : List Data
  served : Nat
  session : Option Session
  deriving DecidableEq, Repr

namespace WebSocket

/-- `new WebSocket(url)`, with the handlers put on it. -/
def new (token : Option String) : WebSocket where
  token := token
  readyState := .connecting
  attached := true
  sent := []
  served := 0
  session := none

def close (w : WebSocket) : WebSocket := if w.readyState = .closed then w else { w with readyState := .closing }

/-- The session handles the next frame it was sent. -/
def serve (db : Db) (w : WebSocket) : WebSocket :=
  match w.session, w.sent[w.served]? with
  | some s, some data => { w with session := some (handle db s data.frame), served := w.served + 1 }
  | _, _ => w

theorem serve_cases (db : Db) (w : WebSocket) : w.serve db = w ∨
    ∃ s data, w.session = some s ∧ w.sent[w.served]? = some data ∧
      w.serve db = { w with session := some (handle db s data.frame), served := w.served + 1 } := by
  unfold serve
  split
  · rename_i s data hs hdata
    exact .inr ⟨s, data, hs, hdata, rfl⟩
  · exact .inl rfl

theorem close_token (w : WebSocket) : w.close.token = w.token := by
  unfold close
  split <;> rfl

theorem close_sent (w : WebSocket) : w.close.sent = w.sent := by
  unfold close
  split <;> rfl

end WebSocket

/-- The two copies of the class, which differ in what `send` does without an open socket. -/
inductive Copy where
  | shared
  | web
  deriving DecidableEq, Repr

/-- Does `send` keep what it cannot send yet? The web copy drops it unless a socket is on its way. -/
def Copy.keeps : Copy → Option ReadyState → Bool
  | .shared, _ => true
  | .web, readyState => readyState = some .connecting

structure ChatSocket where
  socket : Option WebSocket
  token : Option String
  /-- A set, in the order of insertion. -/
  subscribedRooms : List RoomId
  focusedRoom : Option RoomId
  messageQueue : List Data
  /-- The delay of the timer that is running, in milliseconds. -/
  reconnectTimer : Option Nat
  pingTimer : Bool
  isExplicitlyClosed : Bool
  retryCount : Nat
  /-- The sockets let go of, which may still have to close. -/
  left : List WebSocket
  deriving DecidableEq, Repr

namespace ChatSocket

def new : ChatSocket where
  socket := none
  token := none
  subscribedRooms := []
  focusedRoom := none
  messageQueue := []
  reconnectTimer := none
  pingTimer := false
  isExplicitlyClosed := false
  retryCount := 0
  left := []

def readyState (s : ChatSocket) : Option ReadyState := s.socket.map (·.readyState)

def live (s : ChatSocket) : Bool := s.readyState = some .opened || s.readyState = some .connecting

def scheduleReconnect (s : ChatSocket) : ChatSocket :=
  if s.reconnectTimer.isSome then s
  else { s with reconnectTimer := some (min (1000 * 2 ^ s.retryCount) 10000), retryCount := s.retryCount + 1 }

/-- Open a socket, unless one is live. A socket that is still closing is replaced with its handlers on. -/
def connect (throws : Bool) (s : ChatSocket) : ChatSocket :=
  if s.live then s
  else
    let s := { s with isExplicitlyClosed := false }
    if throws then s.scheduleReconnect
    else { s with socket := some (.new s.token), left := s.left ++ s.socket.toList }

def disconnect (s : ChatSocket) : ChatSocket :=
  { s with
    isExplicitlyClosed := true
    reconnectTimer := none
    pingTimer := false
    socket := none
    left := s.left ++ (s.socket.map fun w => { w.close with attached := false }).toList }

def setToken (token : String) (throws : Bool) (s : ChatSocket) : ChatSocket :=
  if s.token = some token && s.live then s
  else
    let s := { s with token := some token }
    let s := if s.socket.isSome then s.disconnect else s
    s.connect throws

/-- `this.socket.send`. -/
def transmit (data : Data) (s : ChatSocket) : ChatSocket :=
  { s with socket := s.socket.map fun w => { w with sent := w.sent ++ [data] } }

def send (copy : Copy) (s : ChatSocket) (data : Data) : ChatSocket :=
  if s.readyState = some .opened then s.transmit data
  else if copy.keeps s.readyState then { s with messageQueue := s.messageQueue ++ [data] }
  else s

/-- Pass a frame to `send` now. -/
def say (copy : Copy) (frame : Frame) (s : ChatSocket) : ChatSocket := s.send copy ⟨frame, s.token⟩

/-- Shift each frame off the queue and send it. It runs only when the socket has just opened, so that none
comes back to the queue. -/
def flush (copy : Copy) (s : ChatSocket) : ChatSocket :=
  s.messageQueue.foldl (send copy) { s with messageQueue := [] }

def handleOpen (copy : Copy) (s : ChatSocket) : ChatSocket :=
  let s := { s with retryCount := 0 }
  let s := s.subscribedRooms.foldl (fun s roomId => s.say copy (.subscribe roomId)) s
  let s := match s.focusedRoom with
    | some roomId => s.say copy (.focus (some roomId))
    | none => s
  { s.flush copy with pingTimer := true }

def handleClose (s : ChatSocket) : ChatSocket :=
  let s := { s with pingTimer := false }
  if s.isExplicitlyClosed then s else s.scheduleReconnect

def subscribe (copy : Copy) (roomId : RoomId) (s : ChatSocket) : ChatSocket :=
  let s := { s with subscribedRooms := if roomId ∈ s.subscribedRooms then s.subscribedRooms else s.subscribedRooms ++ [roomId] }
  s.say copy (.subscribe roomId)

def unsubscribe (copy : Copy) (roomId : RoomId) (s : ChatSocket) : ChatSocket :=
  let s := { s with
    subscribedRooms := s.subscribedRooms.filter (· ≠ roomId)
    focusedRoom := if s.focusedRoom = some roomId then none else s.focusedRoom }
  s.say copy (.unsubscribe roomId)

/-- Say which room the person is looking at. -/
def focus (copy : Copy) (roomId : Option RoomId) (s : ChatSocket) : ChatSocket :=
  if s.focusedRoom = roomId then s
  else
    let s := { s with focusedRoom := roomId }
    s.say copy (.focus roomId)

/-- Stop claiming to read a room, if that is still the claim. -/
def blur (copy : Copy) (roomId : RoomId) (s : ChatSocket) : ChatSocket :=
  if s.focusedRoom ≠ some roomId then s else s.focus copy none

end ChatSocket

/-! ## Runs -/

inductive Event where
  | setToken (token : String) (throws : Bool)
  | connect (throws : Bool)
  | disconnect
  | subscribe (roomId : RoomId)
  | unsubscribe (roomId : RoomId)
  | focus (roomId : Option RoomId)
  | blur (roomId : RoomId)
  /-- `sendTyping`, `sendMessage`, `react`, `unreact`, or `send` itself where it is public. -/
  | send (frame : Frame)
  | reconnectTimer (throws : Bool)
  | pingTimer
  /-- The socket opens; the token of its URL speaks for `user`. -/
  | opens (user : Option UserId)
  | closing
  | closes
  /-- A socket let go of earlier closes. -/
  | leftCloses (i : Nat)
  /-- The session at the other end of the socket handles the next frame, in the rooms as they are. -/
  | serves (db : Db)

namespace ChatSocket

/-- The events of the socket the client holds. Its handlers are on it: only `disconnect` takes them off, and
lets go of it too. -/
def onSocket (copy : Copy) (s : ChatSocket) (w : WebSocket) : Event → ChatSocket
  | .opens user =>
    if w.readyState = .connecting then
      { s with socket := some { w with readyState := .opened, session := some (handleSocket user) } }.handleOpen copy
    else s
  | .closing => if s.live then { s with socket := some { w with readyState := .closing } } else s
  | .closes =>
    if w.readyState = .closed then s else { s with socket := some { w with readyState := .closed } }.handleClose
  | .serves db => { s with socket := some (w.serve db) }
  | _ => s

def leftCloses (i : Nat) (s : ChatSocket) : ChatSocket :=
  match s.left[i]? with
  | none => s
  | some w =>
    if w.readyState = .closed then s
    else
      let s := { s with left := s.left.set i { w with readyState := .closed } }
      if w.attached then s.handleClose else s

def step (copy : Copy) (s : ChatSocket) : Event → ChatSocket
  | .setToken token throws => s.setToken token throws
  | .connect throws => s.connect throws
  | .disconnect => s.disconnect
  | .subscribe roomId => s.subscribe copy roomId
  | .unsubscribe roomId => s.unsubscribe copy roomId
  | .focus roomId => s.focus copy roomId
  | .blur roomId => s.blur copy roomId
  | .send frame => s.say copy frame
  | .reconnectTimer throws => if s.reconnectTimer.isSome then { s with reconnectTimer := none }.connect throws else s
  | .pingTimer => if s.pingTimer then s.say copy .ping else s
  | .leftCloses i => s.leftCloses i
  | e =>
    match s.socket with
    | none => s
    | some w => s.onSocket copy w e

/-! ## What the steps leave -/

variable {copy : Copy} {s : ChatSocket} {w : WebSocket}

/-- The frames a socket opens with. -/
def handshake (s : ChatSocket) : List Data :=
  s.subscribedRooms.map (fun roomId => ⟨.subscribe roomId, s.token⟩) ++
    (s.focusedRoom.map fun roomId => ⟨.focus (some roomId), s.token⟩).toList

theorem send_of_opened (hw : s.socket = some w) (hr : w.readyState = .opened) (data : Data) :
    s.send copy data = { s with socket := some { w with sent := w.sent ++ [data] } } := by
  unfold send transmit readyState
  rw [hw, if_pos (by rw [Option.map_some, hr])]
  rfl

/-- On an open socket frames go out as they are sent. -/
theorem foldl_send (hw : s.socket = some w) (hr : w.readyState = .opened) (ds : List Data) :
    ds.foldl (send copy) s = { s with socket := some { w with sent := w.sent ++ ds } } := by
  induction ds generalizing s w with
  | nil => simp [← hw]
  | cons data ds ih =>
    rw [List.foldl_cons, send_of_opened hw hr, ih rfl (by exact hr)]
    simp

theorem foldl_say (hw : s.socket = some w) (hr : w.readyState = .opened) (roomIds : List RoomId) :
    roomIds.foldl (fun s roomId => s.say copy (.subscribe roomId)) s =
      { s with socket := some { w with sent := w.sent ++ roomIds.map fun roomId => ⟨.subscribe roomId, s.token⟩ } } := by
  induction roomIds generalizing s w with
  | nil => simp [← hw]
  | cons roomId roomIds ih =>
    rw [List.foldl_cons, say, send_of_opened hw hr, ih rfl (by exact hr)]
    simp

/-- An open socket is told the rooms, then what is being read, then what waited. -/
theorem handleOpen_eq (hw : s.socket = some w) (hr : w.readyState = .opened) :
    s.handleOpen copy = { s with
      socket := some { w with sent := w.sent ++ (s.handshake ++ s.messageQueue) }
      messageQueue := []
      pingTimer := true
      retryCount := 0 } := by
  unfold handleOpen
  simp only
  rw [foldl_say (s := { s with retryCount := 0 }) hw hr]
  unfold flush handshake
  rcases hf : s.focusedRoom with _ | roomId
  · simp only
    rw [foldl_send rfl (by exact hr)]
    simp
  · simp only
    rw [say, send_of_opened rfl (by exact hr), foldl_send rfl (by exact hr)]
    simp

/-- A frame passed to `send` goes out on the open socket, or waits where the copy keeps it, or is dropped. -/
theorem send_cases (copy : Copy) (s : ChatSocket) (data : Data) :
    (∃ w, s.socket = some w ∧ w.readyState = .opened ∧
      s.send copy data = { s with socket := some { w with sent := w.sent ++ [data] } }) ∨
    (s.readyState ≠ some .opened ∧ copy.keeps s.readyState = true ∧
      s.send copy data = { s with messageQueue := s.messageQueue ++ [data] }) ∨
    (s.readyState ≠ some .opened ∧ copy.keeps s.readyState = false ∧ s.send copy data = s) := by
  by_cases h : s.readyState = some .opened
  · obtain ⟨w, hw, hr⟩ := Option.map_eq_some_iff.1 h
    exact .inl ⟨w, hw, hr, send_of_opened hw hr data⟩
  · right
    unfold send
    rw [if_neg h]
    cases hk : copy.keeps s.readyState with
    | true => exact .inl ⟨h, rfl, rfl⟩
    | false => exact .inr ⟨h, rfl, rfl⟩

/-- Scheduling a reconnect is about the timer. -/
theorem scheduleReconnect_eq (s : ChatSocket) :
    ∃ timer count, s.scheduleReconnect = { s with reconnectTimer := timer, retryCount := count } := by
  unfold scheduleReconnect
  split
  · exact ⟨s.reconnectTimer, s.retryCount, rfl⟩
  · exact ⟨_, _, rfl⟩

theorem handleClose_eq (s : ChatSocket) :
    ∃ timer count, s.handleClose = { s with pingTimer := false, reconnectTimer := timer, retryCount := count } := by
  unfold handleClose
  simp only
  split
  · exact ⟨s.reconnectTimer, s.retryCount, rfl⟩
  · obtain ⟨timer, count, h⟩ := scheduleReconnect_eq { s with pingTimer := false }
    exact ⟨timer, count, h⟩

/-- A connect leaves a live socket alone. Otherwise the socket is replaced by one under the current token, or
none can be built. -/
theorem connect_cases (throws : Bool) :
    (s.live = true ∧ s.connect throws = s) ∨
    (s.live = false ∧ s.connect throws =
      { s with isExplicitlyClosed := false, socket := some (.new s.token), left := s.left ++ s.socket.toList }) ∨
    (s.live = false ∧ ∃ timer count, s.connect throws =
      { s with isExplicitlyClosed := false, reconnectTimer := timer, retryCount := count }) := by
  unfold connect
  by_cases hl : s.live = true
  · exact .inl ⟨hl, if_pos hl⟩
  · rw [Bool.not_eq_true] at hl
    right
    rw [hl]
    cases throws with
    | false => exact .inl ⟨rfl, rfl⟩
    | true =>
      obtain ⟨timer, count, h⟩ := scheduleReconnect_eq { s with isExplicitlyClosed := false }
      exact .inr ⟨rfl, timer, count, h⟩

end ChatSocket

end Genzh.Client
