/-
The opening of a socket of the shared chat client, with the listeners of its status. They are told at once, before
anything is said, and may call the client themselves: what they do to the socket decides whether what waits in the
queue can go out.
-/
import Genzh.Client.ChatSocket
import Genzh.Lib.Loop

namespace Genzh.Client

open Genzh.Lib Genzh.Domain Genzh.Room Genzh.Api

/-- A public method that tells no listener anything. -/
inductive Method where
  | disconnect
  | subscribe (roomId : RoomId)
  | unsubscribe (roomId : RoomId)
  | focus (roomId : Option RoomId)
  | blur (roomId : RoomId)
  /-- `sendTyping`, or `send` itself. -/
  | send (frame : Frame)
  deriving DecidableEq, Repr

/-- What the listeners do when something is emitted, one call after another. Where a call opens a socket they are told
of that inside it. -/
inductive Emission where
  /-- All have returned. -/
  | returned
  /-- One throws, and no other is told. -/
  | threw
  | calls (method : Method) (rest : Emission)
  | connects (throws : Bool) (told : Emission) (rest : Emission)
  | setsToken (token : String) (throws : Bool) (told : Emission) (rest : Emission)
  deriving DecidableEq, Repr

namespace Emission

def throws : Emission → Bool
  | returned => false
  | threw => true
  | calls _ rest => rest.throws
  | connects _ _ rest => rest.throws
  | setsToken _ _ _ rest => rest.throws

/-- No listener lets go of an open socket: none disconnects, or sets a token other than the current one. -/
def Spares (token : Option String) : Emission → Prop
  | returned => True
  | threw => True
  | calls method rest => method ≠ .disconnect ∧ rest.Spares token
  | connects _ _ rest => rest.Spares token
  | setsToken t _ _ rest => token = some t ∧ rest.Spares token

end Emission

namespace ChatSocket

def make (s : ChatSocket) : Method → ChatSocket
  | .disconnect => s.disconnect
  | .subscribe roomId => s.subscribe .shared roomId
  | .unsubscribe roomId => s.unsubscribe .shared roomId
  | .focus roomId => s.focus .shared roomId
  | .blur roomId => s.blur .shared roomId
  | .send frame => s.say .shared frame

/-- `connect`, with what telling the listeners comes to and whether one throws, which is caught as if no socket could
be built. -/
def connectTelling (throws : Bool) (tell : ChatSocket → ChatSocket) (threw : Bool) (s : ChatSocket) : ChatSocket :=
  if s.live then s
  else
    let s := { s with isExplicitlyClosed := false }
    if throws then s.scheduleReconnect
    else
      let s := tell { s with socket := some (.new s.token), left := s.left ++ s.socket.toList }
      if threw then s.scheduleReconnect else s

def setTokenTelling (token : String) (throws : Bool) (tell : ChatSocket → ChatSocket) (threw : Bool) (s : ChatSocket) :
    ChatSocket :=
  if s.token = some token && s.live then s
  else
    let s := { s with token := some token }
    let s := if s.socket.isSome then s.disconnect else s
    s.connectTelling throws tell threw

/-- The client once its listeners are done. -/
def emit : Emission → ChatSocket → ChatSocket
  | .returned, s => s
  | .threw, s => s
  | .calls method rest, s => emit rest (s.make method)
  | .connects throws told rest, s => emit rest (s.connectTelling throws (emit told) told.throws)
  | .setsToken token throws told rest, s => emit rest (s.setTokenTelling token throws (emit told) told.throws)

/-- Say which rooms are followed and which is read. -/
def announce (s : ChatSocket) : ChatSocket :=
  let s := s.subscribedRooms.foldl (fun s roomId => s.say .shared (.subscribe roomId)) s
  match s.focusedRoom with
  | some roomId => s.say .shared (.focus (some roomId))
  | none => s

/-- A turn of the loop that empties the queue. -/
def shift (s : ChatSocket) : Option ChatSocket :=
  match s.messageQueue with
  | [] => none
  | data :: rest => some ({ s with messageQueue := rest }.send .shared data)

/-- `handleOpen`, over within `n` turns of its loop. A listener that throws ends it at once. -/
def handleOpenTelling (told : Emission) (n : Nat) (s : ChatSocket) : Option ChatSocket :=
  let s := emit told { s with retryCount := 0 }
  if told.throws then some s
  else (loop shift n s.announce).map fun s => { s with pingTimer := true }

/-- The client as the loop begins, or as the exception of a listener leaves it. -/
def begins (told : Emission) (s : ChatSocket) : ChatSocket :=
  let s := emit told { s with retryCount := 0 }
  if told.throws then s else s.announce

/-- These frames go out, in order, over the socket held, which is open if there are any. Nothing else is sent. -/
structure Hands (s : ChatSocket) (handed : List Data) (s' : ChatSocket) : Prop where
  opened : handed = [] ∨ s.readyState = some .opened
  socket : s'.socket = s.socket.map fun w => { w with sent := w.sent ++ handed }
  left : s'.left = s.left

/-- The call ends. What was queued still is as the loop begins, and each frame queued then is either handed to the open
socket once, in the order of the queue, or still queued. -/
def Delivers (told : Emission) (s : ChatSocket) : Prop :=
  s.messageQueue <+: (s.begins told).messageQueue ∧
    ∃ n s' handed, s.handleOpenTelling told n = some s' ∧ (s.begins told).Hands handed s' ∧
      handed ++ s'.messageQueue = (s.begins told).messageQueue

/-- No frame waits, no room is followed and none is read. -/
def NothingToSay (s : ChatSocket) : Prop := s.messageQueue = [] ∧ s.subscribedRooms = [] ∧ s.focusedRoom = none

variable {s t u : ChatSocket} {w : WebSocket}

/-! ## What the listeners can do -/

/-- The queue only grows, and no socket opens. -/
structure Leads (s t : ChatSocket) : Prop where
  queue : s.messageQueue <+: t.messageQueue
  shut : s.readyState ≠ some .opened → t.readyState ≠ some .opened

theorem Leads.refl (s : ChatSocket) : Leads s s := ⟨List.prefix_rfl, id⟩

theorem Leads.trans (h : Leads s t) (h' : Leads t u) : Leads s u :=
  ⟨h.queue.trans h'.queue, fun hs => h'.shut (h.shut hs)⟩

/-- Only the queue and the socket matter. -/
theorem Leads.of_same (h : Leads s t) (hq : s.messageQueue = u.messageQueue) (hs : s.socket = u.socket) : Leads u t := by
  refine ⟨hq ▸ h.queue, fun hu => h.shut ?_⟩
  rwa [readyState, hs]

theorem Leads.say (s : ChatSocket) (frame : Frame) : Leads s (s.say .shared frame) := by
  unfold ChatSocket.say
  rcases send_cases .shared s ⟨frame, s.token⟩ with ⟨w, hw, hr, hs⟩ | ⟨-, -, hs⟩ | ⟨-, -, hs⟩ <;> rw [hs]
  · exact ⟨List.prefix_rfl, fun h => absurd (by rw [readyState, hw, Option.map_some, hr]) h⟩
  · exact ⟨List.prefix_append _ _, id⟩
  · exact .refl s

theorem focus_cases (s : ChatSocket) (roomId : Option RoomId) : s.focus .shared roomId = s ∨
    s.focus .shared roomId = { s with focusedRoom := roomId }.say .shared (.focus roomId) := by
  unfold focus
  split
  · exact .inl rfl
  · exact .inr rfl

/-- Whatever does not let go of the socket says one frame of the rooms, or does nothing. -/
theorem make_cases (s : ChatSocket) {method : Method} (h : method ≠ .disconnect) : s.make method = s ∨
    ∃ rooms read frame, s.make method = { s with subscribedRooms := rooms, focusedRoom := read }.say .shared frame := by
  cases method with
  | disconnect => exact absurd rfl h
  | subscribe roomId => exact .inr ⟨_, s.focusedRoom, _, rfl⟩
  | unsubscribe roomId => exact .inr ⟨_, _, _, rfl⟩
  | focus roomId =>
    rcases focus_cases s roomId with hs | hs
    · exact .inl hs
    · exact .inr ⟨s.subscribedRooms, roomId, _, hs⟩
  | blur roomId =>
    change blur .shared roomId s = s ∨ ∃ rooms read frame, blur .shared roomId s = _
    unfold blur
    split
    · exact .inl rfl
    · rcases focus_cases s none with hs | hs
      · exact .inl hs
      · exact .inr ⟨s.subscribedRooms, none, _, hs⟩
  | send frame => exact .inr ⟨s.subscribedRooms, s.focusedRoom, frame, rfl⟩

theorem Leads.make (s : ChatSocket) (method : Method) : Leads s (s.make method) := by
  by_cases hmethod : method = .disconnect
  · subst hmethod
    refine ⟨List.prefix_rfl, fun _ h => ?_⟩
    cases h
  · rcases make_cases s hmethod with hs | ⟨rooms, read, frame, hs⟩ <;> rw [hs]
    · exact .refl s
    · exact (Leads.say _ frame).of_same rfl rfl

theorem Leads.scheduleReconnect (s : ChatSocket) : Leads s s.scheduleReconnect := by
  obtain ⟨timer, count, h⟩ := scheduleReconnect_eq s
  rw [h]
  exact ⟨List.prefix_rfl, id⟩

theorem Leads.connectTelling {tell : ChatSocket → ChatSocket} (htell : ∀ s, Leads s (tell s)) (throws threw : Bool)
    (s : ChatSocket) : Leads s (s.connectTelling throws tell threw) := by
  unfold ChatSocket.connectTelling
  split
  · exact .refl s
  · split
    · exact (Leads.scheduleReconnect _).of_same rfl rfl
    · -- a socket just built is connecting
      have hnew : Leads s { s with
          isExplicitlyClosed := false, socket := some (.new s.token), left := s.left ++ s.socket.toList } :=
        ⟨List.prefix_rfl, fun _ h => by cases h⟩
      split
      · exact (hnew.trans (htell _)).trans (.scheduleReconnect _)
      · exact hnew.trans (htell _)

theorem Leads.setTokenTelling {tell : ChatSocket → ChatSocket} (htell : ∀ s, Leads s (tell s)) (token : String)
    (throws threw : Bool) (s : ChatSocket) : Leads s (s.setTokenTelling token throws tell threw) := by
  unfold ChatSocket.setTokenTelling
  split
  · exact .refl s
  · refine Leads.trans ?_ (.connectTelling htell throws threw _)
    split
    · exact (Leads.make { s with token := some token } .disconnect).of_same rfl rfl
    · exact ⟨List.prefix_rfl, id⟩

theorem Leads.emit (told : Emission) (s : ChatSocket) : Leads s (emit told s) := by
  induction told generalizing s with
  | returned => exact .refl s
  | threw => exact .refl s
  | calls method rest ih => exact (Leads.make s method).trans (ih _)
  | connects throws told rest iht ih => exact (Leads.connectTelling iht throws told.throws s).trans (ih _)
  | setsToken token throws told rest iht ih => exact (Leads.setTokenTelling iht token throws told.throws s).trans (ih _)

/-! ## When the socket stays open -/

theorem live_of_opened (h : s.readyState = some .opened) : s.live = true := by
  unfold live
  rw [h]
  rfl

theorem say_opened_iff (s : ChatSocket) (frame : Frame) :
    (s.say .shared frame).readyState = some .opened ↔ s.readyState = some .opened := by
  refine ⟨fun h => by_contra fun hs => (Leads.say s frame).shut hs h, fun h => ?_⟩
  obtain ⟨w, hw, hr⟩ := Option.map_eq_some_iff.1 h
  rw [say, send_of_opened hw hr, readyState, Option.map_some, hr]

theorem say_token (s : ChatSocket) (frame : Frame) : (s.say .shared frame).token = s.token := by
  unfold say
  rcases send_cases .shared s ⟨frame, s.token⟩ with ⟨w, -, -, hs⟩ | ⟨-, -, hs⟩ | ⟨-, -, hs⟩ <;> rw [hs]

theorem make_opened_iff (s : ChatSocket) (method : Method) :
    (s.make method).readyState = some .opened ↔ s.readyState = some .opened ∧ method ≠ .disconnect := by
  by_cases hmethod : method = .disconnect
  · subst hmethod
    simp [make, disconnect, readyState]
  · rcases make_cases s hmethod with hs | ⟨rooms, read, frame, hs⟩ <;> rw [hs]
    · simp [hmethod]
    · rw [say_opened_iff]
      simp [hmethod, readyState]

theorem make_token (s : ChatSocket) (method : Method) : (s.make method).token = s.token := by
  by_cases hmethod : method = .disconnect
  · rw [hmethod]
    rfl
  · rcases make_cases s hmethod with hs | ⟨rooms, read, frame, hs⟩ <;> rw [hs]
    rw [say_token]

variable {tell : ChatSocket → ChatSocket}

theorem connectTelling_of_opened (h : s.readyState = some .opened) (throws threw : Bool) :
    s.connectTelling throws tell threw = s := if_pos (live_of_opened h)

theorem setTokenTelling_of_opened (h : s.readyState = some .opened) {token : String} (ht : s.token = some token)
    (throws threw : Bool) : s.setTokenTelling token throws tell threw = s := by
  refine if_pos ?_
  rw [live_of_opened h, decide_eq_true ht]
  rfl

/-- Another token lets go of the socket, and the one opened in its place is connecting. -/
theorem setTokenTelling_shut (htell : ∀ s, Leads s (tell s)) {token : String} (ht : s.token ≠ some token)
    (throws threw : Bool) : (s.setTokenTelling token throws tell threw).readyState ≠ some .opened := by
  unfold setTokenTelling
  rw [if_neg (by simp [ht])]
  refine (Leads.connectTelling htell throws threw _).shut ?_
  dsimp only
  split
  · rintro ⟨⟩
  · rename_i hnone
    rw [Bool.not_eq_true, Option.isSome_eq_false_iff, Option.isNone_iff_eq_none] at hnone
    rw [readyState, hnone]
    rintro ⟨⟩

/-- The socket is left open if it was open and the listeners spare it. -/
theorem emit_opened_iff (told : Emission) (s : ChatSocket) :
    (emit told s).readyState = some .opened ↔ s.readyState = some .opened ∧ told.Spares s.token := by
  induction told generalizing s with
  | returned => exact (and_iff_left trivial).symm
  | threw => exact (and_iff_left trivial).symm
  | calls method rest ih =>
    change (emit rest (s.make method)).readyState = some .opened ↔ _ ∧ method ≠ .disconnect ∧ rest.Spares s.token
    rw [ih, make_opened_iff, make_token, and_assoc]
  | connects throws told rest _ ih =>
    change (emit rest (s.connectTelling throws (emit told) told.throws)).readyState = some .opened ↔
      _ ∧ rest.Spares s.token
    rw [ih]
    by_cases hs : s.readyState = some .opened
    · rw [connectTelling_of_opened hs]
    · exact iff_of_false (fun h => (Leads.connectTelling (.emit told) throws told.throws s).shut hs h.1) fun h => hs h.1
  | setsToken token throws told rest _ ih =>
    change (emit rest (s.setTokenTelling token throws (emit told) told.throws)).readyState = some .opened ↔
      _ ∧ s.token = some token ∧ rest.Spares s.token
    rw [ih]
    by_cases hs : s.readyState = some .opened
    · by_cases ht : s.token = some token
      · rw [setTokenTelling_of_opened hs ht]
        exact and_congr_right fun _ => (and_iff_right ht).symm
      · exact iff_of_false (fun h => setTokenTelling_shut (.emit told) ht throws told.throws h.1) fun h => ht h.2.1
    · exact iff_of_false (fun h => (Leads.setTokenTelling (.emit told) token throws told.throws s).shut hs h.1)
        fun h => hs h.1

/-! ## The loop -/

/-- Over an open socket the rooms are said. -/
theorem announce_of_opened (hw : s.socket = some w) (hr : w.readyState = .opened) :
    s.announce = { s with socket := some { w with sent := w.sent ++ s.handshake } } := by
  unfold announce handshake
  simp only
  rw [foldl_say hw hr]
  rcases hf : s.focusedRoom with _ | roomId
  · simp only [Option.map_none, Option.toList_none, List.append_nil]
  · simp only
    rw [say, send_of_opened rfl (by exact hr)]
    simp

/-- Otherwise a frame waits. -/
theorem send_of_shut (h : s.readyState ≠ some .opened) (data : Data) :
    s.send .shared data = { s with messageQueue := s.messageQueue ++ [data] } := by
  unfold send
  rw [if_neg h]
  rfl

theorem foldl_say_of_shut (h : s.readyState ≠ some .opened) (roomIds : List RoomId) :
    roomIds.foldl (fun s roomId => s.say .shared (.subscribe roomId)) s =
      { s with messageQueue := s.messageQueue ++ roomIds.map fun roomId => ⟨.subscribe roomId, s.token⟩ } := by
  induction roomIds generalizing s with
  | nil => simp
  | cons roomId roomIds ih =>
    rw [List.foldl_cons, say, send_of_shut h, ih (by exact h)]
    simp

theorem announce_of_shut (h : s.readyState ≠ some .opened) :
    s.announce = { s with messageQueue := s.messageQueue ++ s.handshake } := by
  unfold announce handshake
  simp only
  rw [foldl_say_of_shut h]
  rcases hf : s.focusedRoom with _ | roomId
  · simp only [Option.map_none, Option.toList_none, List.append_nil]
  · simp only
    rw [say, send_of_shut (by exact h)]
    simp

theorem shift_of_nil (h : s.messageQueue = []) : s.shift = none := by
  unfold shift
  rw [h]

theorem shift_of_cons {data : Data} {rest : List Data} (h : s.messageQueue = data :: rest) :
    s.shift = some ({ s with messageQueue := rest }.send .shared data) := by
  unfold shift
  rw [h]

/-- Over an open socket each turn hands a frame, and the loop empties the queue. -/
theorem loop_of_opened (hw : s.socket = some w) (hr : w.readyState = .opened) {n : Nat} (hn : s.messageQueue.length < n) :
    loop shift n s =
      some { s with messageQueue := [], socket := some { w with sent := w.sent ++ s.messageQueue } } := by
  induction n generalizing s w with
  | zero => exact absurd hn (Nat.not_lt_zero _)
  | succ n ih =>
    rcases hq : s.messageQueue with _ | ⟨data, rest⟩
    · rw [loop_of_none (shift_of_nil hq), List.append_nil, ← hw, ← hq]
    · rw [hq, List.length_cons, Nat.add_lt_add_iff_right] at hn
      rw [loop_of_some (shift_of_cons hq), send_of_opened (s := { s with messageQueue := rest }) hw hr,
        ih rfl (by exact hr) (by exact hn)]
      simp

/-- Otherwise each turn puts the frame back, and a loop that begins is never over. -/
theorem loop_of_shut (h : s.readyState ≠ some .opened) (hq : s.messageQueue ≠ []) (n : Nat) : loop shift n s = none := by
  refine loop_eq_none (fun s => s.readyState ≠ some .opened ∧ s.messageQueue ≠ []) ?_ n ⟨h, hq⟩
  rintro s ⟨h, hq⟩
  obtain ⟨data, rest, hcons⟩ := List.exists_cons_of_ne_nil hq
  refine ⟨_, shift_of_cons hcons, ?_⟩
  rw [send_of_shut (by exact h)]
  exact ⟨h, List.append_ne_nil_of_right_ne_nil _ (List.cons_ne_nil _ _)⟩

/-! ## Every frame is handed or queued -/

theorem Hands.refl (s : ChatSocket) : s.Hands [] s where
  opened := .inl rfl
  socket := by cases hs : s.socket <;> simp
  left := rfl

theorem begins_queue (told : Emission) (s : ChatSocket) : s.messageQueue <+: (s.begins told).messageQueue := by
  have htold := Leads.emit told { s with retryCount := 0 }
  unfold begins
  simp only
  split
  · exact htold.queue
  · by_cases hs : (emit told { s with retryCount := 0 }).readyState = some .opened
    · obtain ⟨w, hw, hr⟩ := Option.map_eq_some_iff.1 hs
      rw [announce_of_opened hw hr]
      exact htold.queue
    · rw [announce_of_shut hs]
      exact htold.queue.trans (List.prefix_append _ _)

theorem handleOpenTelling_of_throws {told : Emission} (h : told.throws = true) (n : Nat) (s : ChatSocket) :
    s.handleOpenTelling told n = some (s.begins told) := by
  unfold handleOpenTelling begins
  simp only
  rw [if_pos h, if_pos h]

theorem handleOpenTelling_of_returns {told : Emission} (h : told.throws = false) (n : Nat) (s : ChatSocket) :
    s.handleOpenTelling told n = (loop shift n (s.begins told)).map fun s => { s with pingTimer := true } := by
  unfold handleOpenTelling begins
  simp only
  rw [h, if_neg Bool.false_ne_true, if_neg Bool.false_ne_true]

/-- Told by no listener, a socket that opens is flushed as the client's own model has it. -/
theorem handleOpenTelling_returned (hw : s.socket = some w) (hr : w.readyState = .opened) {n : Nat}
    (hn : s.messageQueue.length < n) : s.handleOpenTelling .returned n = some (s.handleOpen .shared) := by
  have hbegins : s.begins .returned = { s with retryCount := 0 }.announce := rfl
  rw [handleOpenTelling_of_returns rfl, hbegins,
    announce_of_opened (s := { s with retryCount := 0 }) hw hr, loop_of_opened rfl (by exact hr) (by exact hn),
    handleOpen_eq hw hr]
  simp [handshake]

theorem begins_opened_iff {told : Emission} (h : told.throws = false) (s : ChatSocket) :
    (s.begins told).readyState = some .opened ↔ s.readyState = some .opened ∧ told.Spares s.token := by
  have hiff := emit_opened_iff told { s with retryCount := 0 }
  unfold begins
  simp only
  rw [h, if_neg Bool.false_ne_true]
  refine Iff.trans ?_ hiff
  by_cases hs : (emit told { s with retryCount := 0 }).readyState = some .opened
  · obtain ⟨w, hw, hr⟩ := Option.map_eq_some_iff.1 hs
    rw [announce_of_opened hw hr]
    exact iff_of_true (congrArg some hr) hs
  · rw [announce_of_shut hs]
    exact Iff.rfl

/-- With the socket gone the loop begins with an empty queue where there is nothing to say. -/
theorem begins_empty_iff {told : Emission} (h : told.throws = false)
    (hs : ¬ (s.readyState = some .opened ∧ told.Spares s.token)) :
    (s.begins told).messageQueue = [] ↔ (emit told { s with retryCount := 0 }).NothingToSay := by
  have hshut : (emit told { s with retryCount := 0 }).readyState ≠ some .opened :=
    mt (emit_opened_iff told { s with retryCount := 0 }).1 hs
  unfold begins
  simp only
  rw [h, if_neg Bool.false_ne_true, announce_of_shut hshut]
  simp [NothingToSay, handshake]

theorem delivers_of_loop {told : Emission} (h : told.throws = false) {n : Nat} {handed : List Data}
    (hloop : loop shift n (s.begins told) = some t) (hhands : (s.begins told).Hands handed t)
    (hqueue : handed ++ t.messageQueue = (s.begins told).messageQueue) : s.Delivers told := by
  refine ⟨begins_queue told s, n, { t with pingTimer := true }, handed, ?_, ?_, hqueue⟩
  · rw [handleOpenTelling_of_returns h, hloop, Option.map_some]
  · exact ⟨hhands.opened, hhands.socket, hhands.left⟩

/-- The call ends with every frame handed or queued exactly when a listener throws, or the listeners leave the socket open,
or they leave nothing to say. -/
theorem delivers_iff (told : Emission) (s : ChatSocket) : s.Delivers told ↔
    told.throws = true ∨ (s.readyState = some .opened ∧ told.Spares s.token) ∨
      (emit told { s with retryCount := 0 }).NothingToSay := by
  cases hthrows : told.throws with
  | true =>
    refine iff_of_true ⟨begins_queue told s, 0, s.begins told, [], ?_, .refl _, rfl⟩ (.inl rfl)
    exact handleOpenTelling_of_throws hthrows 0 s
  | false =>
    rw [or_iff_right Bool.false_ne_true]
    by_cases hopened : s.readyState = some .opened ∧ told.Spares s.token
    · obtain ⟨w, hw, hr⟩ := Option.map_eq_some_iff.1 ((begins_opened_iff hthrows s).2 hopened)
      refine iff_of_true ?_ (.inl hopened)
      refine delivers_of_loop hthrows (loop_of_opened hw hr (Nat.lt_succ_self _)) ?_ (List.append_nil _)
      exact ⟨.inr (by rw [readyState, hw, Option.map_some, hr]), by rw [hw, Option.map_some], rfl⟩
    · rw [or_iff_right hopened, ← begins_empty_iff hthrows hopened]
      constructor
      · -- a loop that begins without an open socket is never over
        rintro ⟨-, n, s', -, hends, -⟩
        by_contra hq
        have hloop := loop_of_shut (mt (begins_opened_iff hthrows s).1 hopened) hq n
        rw [handleOpenTelling_of_returns hthrows, hloop] at hends
        cases hends
      · intro hq
        exact delivers_of_loop hthrows (loop_of_none (shift_of_nil hq) 0) (.refl _) rfl

/-- Somebody is signed out as soon as the socket is open, while a room is followed. -/
theorem not_delivers_disconnect :
    ¬ Delivers (.calls .disconnect .returned) { new with
      socket := some { WebSocket.new none with readyState := .opened }
      subscribedRooms := [⟨1⟩] } := by
  rintro ⟨-, n, s', -, hends, -⟩
  rw [handleOpenTelling_of_returns rfl, loop_of_shut (by rintro ⟨⟩) (by rintro ⟨⟩)] at hends
  cases hends

end ChatSocket

end Genzh.Client
