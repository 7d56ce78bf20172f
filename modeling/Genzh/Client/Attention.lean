/-
Client and server on the rooms followed and the room read. Each side keeps its own account of them, and frames
carry the client's to the server: at once over an open socket, else by way of the queue, after a handshake that
says everything again. The last frame about a room decides whether the session follows it; the last `focus` or
`unsubscribe` decides what it is said to be reading.
-/
import Genzh.Client.Effect
import Genzh.Lib.Run
import Genzh.Room.Request

namespace Genzh.Client

open Genzh.Lib Genzh.Domain Genzh.Room Genzh.Api
open Genzh.Infrastructure (Db)

def frames (ds : List Data) : List Frame := ds.map (·.frame)

@[simp] theorem frames_append (ds es : List Data) : frames (ds ++ es) = frames ds ++ frames es := List.map_append

/-- What a session is said to be reading after these frames. -/
def Mark.claim : Mark → Option RoomId
  | .claims roomId => roomId
  | .leaves => none

def claim (fs : List Frame) : Option RoomId := (lastWrite Frame.mark fs).bind Mark.claim

/-! ## The session follows what it has heard -/

/-- The session stands where the frames it has heard put it. -/
structure Follows (session : Session) (heard : List Frame) : Prop where
  user : session.currentUser.isSome = true
  rooms : ∀ r, r ∈ session.subscribedRooms ↔ lastWrite (Frame.follows r) heard = some true
  focused : session.focusedRoom = (claim heard).filter session.isSubscribed
  pending : session.pendingFocus = (claim heard).filter fun r => !session.isSubscribed r

section Follows

variable {session : Session} {heard : List Frame} {db : Db} {r : RoomId}

theorem attend_of_user (h : session.currentUser.isSome = true) (roomId : Option RoomId) :
    session.attend roomId = { session with
      pendingFocus := roomId.filter fun id => !session.isSubscribed id
      focusedRoom := roomId.filter fun id => session.isSubscribed id } := by
  obtain ⟨u, hu⟩ := Option.isSome_iff_exists.1 h
  unfold Session.attend
  rw [hu]

theorem claim_of_mark {frame : Frame} {mark : Mark} (h : frame.mark = some mark) : claim (heard ++ [frame]) = mark.claim := by
  unfold claim
  rw [lastWrite_append, lastWrite_singleton, h, Option.some_or, Option.bind_some]

theorem claim_of_unmarked {frame : Frame} (h : frame.mark = none) : claim (heard ++ [frame]) = claim heard := by
  unfold claim
  rw [lastWrite_append, lastWrite_singleton, h, Option.none_or]

theorem Follows.focus (h : Follows session heard) (roomId : Option RoomId) :
    Follows (session.attend roomId) (heard ++ [.focus roomId]) := by
  rw [attend_of_user h.user]
  refine ⟨h.user, fun r => ?_, ?_, ?_⟩
  · rw [lastWrite_append, lastWrite_singleton]
    exact h.rooms r
  · rw [claim_of_mark rfl]
    rfl
  · rw [claim_of_mark rfl]
    rfl

theorem Follows.unsubscribe (h : Follows session heard) (roomId : RoomId) :
    Follows ((session.unsubscribe roomId).attend none) (heard ++ [.unsubscribe roomId]) := by
  rw [attend_of_user (by exact h.user)]
  refine ⟨h.user, fun r => ?_, ?_, ?_⟩
  · rw [lastWrite_append, lastWrite_singleton, follows_unsubscribe]
    unfold Session.unsubscribe
    rw [List.mem_filter, decide_eq_true_eq, h.rooms r]
    split
    · rename_i heq
      simp [heq]
    · rename_i hne
      simp [Ne.symm hne]
  · rw [claim_of_mark rfl]
    rfl
  · rw [claim_of_mark rfl]
    rfl

/-- A subscription leaves the claim as it is, and grants it if it was the one waiting. -/
theorem Follows.subscribe (h : Follows session heard) (roomId : RoomId) :
    Follows (session.subscribe roomId) (heard ++ [.subscribe roomId]) := by
  have hrooms : ∀ r, r ∈ roomId :: session.subscribedRooms.filter (· ≠ roomId) ↔
      lastWrite (Frame.follows r) (heard ++ [.subscribe roomId]) = some true := by
    intro r
    rw [lastWrite_append, lastWrite_singleton, follows_subscribe, List.mem_cons, List.mem_filter, decide_eq_true_eq,
      h.rooms r]
    split
    · rename_i heq
      simp [heq]
    · rename_i hne
      simp [Ne.symm hne]
  have hclaim : claim (heard ++ [.subscribe roomId]) = claim heard := claim_of_unmarked rfl
  unfold Session.subscribe
  simp only
  split
  · rename_i hwaits
    -- the room that waited is the one claimed
    have hread : claim heard = some roomId := by
      rw [h.pending] at hwaits
      exact (Option.filter_eq_some_iff.1 hwaits).1
    rw [attend_of_user (by exact h.user)]
    refine ⟨h.user, hrooms, ?_, ?_⟩
    · rw [hclaim, hread]
      rfl
    · rw [hclaim, hread]
      rfl
  · rename_i hwaits
    -- a claim to another room stands as it did, and one to this room was granted before
    have hsame : ∀ r, claim heard = some r →
        Session.isSubscribed { session with subscribedRooms := roomId :: session.subscribedRooms.filter (· ≠ roomId) } r =
          session.isSubscribed r := by
      intro r hr
      refine decide_eq_decide.2 ?_
      rw [List.mem_cons, List.mem_filter, decide_eq_true_eq]
      by_cases hroom : r = roomId
      · subst hroom
        have hin : r ∈ session.subscribedRooms := by
          by_contra hout
          exact hwaits (by rw [h.pending, hr]; simp [Session.isSubscribed, hout])
        simp [hin]
      · simp [hroom]
    refine ⟨h.user, hrooms, ?_, ?_⟩
    · rw [hclaim]
      refine h.focused.trans ?_
      rcases hr : claim heard with _ | r
      · rfl
      · exact congrArg (fun b : Bool => if b = true then some r else none) (hsame r hr).symm
    · rw [hclaim]
      refine h.pending.trans ?_
      rcases hr : claim heard with _ | r
      · rfl
      · exact congrArg (fun b : Bool => if (!b) = true then some r else none) (hsame r hr).symm

/-- The room a frame asks to follow. -/
def Frame.asks : Frame → Option RoomId
  | .subscribe roomId => some roomId
  | _ => none

/-- Whoever the session is for can see the room a frame asks to follow. -/
def Admits (db : Db) (session : Session) (frame : Frame) : Prop :=
  ∀ roomId ∈ frame.asks, ∀ u ∈ session.currentUser, (visibleAccess db roomId u).isOk = true

instance (db : Db) (session : Session) (frame : Frame) : Decidable (Admits db session frame) :=
  inferInstanceAs (Decidable (∀ roomId ∈ frame.asks, ∀ u ∈ session.currentUser, (visibleAccess db roomId u).isOk = true))

theorem Follows.handle (h : Follows session heard) {frame : Frame} (hsilent : frame.speaks = false)
    (hadmits : Admits db session frame) : Follows (handle db session frame) (heard ++ [frame]) := by
  have hother : ∀ frame : Frame, frame.mark = none → (∀ r, frame.follows r = none) → Follows session (heard ++ [frame]) := by
    intro frame hmark hfollows
    refine ⟨h.user, fun r => ?_, ?_, ?_⟩
    · rw [lastWrite_append, lastWrite_singleton, hfollows, Option.none_or]
      exact h.rooms r
    · rw [claim_of_unmarked hmark]
      exact h.focused
    · rw [claim_of_unmarked hmark]
      exact h.pending
  cases frame with
  | ping => exact hother _ rfl fun _ => rfl
  | subscribe roomId =>
    obtain ⟨u, hu⟩ := Option.isSome_iff_exists.1 h.user
    have hok := hadmits roomId rfl u hu
    unfold Client.handle command
    simp only
    rw [hu]
    simp only
    rcases hv : visibleAccess db roomId u with e | a
    · rw [hv] at hok
      cases hok
    · exact h.subscribe roomId
  | unsubscribe roomId => exact h.unsubscribe roomId
  | focus roomId => exact h.focus roomId
  | typing roomId isTyping => cases hsilent
  | sendMessage roomId content isAnonymous => cases hsilent
  | react roomId messageId reaction => exact hother _ rfl fun _ => rfl
  | unreact roomId messageId reaction => exact hother _ rfl fun _ => rfl

end Follows

/-! ## The frames follow the client -/

/-- What the frames tell of the rooms followed and the room read, they tell as the client has it. -/
structure Agrees (fs : List Frame) (rooms : List RoomId) (read : Option RoomId) : Prop where
  silent : ∀ frame ∈ fs, frame.speaks = false
  joins : ∀ r b, lastWrite (Frame.follows r) fs = some b → (b = true ↔ r ∈ rooms)
  claims : ∀ r, lastWrite Frame.mark fs = some (.claims r) → read = r

/-- The frames leave nothing out that a session just opened would not know. -/
structure Covers (fs : List Frame) (rooms : List RoomId) (read : Option RoomId) : Prop where
  others : ∀ r, lastWrite (Frame.follows r) fs = none → r ∉ rooms
  keeps : lastWrite Frame.mark fs = none → read = none

section Agrees

variable {fs gs : List Frame} {frame : Frame} {rooms rooms' : List RoomId} {read read' : Option RoomId}

theorem Agrees.tells (h : Agrees fs rooms read) (ht : Tells frame rooms read rooms' read') : Agrees (fs ++ [frame]) rooms' read' := by
  refine ⟨fun g hg => ?_, fun r b hb => ?_, fun r hr => ?_⟩
  · rcases List.mem_append.1 hg with hg | hg
    · exact h.silent g hg
    · rw [List.mem_singleton.1 hg]
      exact ht.silent
  · rw [lastWrite_append, lastWrite_singleton] at hb
    rcases hf : frame.follows r with _ | c
    · rw [hf, Option.none_or] at hb
      rw [ht.others r hf]
      exact h.joins r b hb
    · rw [hf, Option.some_or] at hb
      cases hb
      exact ht.joins r b hf
  · rw [lastWrite_append, lastWrite_singleton] at hr
    rcases hm : frame.mark with _ | mark
    · rw [hm, Option.none_or] at hr
      rw [ht.keeps hm]
      exact h.claims r hr
    · rw [hm, Option.some_or] at hr
      exact ht.claims r (hm.trans hr)

theorem Covers.tells (h : Covers fs rooms read) (ht : Tells frame rooms read rooms' read') : Covers (fs ++ [frame]) rooms' read' := by
  refine ⟨fun r hr => ?_, fun hm => ?_⟩
  · rw [lastWrite_append, lastWrite_singleton, Option.or_eq_none_iff] at hr
    rw [ht.others r hr.1]
    exact h.others r hr.2
  · rw [lastWrite_append, lastWrite_singleton, Option.or_eq_none_iff] at hm
    rw [ht.keeps hm.1]
    exact h.keeps hm.2

/-- Frames that leave nothing out, and then others. -/
theorem Agrees.append (h : Agrees fs rooms read) (hc : Covers fs rooms read) (hg : Agrees gs rooms read) :
    Agrees (fs ++ gs) rooms read ∧ Covers (fs ++ gs) rooms read := by
  refine ⟨⟨fun g hmem => ?_, fun r b hb => ?_, fun r hr => ?_⟩, ⟨fun r hr => ?_, fun hm => ?_⟩⟩
  · exact (List.mem_append.1 hmem).elim (h.silent g) (hg.silent g)
  · rw [lastWrite_append] at hb
    rcases hw : lastWrite (Frame.follows r) gs with _ | c
    · rw [hw, Option.none_or] at hb
      exact h.joins r b hb
    · rw [hw, Option.some_or] at hb
      cases hb
      exact hg.joins r b hw
  · rw [lastWrite_append] at hr
    rcases hm : lastWrite Frame.mark gs with _ | mark
    · rw [hm, Option.none_or] at hr
      exact h.claims r hr
    · rw [hm, Option.some_or] at hr
      exact hg.claims r (hm.trans hr)
  · rw [lastWrite_append, Option.or_eq_none_iff] at hr
    exact hc.others r hr.2
  · rw [lastWrite_append, Option.or_eq_none_iff] at hm
    exact hc.keeps hm.2

end Agrees

theorem lastWrite_subscriptions (rooms : List RoomId) (r : RoomId) :
    lastWrite (Frame.follows r) (rooms.map .subscribe) = if r ∈ rooms then some true else none := by
  induction rooms with
  | nil => rfl
  | cons id rooms ih =>
    rw [List.map_cons, lastWrite_cons, ih, follows_subscribe]
    by_cases hr : r ∈ rooms
    · simp [hr]
    · by_cases hid : id = r
      · simp [hr, hid]
      · simp [hr, hid, Ne.symm hid]

theorem subscriptions_agree (rooms : List RoomId) :
    Agrees (rooms.map .subscribe) rooms none ∧ Covers (rooms.map .subscribe) rooms none := by
  have hmark : lastWrite Frame.mark (rooms.map .subscribe) = none := by
    rw [lastWrite_eq_none]
    rintro frame hframe
    obtain ⟨id, -, rfl⟩ := List.mem_map.1 hframe
    rfl
  refine ⟨⟨fun frame hframe => ?_, fun r b hb => ?_, fun r hr => ?_⟩, ⟨fun r hr hin => ?_, fun _ => rfl⟩⟩
  · obtain ⟨id, -, rfl⟩ := List.mem_map.1 hframe
    rfl
  · rw [lastWrite_subscriptions] at hb
    split at hb
    · rename_i hin
      cases hb
      exact iff_of_true rfl hin
    · cases hb
  · rw [hmark] at hr
    cases hr
  · rw [lastWrite_subscriptions, if_pos hin] at hr
    cases hr

/-- A handshake says everything. -/
theorem handshake_agrees (s : ChatSocket) : Agrees (frames s.handshake) s.subscribedRooms s.focusedRoom ∧
    Covers (frames s.handshake) s.subscribedRooms s.focusedRoom := by
  have hframes : frames s.handshake = s.subscribedRooms.map .subscribe ++ (s.focusedRoom.map fun r => Frame.focus (some r)).toList := by
    unfold ChatSocket.handshake
    rw [frames_append]
    rcases s.focusedRoom with _ | r <;> simp [frames, Function.comp_def]
  obtain ⟨ha, hc⟩ := subscriptions_agree s.subscribedRooms
  rw [hframes]
  rcases s.focusedRoom with _ | r
  · rw [Option.map_none, Option.toList_none, List.append_nil]
    exact ⟨ha, hc⟩
  · exact ⟨ha.tells (tells_focus (some r)), hc.tells (tells_focus (some r))⟩

/-! ## Both follow through a run -/

namespace ChatSocket

variable {s : ChatSocket} {w : WebSocket}

/-- Client, queue, socket and session in step. The socket's frames are only all there is to know while it is
open: what a client says after that waits in the queue. -/
structure InStep (s : ChatSocket) : Prop where
  waiting : Agrees (frames s.messageQueue) s.subscribedRooms s.focusedRoom
  fresh : ∀ w, s.socket = some w → w.readyState = .connecting → ∃ token, w = .new token
  idle : ∀ w, s.socket = some w → w.readyState = .opened → s.messageQueue = []
  told : ∀ w, s.socket = some w → w.readyState = .opened →
    Agrees (frames w.sent) s.subscribedRooms s.focusedRoom ∧ Covers (frames w.sent) s.subscribedRooms s.focusedRoom
  silent : ∀ w, s.socket = some w → ∀ frame ∈ frames w.sent, frame.speaks = false
  heard : ∀ w session, s.socket = some w → w.session = some session →
    w.served ≤ w.sent.length ∧ Follows session (frames (w.sent.take w.served))

/-- The session that opens is somebody's, and the rooms it is asked to follow are rooms they see. -/
def Granted (s : ChatSocket) : Event → Prop
  | .opens user => user.isSome = true
  | .serves db => ∀ w ∈ s.socket, ∀ session ∈ w.session, ∀ data ∈ w.sent[w.served]?, Admits db session data.frame
  | _ => True

instance (s : ChatSocket) (e : Event) : Decidable (s.Granted e) := by
  cases e with
  | opens user => exact inferInstanceAs (Decidable (user.isSome = true))
  | serves db =>
    exact inferInstanceAs (Decidable
      (∀ w ∈ s.socket, ∀ session ∈ w.session, ∀ data ∈ w.sent[w.served]?, Admits db session data.frame))
  | _ => exact .isTrue trivial

end ChatSocket

/-- Everything but typing, posting and reacting. -/
def Event.attends : Event → Bool
  | .send _ => false
  | _ => true

namespace ChatSocket

variable {s : ChatSocket} {w : WebSocket}

theorem frames_take_append (ds es : List Data) {n : Nat} (h : n ≤ ds.length) : (ds ++ es).take n = ds.take n :=
  List.take_append_of_le_length h

/-- What tells of a change goes out on an open socket, and waits in the queue otherwise. -/
theorem InStep.tells (h : InStep s) {frame : Frame} {rooms : List RoomId} {read : Option RoomId}
    (ht : Tells frame s.subscribedRooms s.focusedRoom rooms read) :
    InStep ({ s with subscribedRooms := rooms, focusedRoom := read }.say .shared frame) := by
  unfold say
  rcases send_cases .shared { s with subscribedRooms := rooms, focusedRoom := read } ⟨frame, s.token⟩ with
    ⟨w, hw, hopen, hs⟩ | ⟨hopen, -, hs⟩ | ⟨-, hkeeps, -⟩
  · rw [hs]
    obtain ⟨ha, hc⟩ := h.told w hw hopen
    have hqueue : s.messageQueue = [] := h.idle w hw hopen
    refine ⟨?_, ?_, ?_, ?_, ?_, ?_⟩
    · change Agrees (frames s.messageQueue) rooms read
      rw [hqueue]
      exact ⟨fun g hg => (by cases hg), fun r b hb => (by cases hb), fun r hr => (by cases hr)⟩
    · rintro v ⟨⟩ hstate
      cases hopen.symm.trans hstate
    · exact fun v hv hstate => hqueue
    · rintro v ⟨⟩ -
      rw [frames_append]
      exact ⟨ha.tells ht, hc.tells ht⟩
    · rintro v ⟨⟩ g hg
      rw [frames_append] at hg
      rcases List.mem_append.1 hg with hg | hg
      · exact h.silent w hw g hg
      · rw [List.mem_singleton.1 hg]
        exact ht.silent
    · rintro v session ⟨⟩ hsession
      obtain ⟨hle, hf⟩ := h.heard w session hw hsession
      refine ⟨?_, ?_⟩
      · exact hle.trans (by rw [List.length_append]; omega)
      · rw [frames_take_append _ _ hle]
        exact hf
  · rw [hs]
    have hclosed : ∀ v, s.socket = some v → v.readyState ≠ .opened := by
      rintro v hv hstate
      exact hopen (by unfold readyState; rw [hv, Option.map_some, hstate])
    refine ⟨?_, h.fresh, ?_, ?_, h.silent, h.heard⟩
    · change Agrees (frames (s.messageQueue ++ [⟨frame, s.token⟩])) rooms read
      rw [frames_append]
      exact h.waiting.tells ht
    · exact fun v hv hstate => absurd hstate (hclosed v hv)
    · exact fun v hv hstate => absurd hstate (hclosed v hv)
  · cases hkeeps

/-- A socket that opens is told everything, and then what waited. -/
theorem InStep.opens (h : InStep s) (hw : s.socket = some w) (hstate : w.readyState = .connecting) {user : Option UserId}
    (huser : user.isSome = true) : InStep { s with
      socket := some { w with
        readyState := .opened
        session := some (handleSocket user)
        sent := w.sent ++ (s.handshake ++ s.messageQueue) }
      messageQueue := []
      pingTimer := true
      retryCount := 0 } := by
  obtain ⟨token, rfl⟩ := h.fresh w hw hstate
  obtain ⟨ha, hc⟩ := handshake_agrees s
  obtain ⟨hall, hcovers⟩ := ha.append hc h.waiting
  refine ⟨?_, ?_, ?_, ?_, ?_, ?_⟩
  · exact ⟨fun g hg => (by cases hg), fun r b hb => (by cases hb), fun r hr => (by cases hr)⟩
  · rintro v ⟨⟩ hstate
    cases hstate
  · exact fun v hv hstate => rfl
  · rintro v ⟨⟩ -
    rw [frames_append, frames_append]
    exact ⟨hall, hcovers⟩
  · rintro v ⟨⟩ g hg
    rw [frames_append, frames_append] at hg
    exact hall.silent g hg
  · rintro v session ⟨⟩ ⟨⟩
    -- nothing has been heard yet
    refine ⟨Nat.zero_le _, huser, fun r => ?_, rfl, rfl⟩
    exact iff_of_false (fun h => (by cases h)) (fun h => (by cases h))

/-- The session hears the next frame. -/
theorem InStep.serves (h : InStep s) (hw : s.socket = some w) {db : Db} (hgranted : s.Granted (.serves db)) :
    InStep { s with socket := some (w.serve db) } := by
  rcases WebSocket.serve_cases db w with hserve | ⟨session, data, hsession, hdata, hserve⟩ <;> rw [hserve]
  · rw [← hw]
    exact h
  · obtain ⟨hlt, hget⟩ := List.getElem?_eq_some_iff.1 hdata
    have hheard := (h.heard w session hw hsession).2
    have hsilent : data.frame.speaks = false := h.silent w hw _ (List.mem_map.2 ⟨data, List.mem_of_getElem? hdata, rfl⟩)
    refine ⟨h.waiting, ?_, ?_, ?_, ?_, ?_⟩
    · rintro v ⟨⟩ hstate
      -- a socket on its way has no session yet
      obtain ⟨token, rfl⟩ := h.fresh w hw hstate
      cases hsession
    · rintro v ⟨⟩ hstate
      exact h.idle w hw hstate
    · rintro v ⟨⟩ hstate
      exact h.told w hw hstate
    · rintro v ⟨⟩
      exact h.silent w hw
    · rintro v session' ⟨⟩ ⟨⟩
      refine ⟨hlt, ?_⟩
      have htake : w.sent.take (w.served + 1) = w.sent.take w.served ++ [data] := by
        rw [List.take_add_one, hdata, Option.toList_some]
      change Follows (handle db session data.frame) (frames (w.sent.take (w.served + 1)))
      rw [htake, frames_append]
      exact hheard.handle hsilent (hgranted w hw session hsession data hdata)

/-- Every event keeps client, queue, socket and session in step. -/
theorem InStep.step (h : InStep s) {e : Event} (hattends : e.attends = true) (hgranted : s.Granted e) :
    InStep (s.step .shared e) := by
  have heffect := effect .shared s e
  generalize s.step .shared e = s' at heffect ⊢
  cases heffect with
  | idles => exact ⟨h.waiting, h.fresh, h.idle, h.told, h.silent, h.heard⟩
  | tells ht => exact h.tells ht
  | sends => cases hattends
  | renews hnew =>
    -- over a new socket nothing has been said or heard
    have hfresh : ∀ w, _ = some w → ∃ token, w = WebSocket.new token := fun w hw => ⟨_, hnew w hw⟩
    refine ⟨h.waiting, fun w hw _ => hfresh w hw, ?_, ?_, ?_, ?_⟩
    all_goals
      intro w
      intros
      obtain ⟨token, rfl⟩ := hfresh w (by assumption)
      contradiction
  | @shuts _ w _ _ _ _ hw hshut =>
    refine ⟨h.waiting, ?_, ?_, ?_, ?_, ?_⟩
    · rintro v ⟨⟩ hstate
      rcases hshut with rfl | rfl <;> cases hstate
    · rintro v ⟨⟩ hstate
      rcases hshut with rfl | rfl <;> cases hstate
    · rintro v ⟨⟩ hstate
      rcases hshut with rfl | rfl <;> cases hstate
    · rintro v ⟨⟩
      exact h.silent w hw
    · rintro v session ⟨⟩ hsession
      exact h.heard w session hw hsession
  | @opens user w hw hstate => exact h.opens hw hstate hgranted
  | serves hw => exact h.serves hw hgranted

theorem inStep_new : InStep new :=
  ⟨⟨fun g hg => (by cases hg), fun r b hb => (by cases hb), fun r hr => (by cases hr)⟩, fun w hw => (by cases hw),
    fun w hw => (by cases hw), fun w hw => (by cases hw), fun w hw => (by cases hw), fun w session hw => (by cases hw)⟩

theorem inStep_run {es : List Event} (hattends : ∀ e ∈ es, e.attends = true)
    (hgranted : Along (step .shared) Granted new es) : InStep (run (step .shared) new es) := by
  have hkeeps : ∀ (es : List Event) (s : ChatSocket), InStep s → (∀ e ∈ es, e.attends = true) →
      Along (step .shared) Granted s es → InStep (run (step .shared) s es) := by
    intro es
    induction es with
    | nil => exact fun s h _ _ => h
    | cons e es ih =>
      intro s h hattends hgranted
      exact ih _ (h.step (hattends e List.mem_cons_self) hgranted.1) (fun e he => hattends e (List.mem_cons_of_mem _ he))
        hgranted.2
  exact hkeeps es new inStep_new hattends hgranted

/-! ## Once everything has been heard -/

/-- Where the session of an open socket has heard all that was sent, it follows what the frames say. -/
theorem InStep.follows (h : InStep s) (hw : s.socket = some w) (hserved : w.served = w.sent.length) {session : Session}
    (hsession : w.session = some session) : Follows session (frames w.sent) := by
  have hheard := (h.heard w session hw hsession).2
  rwa [hserved, List.take_length] at hheard

/-- Once the session has heard all that was sent over an open socket, it follows the rooms the client follows. It reads
no room but the one the client says is read; and it reads that room, where the client follows it, unless the client
has left a room over this socket since it last said what is read. -/
theorem served_agrees {es : List Event} (hattends : ∀ e ∈ es, e.attends = true)
    (hgranted : Along (step .shared) Granted new es) {w : WebSocket} {session : Session}
    (hw : (run (step .shared) new es).socket = some w) (hopen : w.readyState = .opened)
    (hsession : w.session = some session) (hserved : w.served = w.sent.length) :
    (∀ r, r ∈ session.subscribedRooms ↔ r ∈ (run (step .shared) new es).subscribedRooms) ∧
    (∀ r, session.focusedRoom = some r → (run (step .shared) new es).focusedRoom = some r) ∧
    (lastWrite Frame.mark (frames w.sent) ≠ some .leaves → session.focusedRoom =
      (run (step .shared) new es).focusedRoom.filter fun r => r ∈ (run (step .shared) new es).subscribedRooms) := by
  have h := inStep_run hattends hgranted
  have hfollows := h.follows hw hserved hsession
  generalize run (step .shared) new es = s at h hw ⊢
  obtain ⟨ha, hc⟩ := h.told w hw hopen
  have hrooms : ∀ r, r ∈ session.subscribedRooms ↔ r ∈ s.subscribedRooms := by
    intro r
    rw [hfollows.rooms r]
    rcases hr : lastWrite (Frame.follows r) (frames w.sent) with _ | b
    · exact iff_of_false (fun h => (by cases h)) (hc.others r hr)
    · rw [← ha.joins r b hr, Option.some_inj]
  refine ⟨hrooms, fun r hr => ?_, fun hmark => ?_⟩
  · rw [hfollows.focused] at hr
    obtain ⟨mark, hmark, hclaim⟩ := Option.bind_eq_some_iff.1 (Option.filter_eq_some_iff.1 hr).1
    cases mark with
    | claims roomId =>
      cases hclaim
      exact ha.claims (some r) hmark
    | leaves => cases hclaim
  · have hread : claim (frames w.sent) = s.focusedRoom := by
      unfold claim
      rcases hm : lastWrite Frame.mark (frames w.sent) with _ | mark
      · exact (hc.keeps hm).symm
      · cases mark with
        | claims roomId => exact (ha.claims roomId hm).symm
        | leaves => exact absurd hm hmark
    rw [hfollows.focused, hread]
    rcases s.focusedRoom with _ | r
    · rfl
    · simp only [Option.filter_some, Session.isSubscribed, hrooms r]

/-- `ana` has opened a room. -/
def anasRoom : Db := run Room.step (Db.empty 0) [.register (account ⟨2⟩ "ana"), .create ⟨10⟩ none ⟨2⟩ { name := "den", roomType := .text }]

def denRun : List Event :=
  [.setToken "ana" false, .closes, .subscribe ⟨10⟩, .focus (some ⟨10⟩), .reconnectTimer false, .opens (some ⟨2⟩),
    .serves anasRoom, .serves anasRoom, .serves anasRoom, .serves anasRoom]

/-- She follows her room and reads it while she is offline, and comes back. -/
theorem den_agrees : ∃ (w : WebSocket) (session : Session),
    (run (step .shared) new denRun).socket = some w ∧ w.session = some session ∧
    (∀ r, r ∈ session.subscribedRooms ↔ r ∈ (run (step .shared) new denRun).subscribedRooms) ∧
    (∀ r, session.focusedRoom = some r → (run (step .shared) new denRun).focusedRoom = some r) ∧
    (lastWrite Frame.mark (frames w.sent) ≠ some .leaves → session.focusedRoom =
      (run (step .shared) new denRun).focusedRoom.filter fun r => r ∈ (run (step .shared) new denRun).subscribedRooms) :=
  ⟨_, _, rfl, rfl, served_agrees (by decide) (by decide +kernel) rfl rfl rfl rfl⟩

/-- A room is read before it is followed. The session holds the claim back until it is. -/
theorem early_focus_waits : ¬ ∀ (es : List Event), (∀ e ∈ es, e.attends = true) → Along (step .shared) Granted new es →
    ∀ (w : WebSocket) (session : Session), (run (step .shared) new es).socket = some w → w.readyState = .opened →
    w.session = some session → w.served = w.sent.length →
    (∀ r, r ∈ session.subscribedRooms ↔ r ∈ (run (step .shared) new es).subscribedRooms) ∧
    session.focusedRoom = (run (step .shared) new es).focusedRoom := by
  intro h
  have hrun := h [.setToken "ana" false, .opens (some ⟨2⟩), .focus (some ⟨10⟩), .serves anasRoom] (by decide) (by decide +kernel)
    _ _ rfl rfl rfl rfl
  exact absurd hrun.2 (by decide)

-- Leaving another room takes the session's claim away, not the client's.
example : ((run (step .shared) new [.setToken "ana" false, .subscribe ⟨10⟩, .subscribe ⟨11⟩, .opens (some ⟨2⟩), .focus (some ⟨10⟩),
    .unsubscribe ⟨11⟩]).focusedRoom,
    ([Frame.subscribe ⟨10⟩, .focus (some ⟨10⟩), .unsubscribe ⟨11⟩].foldl (handle anasRoom) (handleSocket (some ⟨2⟩))).focusedRoom) =
      (some ⟨10⟩, none) := by
  decide +kernel

end ChatSocket

end Genzh.Client
