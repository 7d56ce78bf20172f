/-
The provider of one-to-one calls, above the room they happen in: a ring in each direction, and what is waited for between
the caller joining and the callee arriving. Its handlers and timers read what the last render showed; its effects run at a
render, and each of them only when the value it is keyed on has changed.
-/
import Genzh.Api.Protocol
import Genzh.Client.Voice

namespace Genzh.Client.Calls

open Genzh.Domain Genzh.Api

variable {U : Type}

/-! ## State -/

/-- A call of `start`: whose it is, their how-many-th, and in which room. The code knows the room alone. -/
structure CallRef (U : Type) where
  caller : U
  number : Nat
  roomId : RoomId
  deriving DecidableEq, Repr

/-- Somebody is calling you. -/
structure IncomingCall (U : Type) where
  call : CallRef U
  fromUserId : U
  fromDisplayName : String
  video : Bool
  deriving DecidableEq, Repr

/-- You are calling somebody, and they have not picked up. -/
structure OutgoingCall (U : Type) where
  call : CallRef U
  peerId : U
  peerName : String
  video : Bool
  deriving DecidableEq, Repr

/-- What a call of `start` waits for. -/
inductive StartStage where
  | joining (join : Nat)
  | joined
  | camera
  | ringing
  | ended
  deriving DecidableEq, Repr

structure Start (U : Type) where
  roomId : RoomId
  peerId : U
  peerName : String
  video : Bool
  stage : StartStage
  deriving DecidableEq, Repr

/-- What a call of `cancel` waits for. -/
inductive CancelStage where
  /-- The Room, where one was held. -/
  | leaving (leave : Option Nat)
  | notifying
  | completed
  deriving DecidableEq, Repr

structure Cancel (U : Type) where
  call : CallRef U
  stage : CancelStage
  deriving DecidableEq, Repr

/-- What the last render showed: the refs, and the values that effects are keyed on. -/
structure Shown (U : Type) where
  incoming : Option (IncomingCall U)
  outgoing : Option (OutgoingCall U)
  answered : Bool
  activeRoomId : Option RoomId
  deriving DecidableEq, Repr

structure CallProvider (U : Type) where
  voice : Voice.VoiceRoom
  participants : List U
  incoming : Option (IncomingCall U)
  outgoing : Option (OutgoingCall U)
  shown : Shown U
  incomingTimer : Bool
  outgoingTimer : Bool
  starts : List (Start U)
  cancels : List (Cancel U)
  /-- The call whose room was joined last, if it was not left since. -/
  joined : Option (CallRef U)
  deriving DecidableEq, Repr

/-- What a client tells the server. -/
inductive Notice where
  | ring (video : Bool)
  | ended (reason : CallEndReason)
  deriving DecidableEq, Repr

def Notice.isRing : Notice → Bool
  | ring _ => true
  | ended _ => false

structure Request (U : Type) where
  call : CallRef U
  fromUserId : U
  notice : Notice
  deriving DecidableEq, Repr

namespace CallProvider

def new : CallProvider U where
  voice := .new
  participants := []
  incoming := none
  outgoing := none
  shown := { incoming := none, outgoing := none, answered := false, activeRoomId := none }
  incomingTimer := false
  outgoingTimer := false
  starts := []
  cancels := []
  joined := none

/-- Has anybody else come? -/
def answered (x : CallProvider U) : Bool := !x.participants.isEmpty

/-! ## Calls -/

/-- `voice.join` -/
def join (call : CallRef U) (x : CallProvider U) : CallProvider U :=
  { x with voice := Voice.VoiceRoom.Web.join call.roomId x.voice, joined := some call }

/-- `voice.leave`, as far as it comes before it waits. -/
def leave (x : CallProvider U) : CallProvider U :=
  { x with
    voice := Voice.VoiceRoom.Web.leave x.voice
    participants := if x.voice.room.isSome then x.participants else []
    joined := none }

def moveStart (n : Nat) (stage : StartStage) (x : CallProvider U) : CallProvider U :=
  { x with starts := x.starts.modify n fun s => { s with stage } }

/-- Join first, ring second. -/
def start (u : U) (roomId : RoomId) (peerId : U) (peerName : String) (video : Bool) (x : CallProvider U) : CallProvider U :=
  let s : Start U := { roomId, peerId, peerName, video, stage := .joining x.voice.calls.length }
  join ⟨u, x.starts.length, roomId⟩ { x with starts := x.starts ++ [s] }

/-- The call of `start` is shown, and rings. -/
def announce (u : U) (n : Nat) (s : Start U) (x : CallProvider U) : CallProvider U × List (Request U) :=
  let call : CallRef U := ⟨u, n, s.roomId⟩
  let x := { x with outgoing := some { call, peerId := s.peerId, peerName := s.peerName, video := s.video } }
  (x.moveStart n .ringing, [{ call, fromUserId := u, notice := .ring s.video }])

/-- A call of `start` goes on, once it has joined or its camera is on. -/
def proceed (u : U) (n : Nat) (s : Start U) (x : CallProvider U) : CallProvider U × List (Request U) :=
  match s.stage with
  | .joined => if s.video then (x.moveStart n .camera, []) else x.announce u n s
  | .camera => x.announce u n s
  | _ => (x, [])

/-- The request to ring is answered, or fails. -/
def ringAnswered (n : Nat) (ok : Bool) (s : Start U) (x : CallProvider U) : CallProvider U :=
  if s.stage = .ringing then
    let x := x.moveStart n .ended
    if ok then x else leave { x with outgoing := none }
  else x

/-- Pick up. -/
def accept (x : CallProvider U) : CallProvider U :=
  x.shown.incoming.elim x fun call => join call.call { x with incoming := none }

/-- Say no. -/
def decline (u : U) (x : CallProvider U) : CallProvider U × List (Request U) :=
  x.shown.incoming.elim (x, []) fun call =>
    ({ x with incoming := none }, [{ call := call.call, fromUserId := u, notice := .ended .declined }])

/-- A call that is out is given up, and the Room left before the other side is told. -/
def giveUp (call : CallRef U) (waits : Option Nat) (x : CallProvider U) : CallProvider U :=
  leave { x with outgoing := none, cancels := x.cancels ++ [{ call, stage := .leaving waits }] }

/-- Stop calling somebody who has not answered. -/
def cancel (x : CallProvider U) : CallProvider U :=
  x.shown.outgoing.elim x fun call => x.giveUp call.call (if x.voice.room.isSome then some x.voice.leaves.length else none)

def moveCancel (m : Nat) (stage : CancelStage) (x : CallProvider U) : CallProvider U :=
  { x with cancels := x.cancels.modify m fun k => { k with stage } }

/-- A call of `cancel` that has left tells the other side. -/
def cancelProceeds (u : U) (m : Nat) (k : Cancel U) (x : CallProvider U) : CallProvider U × List (Request U) :=
  match k.stage with
  | .leaving waits =>
    if waits.all fun j => x.voice.leaves[j]? = some .ended then
      (x.moveCancel m .notifying, [{ call := k.call, fromUserId := u, notice := .ended .cancelled }])
    else (x, [])
  | _ => (x, [])

/-- Whether the other side could be told makes no difference. -/
def cancelAnswered (m : Nat) (k : Cancel U) (x : CallProvider U) : CallProvider U :=
  if k.stage = .notifying then x.moveCancel m .completed else x

/-! ## Socket events -/

/-- The first ring stands. -/
def ringing (u : U) [DecidableEq U] (call : IncomingCall U) (x : CallProvider U) : CallProvider U :=
  if call.fromUserId = u then x else if x.shown.incoming.isSome then x else { x with incoming := some call }

/-- Declined or hung up: stop calling, and stop sitting alone in the room. -/
def ended (roomId : RoomId) (x : CallProvider U) : CallProvider U :=
  let x := if x.shown.incoming.any (·.call.roomId = roomId) then { x with incoming := none } else x
  if x.shown.outgoing.any (·.call.roomId = roomId) then leave { x with outgoing := none } else x

/-! ## Timers and effects -/

def incomingTimeout (x : CallProvider U) : CallProvider U :=
  if x.incomingTimer then { x with incomingTimer := false, incoming := none } else x

def outgoingTimeout (x : CallProvider U) : CallProvider U :=
  if x.outgoingTimer then cancel { x with outgoingTimer := false } else x

/-- The call that is out while its room was left by any other route. -/
def astray (x : CallProvider U) : Option (OutgoingCall U) :=
  x.outgoing.filter fun call =>
    x.voice.activeRoomId ≠ x.shown.activeRoomId && x.voice.activeRoomId ≠ some call.call.roomId

/-- A render, and the effects after it: the two timers, keyed on the rooms that ring, then an answer, and then a room left. -/
def render (u : U) (x : CallProvider U) : CallProvider U × List (Request U) :=
  let incomingChanged : Bool := x.incoming.map (·.call.roomId) ≠ x.shown.incoming.map (·.call.roomId)
  let outgoingChanged : Bool := x.outgoing.map (·.call.roomId) ≠ x.shown.outgoing.map (·.call.roomId)
  ({ x with
      shown := { incoming := x.incoming, outgoing := x.outgoing, answered := x.answered, activeRoomId := x.voice.activeRoomId }
      incomingTimer := if incomingChanged then x.incoming.isSome else x.incomingTimer
      outgoingTimer := if outgoingChanged then x.outgoing.isSome else x.outgoingTimer
      outgoing := if (x.answered && !x.shown.answered) || x.astray.isSome then none else x.outgoing },
    x.astray.toList.map fun call => { call := call.call, fromUserId := u, notice := .ended .cancelled })

/-! ## The voice room -/

/-- What happens to the calls of `start` that wait for a call of `voice.join`: it resolves with the Room it holds, or it
is rejected. -/
def joinSettled (k : Nat) (before after : Voice.Stage) (starts : List (Start U)) : List (Start U) :=
  if after = .ended then
    starts.map fun s => if s.stage = .joining k then { s with stage := if before = .settling then .joined else .ended } else s
  else starts

/-- What a call of `voice.join` waits for ends; a Room that is held then shows who is in it. -/
def joinEnds (k : Nat) (outcome : Voice.Outcome) (present : List U) (x : CallProvider U) : CallProvider U :=
  x.voice.calls[k]?.elim x fun c =>
    let voice := Voice.VoiceRoom.Web.joinEnds k c.stage outcome x.voice
    { x with
      voice
      participants := if c.stage = .settling then present else x.participants
      starts := voice.calls[k]?.elim x.starts fun d => if c.stage = .ended then x.starts else joinSettled k c.stage d.stage x.starts }

/-- The Room a call of `voice.leave` waits for is disconnected. -/
def leaveEnds (j : Nat) (x : CallProvider U) : CallProvider U :=
  match x.voice.leaves[j]? with
  | some (.disconnecting i) =>
    { x with voice := Voice.VoiceRoom.Web.leaveEnds j (.disconnecting i) x.voice, participants := [], joined := none }
  | _ => x

def disconnected (i : Nat) (x : CallProvider U) : CallProvider U :=
  { x with voice := Voice.VoiceRoom.Web.disconnected i x.voice, participants := [] }

/-- Somebody comes or goes. -/
def refreshParticipants (present : List U) (x : CallProvider U) : CallProvider U :=
  if x.voice.room.isSome then { x with participants := present } else x

end CallProvider

/-! ## Steps -/

/-- What happens at one client. -/
inductive Action (U : Type) where
  | start (roomId : RoomId) (peerId : U) (peerName : String) (video : Bool)
  /-- The `n`-th call of `start` goes on. -/
  | proceed (n : Nat)
  | ringAnswered (n : Nat) (ok : Bool)
  | accept
  | decline
  | cancel
  /-- The `m`-th call of `cancel` goes on. -/
  | cancelProceeds (m : Nat)
  | cancelAnswered (m : Nat)
  | incomingTimeout
  | outgoingTimeout
  | render
  /-- The call is left by any other route. -/
  | leave
  | joinEnds (k : Nat) (outcome : Voice.Outcome) (present : List U)
  | leaveEnds (j : Nat)
  | disconnected (i : Nat)
  | refreshParticipants (present : List U)
  deriving DecidableEq, Repr

/-- The provider of `u` after an action, and what it has told the server. -/
def CallProvider.act (u : U) (x : CallProvider U) : Action U → CallProvider U × List (Request U)
  | .start roomId peerId peerName video => (x.start u roomId peerId peerName video, [])
  | .proceed n => x.starts[n]?.elim (x, []) fun s => x.proceed u n s
  | .ringAnswered n ok => (x.starts[n]?.elim x fun s => x.ringAnswered n ok s, [])
  | .accept => (x.accept, [])
  | .decline => x.decline u
  | .cancel => (x.cancel, [])
  | .cancelProceeds m => x.cancels[m]?.elim (x, []) fun k => x.cancelProceeds u m k
  | .cancelAnswered m => (x.cancels[m]?.elim x fun k => x.cancelAnswered m k, [])
  | .incomingTimeout => (x.incomingTimeout, [])
  | .outgoingTimeout => (x.outgoingTimeout, [])
  | .render => x.render u
  | .leave => (x.leave, [])
  | .joinEnds k outcome present => (x.joinEnds k outcome present, [])
  | .leaveEnds j => (x.leaveEnds j, [])
  | .disconnected i => (x.disconnected i, [])
  | .refreshParticipants present => (x.refreshParticipants present, [])

/-! ## What is asked of an action -/

/-- The clock of a call runs out: nobody has picked up. -/
def SparesAnswered (x : CallProvider U) : Prop :=
  x.outgoingTimer = true → ∀ call ∈ x.shown.outgoing, x.voice.activeRoomId = some call.call.roomId → call.peerId ∉ x.participants

/-- Whatever is of another call than `c` stays. -/
structure Spares (c : CallRef U) (x x' : CallProvider U) : Prop where
  incoming : ∀ call ∈ x.incoming, call.call ≠ c → x'.incoming = some call
  outgoing : ∀ call ∈ x.outgoing, call.call ≠ c → x'.outgoing = some call
  joined : ∀ d ∈ x.joined, d ≠ c → x'.joined = some d

/-- The calls an action ends, or finds to have failed. A Room that is only now disconnected was that of a call left before. -/
def Ends (u : U) (x : CallProvider U) (c : CallRef U) : Action U → Prop
  | .ringAnswered n ok => ok = false ∧ ∃ s ∈ x.starts[n]?, c = ⟨u, n, s.roomId⟩
  | .decline | .incomingTimeout => ∃ call ∈ x.shown.incoming, c = call.call
  | .cancel | .outgoingTimeout => ∃ call ∈ x.shown.outgoing, c = call.call
  | .render => ∃ call ∈ x.outgoing, c = call.call
  | .leave => x.joined = some c
  | .leaveEnds _ => True
  | _ => False

/-- Is the call of `start` that goes on the one that is shown next? -/
def Start.announces (s : Start U) : Bool := s.stage = .camera || (s.stage = .joined && !s.video)

namespace CallProvider

/-- No call of `start` and no call of `leave` waits for anything. -/
def Free (x : CallProvider U) : Prop := (∀ s ∈ x.starts, s.stage = .ended) ∧ x.voice.Left

/-- What is shown of the call that is out is what there is. -/
def Rendered (x : CallProvider U) : Prop :=
  x.shown.outgoing = x.outgoing ∧ x.shown.answered = x.answered ∧ x.shown.activeRoomId = x.voice.activeRoomId

/-- A call is started or picked up while no other is being started or left; it is shown once the room that it joined has
been rendered, with nobody in it; and what gives it up is rendered. -/
def Ready (x : CallProvider U) : Action U → Prop
  | .start .. => x.Free
  | .accept => x.shown.incoming.isSome = true → x.Free
  | .proceed n => ∀ s ∈ x.starts[n]?, s.announces = true →
      x.shown.answered = false ∧ x.shown.activeRoomId = x.voice.activeRoomId
  | .cancel => x.shown.outgoing.isSome = true → x.Rendered
  | .outgoingTimeout => x.outgoingTimer = true → x.shown.outgoing.isSome = true → x.Rendered
  | _ => True

/-- The calls a client has to do with. -/
inductive Mentions (u : U) (x : CallProvider U) : CallRef U → Prop
  | incoming {call : IncomingCall U} (h : x.incoming = some call) : Mentions u x call.call
  | shownIncoming {call : IncomingCall U} (h : x.shown.incoming = some call) : Mentions u x call.call
  | outgoing {call : OutgoingCall U} (h : x.outgoing = some call) : Mentions u x call.call
  | shownOutgoing {call : OutgoingCall U} (h : x.shown.outgoing = some call) : Mentions u x call.call
  | joined {d : CallRef U} (h : x.joined = some d) : Mentions u x d
  | starting {n : Nat} {s : Start U} (h : x.starts[n]? = some s) (hs : s.stage ≠ .ended) : Mentions u x ⟨u, n, s.roomId⟩
  | cancelling {k : Cancel U} {waits : Option Nat} (h : k ∈ x.cancels) (hk : k.stage = .leaving waits) : Mentions u x k.call

/-! ## What an action does -/

section Effect

variable {u : U} {x : CallProvider U}

/-- Calls of `start` that have gone on: none begins, and none rings that did not. -/
structure Moved (starts starts' : List (Start U)) : Prop where
  length : starts'.length = starts.length
  back : ∀ (n : Nat) (s' : Start U), starts'[n]? = some s' → ∃ s, starts[n]? = some s ∧ s'.roomId = s.roomId ∧
    (s'.stage ≠ .ended → s.stage ≠ .ended) ∧ (s'.stage = .ringing → s.stage = .ringing)
  forth : ∀ (n : Nat) (s : Start U), starts[n]? = some s → s.stage = .ringing ∨ s.stage = .ended →
    ∃ s', starts'[n]? = some s' ∧ (s'.stage = .ringing ∨ s'.stage = .ended)

theorem moved_modify {starts : List (Start U)} {n : Nat} {s : Start U} {stage : StartStage} (hs : starts[n]? = some s)
    (hwaits : s.stage ≠ .ended) (hstage : stage ≠ .ringing) (hringing : s.stage = .ringing → stage = .ended) :
    Moved starts (starts.modify n fun s => { s with stage }) where
  length := List.length_modify ..
  back k s' hs' := by
    rcases Voice.modify_some.1 hs' with ⟨rfl, s₀, hs₀, rfl⟩ | ⟨-, hs'⟩
    · obtain rfl := Option.some.inj (hs₀.symm.trans hs)
      exact ⟨s₀, hs₀, rfl, fun _ => hwaits, fun h => absurd h hstage⟩
    · exact ⟨s', hs', rfl, id, id⟩
  forth k s' hs' hpast := by
    by_cases hk : k = n
    · subst hk
      obtain rfl := Option.some.inj (hs'.symm.trans hs)
      refine ⟨{ s' with stage }, Voice.modify_some.2 (.inl ⟨rfl, s', hs', rfl⟩), .inr (hringing ?_)⟩
      exact hpast.resolve_right hwaits
    · exact ⟨s', Voice.modify_some.2 (.inr ⟨hk, hs'⟩), hpast⟩

theorem moved_refl (starts : List (Start U)) : Moved starts starts where
  length := rfl
  back _ s hs := ⟨s, hs, rfl, id, id⟩
  forth _ s hs hpast := ⟨s, hs, hpast⟩

theorem moved_joinSettled (k : Nat) (before after : Voice.Stage) (starts : List (Start U)) :
    Moved starts (joinSettled k before after starts) := by
  unfold joinSettled
  split
  · have hmap : ∀ (n : Nat) (s' : Start U), (starts.map fun s => if s.stage = .joining k then
        { s with stage := if before = .settling then .joined else .ended } else s)[n]? = some s' ↔
        ∃ s, starts[n]? = some s ∧ (if s.stage = .joining k then
          { s with stage := if before = .settling then .joined else .ended } else s) = s' := by
      intro n s'
      rw [List.getElem?_map, Option.map_eq_some_iff]
    refine ⟨List.length_map _, ?_, ?_⟩
    · intro n s' hs'
      obtain ⟨s, hs, rfl⟩ := (hmap n s').1 hs'
      refine ⟨s, hs, ?_⟩
      by_cases hjoining : s.stage = .joining k
      · rw [if_pos hjoining]
        refine ⟨rfl, fun _ hended => ?_, fun hringing => ?_⟩
        · rw [hjoining] at hended
          cases hended
        · change (if before = .settling then StartStage.joined else .ended) = .ringing at hringing
          split at hringing <;> cases hringing
      · rw [if_neg hjoining]
        exact ⟨rfl, id, id⟩
    · intro n s hs hpast
      refine ⟨s, (hmap n s).2 ⟨s, hs, if_neg fun hjoining => ?_⟩, hpast⟩
      rw [hjoining] at hpast
      rcases hpast with h | h <;> cases h
  · exact moved_refl starts

theorem moved_ringAnswered {starts : List (Start U)} {n : Nat} {s : Start U} (hs : starts[n]? = some s) (hstage : s.stage = .ringing) :
    Moved starts (starts.modify n fun s => { s with stage := .ended }) :=
  moved_modify hs (by rw [hstage]; exact fun h => (by cases h)) (fun h => by cases h) fun _ => rfl

theorem moved_camera {starts : List (Start U)} {n : Nat} {s : Start U} (hs : starts[n]? = some s) (hstage : s.stage = .joined) :
    Moved starts (starts.modify n fun s => { s with stage := .camera }) :=
  moved_modify hs (by rw [hstage]; exact fun h => (by cases h)) (fun h => by cases h) fun h => by rw [hstage] at h; cases h

/-- The one that is shown has yet to ring. -/
theorem waits_of_announces {s : Start U} (h : s.announces = true) : s.stage ≠ .ringing ∧ s.stage ≠ .ended := by
  unfold Start.announces at h
  simp only [Bool.or_eq_true, Bool.and_eq_true, decide_eq_true_eq] at h
  rcases h with h | ⟨h, -⟩ <;> rw [h] <;> exact ⟨fun h => (by cases h), fun h => (by cases h)⟩

/-- What the end of a wait of `voice.join` changes. -/
theorem joinEnds_spec (k : Nat) (outcome : Voice.Outcome) (present : List U) (x : CallProvider U) :
    ∃ voice participants starts, x.joinEnds k outcome present = { x with voice, participants, starts } ∧
      voice.activeRoomId = x.voice.activeRoomId ∧ voice.leaves = x.voice.leaves ∧ Moved x.starts starts := by
  unfold joinEnds
  cases hk : x.voice.calls[k]? with
  | none => exact ⟨x.voice, x.participants, x.starts, rfl, rfl, rfl, moved_refl _⟩
  | some c =>
    refine ⟨_, _, _, rfl, ?_, ?_, ?_⟩
    · exact Voice.activeRoomId_joinEnds k c.stage outcome x.voice
    · exact Voice.leaves_joinEnds k c.stage outcome x.voice
    · cases (Voice.VoiceRoom.Web.joinEnds k c.stage outcome x.voice).calls[k]? with
      | none => exact moved_refl _
      | some d =>
        show Moved x.starts (if c.stage = .ended then x.starts else joinSettled k c.stage d.stage x.starts)
        split
        · exact moved_refl _
        · exact moved_joinSettled k c.stage d.stage x.starts

/-- What a Room that is disconnected changes. -/
theorem leaveEnds_spec (j : Nat) (x : CallProvider U) :
    x.leaveEnds j = x ∨ ∃ i voice, x.voice.leaves[j]? = some (.disconnecting i) ∧
      x.leaveEnds j = { x with voice, participants := [], joined := none } ∧ voice.activeRoomId = none := by
  unfold leaveEnds
  split
  · rename_i i hj
    exact .inr ⟨i, _, hj, rfl, rfl⟩
  · exact .inl rfl

/-- What an action can do to the provider, and what it tells the server. -/
inductive Effect (u : U) (x : CallProvider U) : Action U → CallProvider U → List (Request U) → Prop
  | start {roomId : RoomId} {peerId : U} {peerName : String} {video : Bool} :
    Effect u x (.start roomId peerId peerName video) (x.start u roomId peerId peerName video) []
  | announced {n : Nat} {s : Start U} (hs : x.starts[n]? = some s) (ha : s.announces = true) :
    Effect u x (.proceed n) (x.announce u n s).1 (x.announce u n s).2
  | camera {n : Nat} {s : Start U} (hs : x.starts[n]? = some s) (hj : s.stage = .joined) : Effect u x (.proceed n) (x.moveStart n .camera) []
  | rang {n : Nat} {s : Start U} (hs : x.starts[n]? = some s) (hr : s.stage = .ringing) :
    Effect u x (.ringAnswered n true) (x.moveStart n .ended) []
  | failed {n : Nat} {s : Start U} (hs : x.starts[n]? = some s) (hr : s.stage = .ringing) :
    Effect u x (.ringAnswered n false) (leave { x.moveStart n .ended with outgoing := none }) []
  | accepted {call : IncomingCall U} (hi : x.shown.incoming = some call) : Effect u x .accept (join call.call { x with incoming := none }) []
  | declined {call : IncomingCall U} (hi : x.shown.incoming = some call) :
    Effect u x .decline { x with incoming := none } [{ call := call.call, fromUserId := u, notice := .ended .declined }]
  | cancelled {a : Action U} {call : OutgoingCall U} {waits : Option Nat} {outgoingTimer : Bool} (ho : x.shown.outgoing = some call)
    (ha : a = .cancel ∨ a = .outgoingTimeout ∧ x.outgoingTimer = true) : Effect u x a (giveUp call.call waits { x with outgoingTimer }) []
  | told {m : Nat} {k : Cancel U} {waits : Option Nat} (hk : x.cancels[m]? = some k) (hl : k.stage = .leaving waits) :
    Effect u x (.cancelProceeds m) (x.moveCancel m .notifying) [{ call := k.call, fromUserId := u, notice := .ended .cancelled }]
  | completed {m : Nat} {k : Cancel U} (hk : x.cancels[m]? = some k) (hn : k.stage = .notifying) :
    Effect u x (.cancelAnswered m) (x.moveCancel m .completed) []
  | missed : Effect u x .incomingTimeout { x with incomingTimer := false, incoming := none } []
  | rendered : Effect u x .render (x.render u).1 (x.render u).2
  | left : Effect u x .leave x.leave []
  | disconnected {j i : Nat} {voice : Voice.VoiceRoom} (hj : x.voice.leaves[j]? = some (.disconnecting i)) (hv : voice.activeRoomId = none) :
    Effect u x (.leaveEnds j) { x with voice, participants := [], joined := none } []
  /-- All of the calls stays, but that calls of `start` may have joined. -/
  | stays {a : Action U} {voice : Voice.VoiceRoom} {participants : List U} {incomingTimer outgoingTimer : Bool} {starts : List (Start U)}
    (hv : voice.activeRoomId = x.voice.activeRoomId) (hl : voice.leaves = x.voice.leaves) (hm : Moved x.starts starts) :
    Effect u x a { x with voice, participants, incomingTimer, outgoingTimer, starts } []

theorem effect_none (a : Action U) : Effect u x a x [] := .stays rfl rfl (moved_refl _)

theorem effect_cancel {a : Action U} {outgoingTimer : Bool} (ha : a = .cancel ∨ a = .outgoingTimeout ∧ x.outgoingTimer = true) :
    Effect u x a (cancel { x with outgoingTimer }) [] := by
  unfold cancel
  cases ho : x.shown.outgoing with
  | none => exact .stays rfl rfl (moved_refl _)
  | some call => exact .cancelled ho ha

/-- Every action has one of the effects. -/
theorem effect (u : U) (x : CallProvider U) (a : Action U) : Effect u x a (x.act u a).1 (x.act u a).2 := by
  cases a with
  | start => exact .start
  | proceed n =>
    show Effect u x (.proceed n) (x.starts[n]?.elim (x, []) fun s => x.proceed u n s).1 (x.starts[n]?.elim (x, []) fun s => x.proceed u n s).2
    cases hs : x.starts[n]? with
    | none => exact effect_none _
    | some s =>
      -- by how far the start has come: it waits for its camera, or announces itself
      show Effect u x (.proceed n) (x.proceed u n s).1 (x.proceed u n s).2
      unfold proceed
      cases hstage : s.stage with
      | joined =>
        cases hvideo : s.video with
        | true => exact .camera hs hstage
        | false => exact .announced hs (by rw [Start.announces, hstage, hvideo]; rfl)
      | camera => exact .announced hs (by rw [Start.announces, hstage]; rfl)
      | joining k => exact effect_none _
      | ringing => exact effect_none _
      | ended => exact effect_none _
  | ringAnswered n ok =>
    show Effect u x (.ringAnswered n ok) (x.starts[n]?.elim x fun s => x.ringAnswered n ok s) []
    cases hs : x.starts[n]? with
    | none => exact effect_none _
    | some s =>
      show Effect u x (.ringAnswered n ok) (x.ringAnswered n ok s) []
      unfold ringAnswered
      split
      · rename_i hstage
        cases ok with
        | true => exact .rang hs hstage
        | false => exact .failed hs hstage
      · exact effect_none _
  | accept =>
    show Effect u x .accept x.accept []
    unfold accept
    cases hi : x.shown.incoming with
    | none => exact effect_none _
    | some call => exact .accepted hi
  | decline =>
    show Effect u x .decline (x.decline u).1 (x.decline u).2
    unfold decline
    cases hi : x.shown.incoming with
    | none => exact effect_none _
    | some call => exact .declined hi
  | cancel => exact @effect_cancel U u x .cancel x.outgoingTimer (.inl rfl)
  | cancelProceeds m =>
    show Effect u x (.cancelProceeds m) (x.cancels[m]?.elim (x, []) fun k => x.cancelProceeds u m k).1
      (x.cancels[m]?.elim (x, []) fun k => x.cancelProceeds u m k).2
    cases hk : x.cancels[m]? with
    | none => exact effect_none _
    | some k =>
      show Effect u x (.cancelProceeds m) (x.cancelProceeds u m k).1 (x.cancelProceeds u m k).2
      unfold cancelProceeds
      split
      · rename_i waits hleaving
        split
        · exact .told hk hleaving
        · exact effect_none _
      · exact effect_none _
  | cancelAnswered m =>
    show Effect u x (.cancelAnswered m) (x.cancels[m]?.elim x fun k => x.cancelAnswered m k) []
    cases hk : x.cancels[m]? with
    | none => exact effect_none _
    | some k =>
      show Effect u x (.cancelAnswered m) (x.cancelAnswered m k) []
      unfold cancelAnswered
      split
      · rename_i hnotifying
        exact .completed hk hnotifying
      · exact effect_none _
  | incomingTimeout =>
    show Effect u x .incomingTimeout x.incomingTimeout []
    unfold incomingTimeout
    split
    · exact .missed
    · exact effect_none _
  | outgoingTimeout =>
    show Effect u x .outgoingTimeout x.outgoingTimeout []
    unfold outgoingTimeout
    split
    · rename_i htimer
      exact effect_cancel (.inr ⟨rfl, htimer⟩)
    · exact effect_none _
  | render => exact .rendered
  | leave => exact .left
  | joinEnds k outcome present =>
    obtain ⟨voice, participants, starts, hx, hactive, hleaves, hmoved⟩ := joinEnds_spec k outcome present x
    show Effect u x (.joinEnds k outcome present) (x.joinEnds k outcome present) []
    rw [hx]
    exact .stays hactive hleaves hmoved
  | leaveEnds j =>
    show Effect u x (.leaveEnds j) (x.leaveEnds j) []
    rcases leaveEnds_spec j x with hx | ⟨i, voice, hj, hx, hactive⟩ <;> rw [hx]
    · exact effect_none _
    · exact .disconnected hj hactive
  | disconnected i => exact .stays rfl rfl (moved_refl _)
  | refreshParticipants present =>
    show Effect u x (.refreshParticipants present) (x.refreshParticipants present) []
    unfold refreshParticipants
    split
    · exact .stays rfl rfl (moved_refl _)
    · exact effect_none _

/-- The call that is out after a render was so before, with no answer just seen, and its room not just left. -/
theorem outgoing_of_render {call : OutgoingCall U} (h : (x.render u).1.outgoing = some call) :
    x.outgoing = some call ∧ (x.answered = true → x.shown.answered = true) ∧
      (x.voice.activeRoomId = x.shown.activeRoomId ∨ x.voice.activeRoomId = some call.call.roomId) := by
  change (if (x.answered && !x.shown.answered) || x.astray.isSome then none else x.outgoing) = some call at h
  split at h
  · cases h
  rename_i hstays
  simp only [Bool.or_eq_true, Bool.and_eq_true, Bool.not_eq_true', not_or, not_and, Bool.not_eq_false] at hstays
  refine ⟨h, hstays.1, ?_⟩
  by_contra haway
  rw [not_or] at haway
  apply hstays.2
  unfold astray
  rw [h, Option.filter_some, if_pos]
  · rfl
  · simpa using haway

/-- A call that has ended is given up by whoever was shown it. -/
theorem ended_cases (roomId : RoomId) (x : CallProvider U) :
    ∃ y, (y = x ∨ (∃ call ∈ x.shown.incoming, call.call.roomId = roomId) ∧ y = { x with incoming := none }) ∧
      (x.ended roomId = y ∨ (∃ call ∈ x.shown.outgoing, call.call.roomId = roomId) ∧ x.ended roomId = leave { y with outgoing := none }) := by
  -- both clauses read what was shown before either of them
  have hgiven : ∀ y : CallProvider U, y.shown = x.shown →
      (if y.shown.outgoing.any (·.call.roomId = roomId) then leave { y with outgoing := none } else y) = y ∨
      (∃ call ∈ x.shown.outgoing, call.call.roomId = roomId) ∧
        (if y.shown.outgoing.any (·.call.roomId = roomId) then leave { y with outgoing := none } else y) = leave { y with outgoing := none } := by
    intro y hy
    split
    · rename_i hany
      obtain ⟨call, hcall, hroom⟩ := (Option.any_eq_true _ _).1 hany
      rw [hy] at hcall
      exact .inr ⟨⟨call, hcall, of_decide_eq_true hroom⟩, rfl⟩
    · exact .inl rfl
  unfold ended
  by_cases hany : x.shown.incoming.any (·.call.roomId = roomId) = true
  · obtain ⟨call, hcall, hroom⟩ := (Option.any_eq_true _ _).1 hany
    refine ⟨{ x with incoming := none }, .inr ⟨⟨call, hcall, of_decide_eq_true hroom⟩, rfl⟩, ?_⟩
    rw [if_pos hany]
    exact hgiven { x with incoming := none } rfl
  · refine ⟨x, .inl rfl, ?_⟩
    rw [if_neg hany]
    exact hgiven x rfl

end Effect

/-! ## The calls a client has to do with -/

section Mentions

variable {u : U} {x : CallProvider U} {c : CallRef U}

/-- Whatever has to do with a call after an action did so before. -/
theorem Mentions.imp {x' : CallProvider U} (h : Mentions u x' c) (hincoming : ∀ call, x'.incoming = some call → Mentions u x call.call)
    (hshownIncoming : ∀ call, x'.shown.incoming = some call → Mentions u x call.call)
    (houtgoing : ∀ call, x'.outgoing = some call → Mentions u x call.call)
    (hshownOutgoing : ∀ call, x'.shown.outgoing = some call → Mentions u x call.call)
    (hjoined : ∀ d, x'.joined = some d → Mentions u x d)
    (hstarting : ∀ (n : Nat) (s : Start U), x'.starts[n]? = some s → s.stage ≠ .ended → Mentions u x ⟨u, n, s.roomId⟩)
    (hcancelling : ∀ k ∈ x'.cancels, ∀ waits, k.stage = .leaving waits → Mentions u x k.call) : Mentions u x c := by
  cases h with
  | incoming h => exact hincoming _ h
  | shownIncoming h => exact hshownIncoming _ h
  | outgoing h => exact houtgoing _ h
  | shownOutgoing h => exact hshownOutgoing _ h
  | joined h => exact hjoined _ h
  | starting h hs => exact hstarting _ _ h hs
  | cancelling h hk => exact hcancelling _ h _ hk

theorem mentions_of_dropIncoming (h : Mentions u { x with incoming := none } c) : Mentions u x c :=
  h.imp (fun _ h => by cases h) (fun _ h => .shownIncoming h) (fun _ h => .outgoing h) (fun _ h => .shownOutgoing h) (fun _ h => .joined h)
    (fun _ _ h => .starting h) fun _ h _ => .cancelling h

theorem mentions_of_dropOutgoing (h : Mentions u { x with outgoing := none } c) : Mentions u x c :=
  h.imp (fun _ h => .incoming h) (fun _ h => .shownIncoming h) (fun _ h => by cases h) (fun _ h => .shownOutgoing h) (fun _ h => .joined h)
    (fun _ _ h => .starting h) fun _ h _ => .cancelling h

theorem mentions_of_leave (h : Mentions u x.leave c) : Mentions u x c :=
  h.imp (fun _ h => .incoming h) (fun _ h => .shownIncoming h) (fun _ h => .outgoing h) (fun _ h => .shownOutgoing h) (fun _ h => by cases h)
    (fun _ _ h => .starting h) fun _ h _ => .cancelling h

/-- The voice room and the timers have nothing to do with it. -/
theorem mentions_of_same {voice : Voice.VoiceRoom} {participants : List U} {incomingTimer outgoingTimer : Bool}
    (h : Mentions u { x with voice, participants, incomingTimer, outgoingTimer } c) : Mentions u x c :=
  h.imp (fun _ h => .incoming h) (fun _ h => .shownIncoming h) (fun _ h => .outgoing h) (fun _ h => .shownOutgoing h) (fun _ h => .joined h)
    (fun _ _ h => .starting h) fun _ h _ => .cancelling h

theorem mentions_of_join {call : CallRef U} (hcall : c ≠ call) (h : Mentions u (x.join call) c) : Mentions u x c := by
  cases h with
  | joined h => exact absurd (Option.some.inj h).symm hcall
  | incoming h => exact .incoming h
  | shownIncoming h => exact .shownIncoming h
  | outgoing h => exact .outgoing h
  | shownOutgoing h => exact .shownOutgoing h
  | starting h hs => exact .starting h hs
  | cancelling h hk => exact .cancelling h hk

theorem mentions_of_moved {starts' : List (Start U)} (hm : Moved x.starts starts') (h : Mentions u { x with starts := starts' } c) :
    Mentions u x c := by
  refine h.imp (fun _ h => .incoming h) (fun _ h => .shownIncoming h) (fun _ h => .outgoing h) (fun _ h => .shownOutgoing h) (fun _ h => .joined h)
    ?_ fun _ h _ => .cancelling h
  intro n s' hs' hwaits
  obtain ⟨s, hs, hroom, hstage, -⟩ := hm.back n s' hs'
  rw [hroom]
  exact .starting hs (hstage hwaits)

theorem mentions_of_announce {n : Nat} {s : Start U} (hs : x.starts[n]? = some s) (hwaits : s.stage ≠ .ended)
    (h : Mentions u (x.announce u n s).1 c) : Mentions u x c := by
  refine h.imp (fun _ h => .incoming h) (fun _ h => .shownIncoming h) ?_ (fun _ h => .shownOutgoing h) (fun _ h => .joined h) ?_ fun _ h _ => .cancelling h
  · rintro call hcall
    obtain rfl := Option.some.inj hcall
    exact .starting hs hwaits
  · intro k s' hs' hwaits'
    rcases Voice.modify_some.1 hs' with ⟨rfl, s₀, hs₀, rfl⟩ | ⟨-, hs'⟩
    · obtain rfl := Option.some.inj (hs₀.symm.trans hs)
      exact .starting (s := s₀) hs₀ hwaits
    · exact .starting hs' hwaits'

theorem mentions_of_moveCancel {m : Nat} {stage : CancelStage} (hstage : ∀ waits, stage ≠ .leaving waits)
    (h : Mentions u (x.moveCancel m stage) c) : Mentions u x c := by
  refine h.imp (fun _ h => .incoming h) (fun _ h => .shownIncoming h) (fun _ h => .outgoing h) (fun _ h => .shownOutgoing h) (fun _ h => .joined h)
    (fun _ _ h => .starting h) ?_
  intro k hk waits hleaving
  obtain ⟨i, hi⟩ := List.mem_iff_getElem?.1 hk
  rcases Voice.modify_some.1 hi with ⟨-, k, -, rfl⟩ | ⟨-, hold⟩
  · exact absurd hleaving (hstage waits)
  · exact .cancelling (List.mem_of_getElem? hold) hleaving

theorem mentions_of_giveUp {call : OutgoingCall U} {waits : Option Nat} (ho : x.shown.outgoing = some call)
    (h : Mentions u (x.giveUp call.call waits) c) : Mentions u x c := by
  refine (mentions_of_leave h).imp (fun _ h => .incoming h) (fun _ h => .shownIncoming h) (fun _ h => by cases h) (fun _ h => .shownOutgoing h)
    (fun _ h => .joined h) (fun _ _ h => .starting h) ?_
  intro k hk waits hleaving
  rcases List.mem_append.1 hk with hold | hnew
  · exact .cancelling hold hleaving
  · rw [List.mem_singleton.1 hnew]
    exact .shownOutgoing ho

theorem mentions_of_render (h : Mentions u (x.render u).1 c) : Mentions u x c := by
  refine h.imp (fun _ h => .incoming h) (fun _ h => .incoming h) ?_ (fun _ h => .outgoing h) (fun _ h => .joined h) (fun _ _ h => .starting h)
    fun _ h _ => .cancelling h
  intro call hcall
  exact .outgoing (outgoing_of_render hcall).1

theorem mentions_of_start {roomId : RoomId} {peerId : U} {peerName : String} {video : Bool} (hc : c ≠ ⟨u, x.starts.length, roomId⟩)
    (h : Mentions u (x.start u roomId peerId peerName video) c) : Mentions u x c := by
  replace h := mentions_of_join hc h
  cases h with
  | incoming h => exact .incoming h
  | shownIncoming h => exact .shownIncoming h
  | outgoing h => exact .outgoing h
  | shownOutgoing h => exact .shownOutgoing h
  | joined h => exact .joined h
  | starting hs hwaits =>
    rcases Voice.concat_some.1 hs with hold | ⟨rfl, rfl⟩
    · exact .starting hold hwaits
    · exact absurd rfl hc
  | cancelling h hk => exact .cancelling h hk

/-- A client has to do with the calls it had to do with before, and with one that it starts. -/
theorem Effect.mentions {a : Action U} {y : CallProvider U} {sent : List (Request U)} (e : Effect u x a y sent) (h : Mentions u y c) :
    Mentions u x c ∨ ∃ roomId peerId peerName video, a = .start roomId peerId peerName video ∧ c = ⟨u, x.starts.length, roomId⟩ := by
  cases e with
  | @start roomId peerId peerName video =>
    by_cases hc : c = ⟨u, x.starts.length, roomId⟩
    · exact .inr ⟨roomId, peerId, peerName, video, rfl, hc⟩
    · exact .inl (mentions_of_start hc h)
  | announced hs ha => exact .inl (mentions_of_announce hs (waits_of_announces ha).2 h)
  | camera hs hj => exact .inl (mentions_of_moved (moved_camera hs hj) h)
  | rang hs hr => exact .inl (mentions_of_moved (moved_ringAnswered hs hr) h)
  | failed hs hr => exact .inl (mentions_of_moved (moved_ringAnswered hs hr) (mentions_of_dropOutgoing (mentions_of_leave h)))
  | @accepted call hi =>
    by_cases hc : c = call.call
    · rw [hc]
      exact .inl (.shownIncoming hi)
    · exact .inl (mentions_of_dropIncoming (mentions_of_join hc h))
  | declined hi => exact .inl (mentions_of_dropIncoming h)
  | @cancelled a call waits outgoingTimer ho ha => exact .inl (mentions_of_same (mentions_of_giveUp (x := { x with outgoingTimer }) ho h))
  | told hk hl => exact .inl (mentions_of_moveCancel (fun _ h => by cases h) h)
  | completed hk hn => exact .inl (mentions_of_moveCancel (fun _ h => by cases h) h)
  | missed => exact .inl (mentions_of_same (mentions_of_dropIncoming (x := { x with incomingTimer := false }) h))
  | rendered => exact .inl (mentions_of_render h)
  | left => exact .inl (mentions_of_leave h)
  | disconnected hj hv =>
    refine .inl (h.imp (fun _ h => .incoming h) (fun _ h => .shownIncoming h) (fun _ h => .outgoing h) (fun _ h => .shownOutgoing h)
      (fun _ h => by cases h) (fun _ _ h => .starting h) fun _ h _ => .cancelling h)
  | @stays _ _ _ _ _ starts hv hl hm => exact .inl (mentions_of_moved hm (mentions_of_same (x := { x with starts }) h))

end Mentions

end CallProvider

end Genzh.Client.Calls
