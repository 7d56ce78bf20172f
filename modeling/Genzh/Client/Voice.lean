/-
A client in and out of calls. Each call of `join` takes several steps to have its Room connected, and nothing it waits for
is given up: not by a `leave`, nor by another `join`. The web provider and the phone's client differ in when a `join` is
taken up, in what is left of one that fails, and in whether a Room that is no longer held may still speak.

`quiet_settled`: in a run of either in which a call is only joined while there is none, only left while none is being
joined, only disconnected once it is held, and never fails between the two, what is connected is what was last joined.

A Room is connected from the success of `connect` until its `disconnect` resolves or it fires `Disconnected`.
-/
import Genzh.Domain.Room
import Genzh.Lib.Run

namespace Genzh.Client.Voice

open Genzh.Lib Genzh.Domain

/-! ## State -/

inductive Status where
  | idle
  | connecting
  | connected
  | reconnecting
  | failed
  deriving DecidableEq, Repr

/-- What a call of `join` waits for. -/
inductive Stage where
  /-- The media session. -/
  | media
  /-- The audio route, on a phone. -/
  | routing
  | connecting
  /-- The microphone, which is published muted. -/
  | muting
  /-- Playback and the output device, in the browser. -/
  | settling
  /-- The audio route given back after a failure, on a phone. -/
  | closing (message : Option String)
  | ended
  deriving DecidableEq, Repr

/-- A call of `join`, and the Room it makes. -/
structure Call where
  roomId : RoomId
  stage : Stage
  connected : Bool
  deriving DecidableEq, Repr

/-- What a call of `leave` waits for. -/
inductive Leave where
  | disconnecting (call : Nat)
  /-- The audio route given back, on a phone. -/
  | stopping
  | ended
  deriving DecidableEq, Repr

structure VoiceRoom where
  calls : List Call
  leaves : List Leave
  /-- The Room that is held, by the call that made it. -/
  room : Option Nat
  status : Status
  error : Option String
  activeRoomId : Option RoomId
  deriving DecidableEq, Repr

/-- How a step that is waited for ends. -/
inductive Outcome where
  | done
  | failed (message : Option String)
  deriving DecidableEq, Repr

namespace VoiceRoom

def new : VoiceRoom where
  calls := []
  leaves := []
  room := none
  status := .idle
  error := none
  activeRoomId := none

/-- Another call of `join`. -/
def begin (roomId : RoomId) (s : VoiceRoom) : VoiceRoom :=
  { s with calls := s.calls ++ [⟨roomId, .media, false⟩], status := .connecting, error := none }

/-- A call goes on to wait for something else. -/
def move (k : Nat) (stage : Stage) (s : VoiceRoom) : VoiceRoom :=
  { s with calls := s.calls.modify k fun c => { c with stage } }

/-- The Room of a call is connected, or no longer. -/
def connect (k : Nat) (connected : Bool) (s : VoiceRoom) : VoiceRoom :=
  { s with calls := s.calls.modify k fun c => { c with connected } }

/-- A call has failed. -/
def fail (message : String) (k : Nat) (s : VoiceRoom) : VoiceRoom :=
  { s.move k .ended with status := .failed, error := some message }

/-- A call has its Room. -/
def hold (k : Nat) (s : VoiceRoom) : VoiceRoom := { s.move k .ended with room := some k, status := .connected }

def moveLeave (j : Nat) (leave : Leave) (s : VoiceRoom) : VoiceRoom := { s with leaves := s.leaves.set j leave }

/-! ## The web provider -/

namespace Web

def join (roomId : RoomId) (s : VoiceRoom) : VoiceRoom := { s.begin roomId with activeRoomId := some roomId }

def joinEnds (k : Nat) (stage : Stage) (outcome : Outcome) (s : VoiceRoom) : VoiceRoom :=
  match stage, outcome with
  | .media, .done => s.move k .connecting
  | .connecting, .done => (s.connect k true).move k .muting
  | .muting, .done => s.move k .settling
  -- neither playback nor the output device fails the call
  | .settling, _ => s.hold k
  | .media, .failed message | .connecting, .failed message | .muting, .failed message =>
    s.fail (message.getD "Failed to join room") k
  | _, _ => s

/-- What `leave` does after it has disconnected. -/
def left (s : VoiceRoom) : VoiceRoom := { s with activeRoomId := none, status := .idle, error := none }

def leave (s : VoiceRoom) : VoiceRoom :=
  match s.room with
  | some i => { s with room := none, leaves := s.leaves ++ [.disconnecting i] }
  | none => left s

def leaveEnds (j : Nat) : Leave → VoiceRoom → VoiceRoom
  | .disconnecting i, s => left ((s.connect i false).moveLeave j .ended)
  | _, s => s

/-- The handler of `Disconnected`, which each Room keeps. -/
def disconnected (i : Nat) (s : VoiceRoom) : VoiceRoom := { s.connect i false with room := none, status := .idle }

end Web

/-! ## The phone's client -/

namespace Mobile

def unavailable : String := "WebRTC is not supported in this runtime environment."

def join (available : Bool) (roomId : RoomId) (s : VoiceRoom) : VoiceRoom :=
  if !available then { s with error := some unavailable }
  else if s.status ≠ .idle ∧ s.status ≠ .failed then s
  else s.begin roomId

def joinEnds (k : Nat) (stage : Stage) (outcome : Outcome) (s : VoiceRoom) : VoiceRoom :=
  match stage, outcome with
  | .media, .done => s.move k .routing
  | .media, .failed message => s.fail (message.getD "Could not join media session") k
  | .routing, .done => s.move k .connecting
  -- not caught, and nothing is told
  | .routing, .failed _ => s.move k .ended
  | .connecting, .done => { (s.connect k true).move k .muting with status := .connected }
  | .connecting, .failed message | .muting, .failed message => { s.move k (.closing message) with room := none }
  | .muting, .done => { s.hold k with error := none }
  | .closing message, _ => s.fail (message.getD "Could not connect to the call") k
  | _, _ => s

def leave (s : VoiceRoom) : VoiceRoom :=
  { s with room := none, leaves := s.leaves ++ [s.room.elim .stopping .disconnecting] }

def leaveEnds (j : Nat) : Leave → VoiceRoom → VoiceRoom
  | .disconnecting i, s => (s.connect i false).moveLeave j .stopping
  | .stopping, s => { s.moveLeave j .ended with status := .idle, error := none }
  | .ended, s => s

/-- The handler of `Disconnected`, for the Room that is held. -/
def disconnected (i : Nat) (s : VoiceRoom) : VoiceRoom :=
  if s.room = some i then { s.connect i false with room := none, status := .idle } else s.connect i false

end Mobile

end VoiceRoom

/-! ## Runs -/

inductive Platform where
  | web
  | mobile
  deriving DecidableEq, Repr

inductive Event where
  | join (roomId : RoomId)
  /-- What the `k`-th call of `join` waits for ends. -/
  | joinEnds (k : Nat) (outcome : Outcome)
  | leave
  /-- What the `j`-th call of `leave` waits for ends. -/
  | leaveEnds (j : Nat)
  /-- The Room of the `i`-th call fires `Disconnected`. -/
  | disconnected (i : Nat)
  deriving DecidableEq, Repr

/-- A client, and the room it was last told to join, if it was not told to leave since. -/
structure Told where
  voice : VoiceRoom
  latest : Option RoomId
  deriving DecidableEq, Repr

namespace VoiceRoom

def step (available : Bool) : Platform → VoiceRoom → Event → VoiceRoom
  | .web, s, .join roomId => Web.join roomId s
  | .web, s, .joinEnds k outcome => s.calls[k]?.elim s fun c => Web.joinEnds k c.stage outcome s
  | .web, s, .leave => Web.leave s
  | .web, s, .leaveEnds j => s.leaves[j]?.elim s fun l => Web.leaveEnds j l s
  | .web, s, .disconnected i => Web.disconnected i s
  | .mobile, s, .join roomId => Mobile.join available roomId s
  | .mobile, s, .joinEnds k outcome => s.calls[k]?.elim s fun c => Mobile.joinEnds k c.stage outcome s
  | .mobile, s, .leave => Mobile.leave s
  | .mobile, s, .leaveEnds j => s.leaves[j]?.elim s fun l => Mobile.leaveEnds j l s
  | .mobile, s, .disconnected i => Mobile.disconnected i s

/-- No call of `join` waits for anything. -/
def Joined (s : VoiceRoom) : Prop := ∀ c ∈ s.calls, c.stage = .ended

/-- No call of `leave` waits for anything. -/
def Left (s : VoiceRoom) : Prop := ∀ l ∈ s.leaves, l = .ended

end VoiceRoom

namespace Told

def new : Told := ⟨.new, none⟩

def latestAfter (latest : Option RoomId) : Event → Option RoomId
  | .join roomId => some roomId
  | .leave => none
  | _ => latest

def step (available : Bool) (platform : Platform) (t : Told) (e : Event) : Told :=
  ⟨t.voice.step available platform e, latestAfter t.latest e⟩

/-- Once nothing is waited for: at most one Room is connected, it is that of the room last joined and not left, and the
status says that it is exactly when it is. -/
def Settled (t : Told) : Prop :=
  t.voice.Joined → t.voice.Left →
    (∀ (i j : Nat) c d, t.voice.calls[i]? = some c → t.voice.calls[j]? = some d → c.connected = true → d.connected = true → i = j) ∧
    (∀ c ∈ t.voice.calls, c.connected = true → t.latest = some c.roomId) ∧
    (t.voice.status = .connected ↔ ∃ c ∈ t.voice.calls, c.connected = true)

end Told

/-- A room is joined while none is held and nothing is waited for (on a phone the one that was last joined may be joined
again), and left while none is being joined; a Room is disconnected once its call of `join` has ended, and in the browser
only while no other is held; and the microphone is published. -/
def Orderly (platform : Platform) (t : Told) : Event → Prop
  | .join roomId => (t.voice.Joined ∧ t.voice.Left ∧ t.voice.room = none) ∨
    (platform = .mobile ∧ t.latest = some roomId ∧ t.voice.status ≠ .idle ∧ t.voice.status ≠ .failed)
  | .joinEnds k outcome => ∀ c ∈ t.voice.calls[k]?, c.stage = .muting → outcome = .done
  | .leave => t.voice.Joined
  | .leaveEnds _ => True
  | .disconnected i => (∀ c ∈ t.voice.calls[i]?, c.stage = .ended) ∧ (platform = .web → ∀ k ∈ t.voice.room, k = i)

instance decidableOrderly (platform : Platform) (t : Told) : ∀ e, Decidable (Orderly platform t e)
  | .join _ => inferInstanceAs (Decidable (((∀ c ∈ t.voice.calls, _) ∧ (∀ l ∈ t.voice.leaves, _) ∧ _) ∨ _))
  | .joinEnds k outcome => inferInstanceAs (Decidable (∀ c ∈ t.voice.calls[k]?, c.stage = .muting → outcome = .done))
  | .leave => inferInstanceAs (Decidable (∀ c ∈ t.voice.calls, _))
  | .leaveEnds _ => instDecidableTrue
  | .disconnected i => inferInstanceAs (Decidable ((∀ c ∈ t.voice.calls[i]?, _) ∧ (_ → ∀ k ∈ t.voice.room, k = i)))

/-! ## Calls by their number -/

section Calls

variable {s : VoiceRoom} {calls : List Call} {leaves : List Leave} {c d : Call} {j k : Nat}

theorem joined_iff : s.Joined ↔ ∀ (k : Nat) c, s.calls[k]? = some c → c.stage = .ended := by
  unfold VoiceRoom.Joined
  constructor
  · exact fun h k c hc => h c (List.mem_of_getElem? hc)
  · intro h c hc
    obtain ⟨k, hk⟩ := List.mem_iff_getElem?.1 hc
    exact h k c hk

/-- A list after one of its elements changed. -/
theorem modify_some {α : Type} {l : List α} {f : α → α} {d : α} :
    (l.modify k f)[j]? = some d ↔ (j = k ∧ ∃ c, l[k]? = some c ∧ f c = d) ∨ (j ≠ k ∧ l[j]? = some d) := by
  rw [List.getElem?_modify]
  by_cases hj : j = k
  · subst hj
    simp
  · simp [hj, Ne.symm hj]

theorem of_modified {f : Call → Call} (hk : calls[k]? = some c) (hj : (calls.modify k f)[j]? = some d) :
    (j = k ∧ d = f c) ∨ (j ≠ k ∧ calls[j]? = some d) := by
  refine (modify_some.1 hj).imp_left ?_
  rintro ⟨rfl, c', hc', rfl⟩
  exact ⟨rfl, by rw [Option.some.inj (hc'.symm.trans hk)]⟩

theorem concat_some {α : Type} {l : List α} {c d : α} : (l ++ [c])[k]? = some d ↔ l[k]? = some d ∨ (k = l.length ∧ d = c) := by
  rw [List.getElem?_append]
  split
  · rename_i hk
    constructor
    · exact .inl
    · rintro (h | ⟨rfl, -⟩)
      · exact h
      · exact absurd hk (lt_irrefl _)
  · rename_i hk
    rw [List.getElem?_singleton]
    constructor
    · intro h
      split at h
      · rename_i hzero
        exact .inr ⟨by omega, (Option.some.inj h).symm⟩
      · cases h
    · rintro (h | ⟨rfl, rfl⟩)
      · exact absurd (List.getElem?_eq_some_iff.1 h).1 hk
      · simp

theorem mem_set_of_ne {l l' x : Leave} (hj : leaves[j]? = some l) (hx : x ∈ leaves) (hne : x ≠ l) : x ∈ leaves.set j l' := by
  obtain ⟨i, hi⟩ := List.mem_iff_getElem?.1 hx
  refine List.mem_of_getElem? (i := i) ?_
  rw [List.getElem?_set_ne ?_]
  · exact hi
  · rintro rfl
    exact hne (Option.some.inj (hi.symm.trans hj))

end Calls

/-- What a call of `join` waits for leaves the room alone that is told to be active. -/
theorem activeRoomId_joinEnds (k : Nat) (stage : Stage) (outcome : Outcome) (s : VoiceRoom) :
    (VoiceRoom.Web.joinEnds k stage outcome s).activeRoomId = s.activeRoomId := by
  cases stage <;> cases outcome <;> rfl

theorem leaves_joinEnds (k : Nat) (stage : Stage) (outcome : Outcome) (s : VoiceRoom) :
    (VoiceRoom.Web.joinEnds k stage outcome s).leaves = s.leaves := by
  cases stage <;> cases outcome <;> rfl

/-- A call of `leave` leaves it alone while a Room is disconnected. -/
theorem activeRoomId_leave (s : VoiceRoom) :
    (VoiceRoom.Web.leave s).activeRoomId = none ∨ (VoiceRoom.Web.leave s).activeRoomId = s.activeRoomId := by
  unfold VoiceRoom.Web.leave
  split
  · exact .inr rfl
  · exact .inl rfl

/-! ## The invariant -/

/-- A Room is connected while its call of `join` waits for what comes after. -/
def Stage.joined : Stage → Bool
  | .muting | .settling => true
  | _ => false

/-- Nothing has been connected yet. -/
def Stage.early : Stage → Bool
  | .media | .routing => true
  | _ => false

/-- The Room that is held is connected, and of the room last joined; a call of `join` that waits is the only one that does,
and nothing else is held or waited for; and a Room is connected for its call, or held, or being disconnected. -/
structure Sound (t : Told) : Prop where
  holds : ∀ i, t.voice.room = some i → t.voice.status = .connected ∧
    ∃ c, t.voice.calls[i]? = some c ∧ c.connected = true ∧ t.latest = some c.roomId
  waits : ∀ (k : Nat) c, t.voice.calls[k]? = some c → c.stage ≠ .ended → t.voice.room = none ∧ t.voice.Left ∧
    t.latest = some c.roomId ∧ c.connected = c.stage.joined ∧ ∀ (j : Nat) d, t.voice.calls[j]? = some d → d.stage ≠ .ended → j = k
  connected : ∀ (k : Nat) c, t.voice.calls[k]? = some c → c.connected = true →
    c.stage ≠ .ended ∨ t.voice.room = some k ∨ .disconnecting k ∈ t.voice.leaves
  early : ∀ (k : Nat) c, t.voice.calls[k]? = some c → c.stage.early = true → t.voice.status ≠ .connected
  leaving : ∀ l ∈ t.voice.leaves, l ≠ .ended → t.voice.room = none
  idle : t.voice.room = none → t.voice.Joined → t.voice.Left → t.voice.status ≠ .connected

namespace Sound

variable {t : Told} {s : VoiceRoom} {latest : Option RoomId} {k : Nat} {c : Call} {f : Call → Call} {roomId : RoomId}

theorem new : Sound Told.new where
  holds i hi := (by cases hi)
  waits k c hc := (by cases hc)
  connected k c hc := (by cases hc)
  early k c hc := (by cases hc)
  leaving l hl := (by cases hl)
  idle _ _ _ := (by decide)

theorem settled (h : Sound t) : t.Settled := by
  intro hjoined hleft
  have hheld : ∀ (k : Nat) c, t.voice.calls[k]? = some c → c.connected = true → t.voice.room = some k := by
    intro k c hc hconnected
    rcases h.connected k c hc hconnected with hstage | hroom | hleaving
    · exact absurd (joined_iff.1 hjoined k c hc) hstage
    · exact hroom
    · exact absurd (hleft _ hleaving) (by simp)
  refine ⟨fun i j c d hc hd hcc hdc => ?_, fun c hc hconnected => ?_, ?_⟩
  · exact Option.some.inj ((hheld i c hc hcc).symm.trans (hheld j d hd hdc))
  · obtain ⟨k, hk⟩ := List.mem_iff_getElem?.1 hc
    obtain ⟨-, d, hd, -, hlatest⟩ := h.holds k (hheld k c hk hconnected)
    rwa [Option.some.inj (hk.symm.trans hd)]
  · constructor
    · intro hstatus
      rcases hroom : t.voice.room with _ | i
      · exact absurd hstatus (h.idle hroom hjoined hleft)
      · obtain ⟨-, c, hc, hconnected, -⟩ := h.holds i hroom
        exact ⟨c, List.mem_of_getElem? hc, hconnected⟩
    · rintro ⟨c, hc, hconnected⟩
      obtain ⟨k, hk⟩ := List.mem_iff_getElem?.1 hc
      exact (h.holds k (hheld k c hk hconnected)).1

/-- A call of `join` that is not taken up. -/
theorem refuse (h : Sound t) (hjoined : t.voice.Joined) (hroom : t.voice.room = none) (hcalls : s.calls = t.voice.calls)
    (hleaves : s.leaves = t.voice.leaves) (hs : s.room = none) (hstatus : s.status = t.voice.status) : Sound ⟨s, latest⟩ where
  holds i hi := absurd (hs.symm.trans hi) (by simp)
  waits k c hc hstage := absurd (joined_iff.1 hjoined k c (hcalls ▸ hc)) hstage
  connected k c hc hconnected := by
    have hold := h.connected k c (hcalls ▸ hc) hconnected
    rwa [hroom, ← hs, ← hleaves] at hold
  early k c hc hearly := absurd hearly (by rw [joined_iff.1 hjoined k c (hcalls ▸ hc)]; decide)
  leaving l _ _ := hs
  idle _ hj hl := by
    have hj' : t.voice.Joined := fun c hc => hj c (hcalls ▸ hc)
    have hl' : t.voice.Left := fun l hl' => hl l (hleaves ▸ hl')
    rw [hstatus]
    exact h.idle hroom hj' hl'

/-- A call of `join` that is. -/
theorem begin (h : Sound t) (hjoined : t.voice.Joined) (hleft : t.voice.Left) (hroom : t.voice.room = none)
    (hcalls : s.calls = t.voice.calls ++ [⟨roomId, .media, false⟩]) (hleaves : s.leaves = t.voice.leaves) (hs : s.room = none)
    (hstatus : s.status ≠ .connected) : Sound ⟨s, some roomId⟩ := by
  have hmem : ∀ (k : Nat) c, s.calls[k]? = some c → (t.voice.calls[k]? = some c ∧ c.stage = .ended) ∨
      (k = t.voice.calls.length ∧ c = ⟨roomId, .media, false⟩) := by
    intro k c hc
    rw [hcalls, concat_some] at hc
    exact hc.imp_left fun hold => ⟨hold, joined_iff.1 hjoined k c hold⟩
  exact {
    holds := fun i hi => absurd (hs.symm.trans hi) (by simp)
    waits := fun k c hc hstage => by
      rcases hmem k c hc with ⟨-, hended⟩ | ⟨hk, rfl⟩
      · exact absurd hended hstage
      · refine ⟨hs, fun l hl => hleft l (hleaves ▸ hl), rfl, rfl, fun j d hd hdstage => ?_⟩
        rcases hmem j d hd with ⟨-, hended⟩ | ⟨hj, -⟩
        · exact absurd hended hdstage
        · exact hj.trans hk.symm
    connected := fun k c hc hconnected => by
      rcases hmem k c hc with ⟨hold, -⟩ | ⟨-, rfl⟩
      · have hbefore := h.connected k c hold hconnected
        rwa [hroom, ← hs, ← hleaves] at hbefore
      · cases hconnected
    early := fun _ _ _ _ => hstatus
    leaving := fun l _ _ => hs
    idle := fun _ hj _ => by
      have hlast := hj ⟨roomId, .media, false⟩ (hcalls ▸ List.mem_append_right _ List.mem_cons_self)
      cases hlast }

/-- A call of `join` that goes on waits for the next thing. -/
theorem advance (h : Sound t) (hk : t.voice.calls[k]? = some c) (hstage : c.stage ≠ .ended)
    (hcalls : s.calls = t.voice.calls.modify k f) (hleaves : s.leaves = t.voice.leaves) (hs : s.room = none)
    (hroomId : (f c).roomId = c.roomId) (hnext : (f c).stage ≠ .ended) (hjoined : (f c).connected = (f c).stage.joined)
    (hearly : (f c).stage.early = true → s.status ≠ .connected) : Sound ⟨s, t.latest⟩ := by
  obtain ⟨hroom, hleft, hlatest, -, hunique⟩ := h.waits k c hk hstage
  have hleft' : s.Left := fun l hl => hleft l (hleaves ▸ hl)
  have hcall : ∀ (j : Nat) d, s.calls[j]? = some d → (j = k ∧ d = f c) ∨ (j ≠ k ∧ t.voice.calls[j]? = some d) :=
    fun j d hd => of_modified hk (hcalls ▸ hd)
  exact {
    holds := fun i hi => absurd (hs.symm.trans hi) (by simp)
    waits := fun j d hd hdstage => by
      rcases hcall j d hd with ⟨rfl, rfl⟩ | ⟨hj, hd⟩
      · refine ⟨hs, hleft', by rw [hroomId]; exact hlatest, hjoined, fun i e he hestage => ?_⟩
        rcases hcall i e he with ⟨rfl, -⟩ | ⟨-, he⟩
        · rfl
        · exact hunique i e he hestage
      · exact absurd (hunique j d hd hdstage) hj
    connected := fun j d hd hconnected => by
      rcases hcall j d hd with ⟨rfl, rfl⟩ | ⟨-, hd⟩
      · exact .inl hnext
      · have hbefore := h.connected j d hd hconnected
        rwa [hroom, ← hs, ← hleaves] at hbefore
    early := fun j d hd hdearly => by
      rcases hcall j d hd with ⟨-, rfl⟩ | ⟨hj, hd⟩
      · exact hearly hdearly
      · exact absurd (hunique j d hd fun hended => absurd hdearly (by rw [hended]; decide)) hj
    leaving := fun l _ _ => hs
    idle := fun _ hj _ => by
      have hmem : (f c) ∈ s.calls := by
        refine List.mem_of_getElem? (i := k) ?_
        rw [hcalls, modify_some]
        exact .inl ⟨rfl, c, hk, rfl⟩
      exact absurd (hj _ hmem) hnext }

/-- A call of `join` that ends has its Room, or none. -/
theorem finish (h : Sound t) (hk : t.voice.calls[k]? = some c) (hstage : c.stage ≠ .ended)
    (hcalls : s.calls = t.voice.calls.modify k f) (hleaves : s.leaves = t.voice.leaves)
    (hroomId : (f c).roomId = c.roomId) (hended : (f c).stage = .ended)
    (hs : ((f c).connected = true ∧ s.room = some k ∧ s.status = .connected) ∨
      ((f c).connected = false ∧ s.room = none ∧ s.status ≠ .connected)) : Sound ⟨s, t.latest⟩ := by
  obtain ⟨hroom, hleft, hlatest, -, hunique⟩ := h.waits k c hk hstage
  have hleft' : s.Left := fun l hl => hleft l (hleaves ▸ hl)
  have hcall : ∀ (j : Nat) d, s.calls[j]? = some d → (j = k ∧ d = f c) ∨ (j ≠ k ∧ t.voice.calls[j]? = some d) :=
    fun j d hd => of_modified hk (hcalls ▸ hd)
  have hjoined : ∀ (j : Nat) d, s.calls[j]? = some d → d.stage = .ended := by
    intro j d hd
    rcases hcall j d hd with ⟨-, rfl⟩ | ⟨hj, hd⟩
    · exact hended
    · by_contra hdstage
      exact hj (hunique j d hd hdstage)
  exact {
    holds := fun i hi => by
      rcases hs with ⟨hconnected, hroom', hstatus⟩ | ⟨-, hroom', -⟩
      · obtain rfl := Option.some.inj (hroom'.symm.trans hi)
        refine ⟨hstatus, f c, ?_, hconnected, by rw [hroomId]; exact hlatest⟩
        rw [hcalls, modify_some]
        exact .inl ⟨rfl, c, hk, rfl⟩
      · exact absurd (hroom'.symm.trans hi) (by simp)
    waits := fun j d hd hdstage => absurd (hjoined j d hd) hdstage
    connected := fun j d hd hconnected => by
      rcases hcall j d hd with ⟨rfl, rfl⟩ | ⟨-, hold⟩
      · rcases hs with ⟨-, hroom', -⟩ | ⟨hnot, -, -⟩
        · exact .inr (.inl hroom')
        · exact absurd (hconnected.symm.trans hnot) (by simp)
      · rcases h.connected j d hold hconnected with hwaits | hheld | hleaving
        · exact absurd (hjoined j d hd) hwaits
        · exact absurd (hroom.symm.trans hheld) (by simp)
        · exact .inr (.inr (hleaves ▸ hleaving))
    early := fun j d hd hdearly => absurd hdearly (by rw [hjoined j d hd]; decide)
    leaving := fun l hl hne => absurd (hleft' l hl) hne
    idle := fun hnone _ _ => by
      rcases hs with ⟨-, hroom', -⟩ | ⟨-, -, hstatus⟩
      · exact absurd (hnone.symm.trans hroom') (by simp)
      · exact hstatus }

/-- A call of `leave` lets go of the Room. -/
theorem letGo {l : Leave} (h : Sound t) (hjoined : t.voice.Joined) (hcalls : s.calls = t.voice.calls) (hs : s.room = none)
    (hleaves : s.leaves = t.voice.leaves ∨ s.leaves = t.voice.leaves ++ [l])
    (hheld : ∀ i, t.voice.room = some i → .disconnecting i ∈ s.leaves)
    (hidle : s.Left → s.status ≠ .connected) : Sound ⟨s, none⟩ where
  holds i hi := absurd (hs.symm.trans hi) (by simp)
  waits k c hc hstage := absurd (joined_iff.1 hjoined k c (hcalls ▸ hc)) hstage
  connected k c hc hconnected := by
    rcases h.connected k c (hcalls ▸ hc) hconnected with hstage | hroom | hleaving
    · exact .inl hstage
    · exact .inr (.inr (hheld k hroom))
    · rcases hleaves with hleaves | hleaves
      · exact .inr (.inr (hleaves ▸ hleaving))
      · exact .inr (.inr (hleaves ▸ List.mem_append_left _ hleaving))
  early k c hc hearly := absurd hearly (by rw [joined_iff.1 hjoined k c (hcalls ▸ hc)]; decide)
  leaving l _ _ := hs
  idle _ _ hl := hidle hl

/-- A call of `leave` goes on: if a Room is disconnected, it is the one. -/
theorem letGone {l l' : Leave} {j : Nat} (h : Sound t) (hj : t.voice.leaves[j]? = some l) (hl : l ≠ .ended)
    (hcalls : (∃ i, l = .disconnecting i ∧ s.calls = t.voice.calls.modify i fun c => { c with connected := false }) ∨
      (l = .stopping ∧ s.calls = t.voice.calls))
    (hleaves : s.leaves = t.voice.leaves.set j l') (hs : s.room = t.voice.room)
    (hidle : s.Left → s.status ≠ .connected) : Sound ⟨s, t.latest⟩ := by
  have hnone : s.room = none := hs.trans (h.leaving l (List.mem_of_getElem? hj) hl)
  have hcall : ∀ (k : Nat) c, s.calls[k]? = some c → ∃ c', t.voice.calls[k]? = some c' ∧ c'.stage = c.stage ∧
      (c.connected = true → c'.connected = true ∧ l ≠ .disconnecting k) := by
    intro k c hc
    rcases hcalls with ⟨i, rfl, hcalls⟩ | ⟨rfl, hcalls⟩
    · rw [hcalls, modify_some] at hc
      rcases hc with ⟨rfl, c', hc', rfl⟩ | ⟨hk, hc⟩
      · exact ⟨c', hc', rfl, fun hfalse => (by cases hfalse)⟩
      · exact ⟨c, hc, rfl, fun hconnected => ⟨hconnected, fun heq => hk (Leave.disconnecting.inj heq).symm⟩⟩
    · exact ⟨c, hcalls ▸ hc, rfl, fun hconnected => ⟨hconnected, fun heq => (by cases heq)⟩⟩
  have hjoined : ∀ (k : Nat) c, s.calls[k]? = some c → c.stage = .ended := by
    intro k c hc
    obtain ⟨c', hc', hstage, -⟩ := hcall k c hc
    by_contra hwaits
    exact hl ((h.waits k c' hc' (hstage ▸ hwaits)).2.1 l (List.mem_of_getElem? hj))
  exact {
    holds := fun i hi => absurd (hnone.symm.trans hi) (by simp)
    waits := fun k c hc hstage => absurd (hjoined k c hc) hstage
    connected := fun k c hc hconnected => by
      obtain ⟨c', hc', hstage, hconn⟩ := hcall k c hc
      obtain ⟨hconnected', hne⟩ := hconn hconnected
      rcases h.connected k c' hc' hconnected' with hwaits | hroom | hleaving
      · exact absurd (hstage.trans (hjoined k c hc)) hwaits
      · exact absurd (hs.trans hroom) (by rw [hnone]; simp)
      · exact .inr (.inr (hleaves ▸ mem_set_of_ne hj hleaving (Ne.symm hne)))
    early := fun k c hc hearly => absurd hearly (by rw [hjoined k c hc]; decide)
    leaving := fun _ _ _ => hnone
    idle := fun _ _ hleft => hidle hleft }

/-- A Room is disconnected: the one that is held, or one that is not. -/
theorem drop {i : Nat} (h : Sound t) (hended : ∀ c, t.voice.calls[i]? = some c → c.stage = .ended)
    (hcalls : s.calls = t.voice.calls.modify i fun c => { c with connected := false }) (hleaves : s.leaves = t.voice.leaves)
    (hs : (s.room = none ∧ s.status ≠ .connected ∧ ∀ k, t.voice.room = some k → k = i) ∨
      (s.room = t.voice.room ∧ s.status = t.voice.status ∧ t.voice.room ≠ some i)) : Sound ⟨s, t.latest⟩ := by
  have hcall : ∀ (k : Nat) c, s.calls[k]? = some c → ∃ c', t.voice.calls[k]? = some c' ∧ c'.stage = c.stage ∧
      c'.roomId = c.roomId ∧ (c.stage ≠ .ended → c' = c) ∧ (c.connected = true → c' = c ∧ k ≠ i) := by
    intro k c hc
    rw [hcalls, modify_some] at hc
    rcases hc with ⟨rfl, c', hc', rfl⟩ | ⟨hk, hc⟩
    · exact ⟨c', hc', rfl, rfl, fun hwaits => absurd (hended c' hc') hwaits, fun hfalse => (by cases hfalse)⟩
    · exact ⟨c, hc, rfl, rfl, fun _ => rfl, fun _ => ⟨rfl, hk⟩⟩
  have hnone : t.voice.room = none → s.room = none := by
    intro hroom
    rcases hs with ⟨hs, -⟩ | ⟨hs, -⟩
    · exact hs
    · exact hs.trans hroom
  exact {
    holds := fun k hk => by
      rcases hs with ⟨hroom, -⟩ | ⟨hroom, hstatus, hne⟩
      · exact absurd (hroom.symm.trans hk) (by simp)
      · rw [hroom] at hk
        obtain ⟨hconnected, c, hc, hcc, hlatest⟩ := h.holds k hk
        refine ⟨hstatus.trans hconnected, c, ?_, hcc, hlatest⟩
        rw [hcalls, modify_some]
        refine .inr ⟨?_, hc⟩
        rintro rfl
        exact hne hk
    waits := fun k c hc hstage => by
      obtain ⟨c', hc', hsame, hroomId, heq, -⟩ := hcall k c hc
      obtain rfl := heq hstage
      obtain ⟨hroom, hleft, hlatest, hjoined, hunique⟩ := h.waits k c' hc' hstage
      refine ⟨hnone hroom, fun l hl => hleft l (hleaves ▸ hl), hlatest, hjoined, fun j d hd hdstage => ?_⟩
      obtain ⟨d', hd', hdsame, -⟩ := hcall j d hd
      exact hunique j d' hd' (hdsame ▸ hdstage)
    connected := fun k c hc hconnected => by
      obtain ⟨c', hc', -, -, -, heq⟩ := hcall k c hc
      obtain ⟨rfl, hne⟩ := heq hconnected
      rcases h.connected k c' hc' hconnected with hwaits | hroom | hleaving
      · exact .inl hwaits
      · rcases hs with ⟨-, -, honly⟩ | ⟨hsame, -⟩
        · exact absurd (honly k hroom) hne
        · exact .inr (.inl (hsame.trans hroom))
      · exact .inr (.inr (hleaves ▸ hleaving))
    early := fun k c hc hearly => by
      obtain ⟨c', hc', hsame, -⟩ := hcall k c hc
      rcases hs with ⟨-, hstatus, -⟩ | ⟨-, hstatus, -⟩
      · exact hstatus
      · rw [hstatus]
        exact h.early k c' hc' (hsame ▸ hearly)
    leaving := fun l hl hne => hnone (h.leaving l (hleaves ▸ hl) hne)
    idle := fun hroom hj hl => by
      rcases hs with ⟨-, hstatus, -⟩ | ⟨hsame, hstatus, -⟩
      · exact hstatus
      · rw [hstatus]
        refine h.idle (hsame.symm.trans hroom) (joined_iff.2 fun k c hc => ?_) fun l hl' => hl l (hleaves ▸ hl')
        by_cases hk : k = i
        · exact hended c (hk ▸ hc)
        · refine joined_iff.1 hj k c ?_
          rw [hcalls, modify_some]
          exact .inr ⟨hk, hc⟩ }

/-! ### Steps -/

theorem joinEnds_web {outcome : Outcome} (h : Sound t) (hk : t.voice.calls[k]? = some c)
    (he : c.stage = .muting → outcome = .done) : Sound ⟨VoiceRoom.Web.joinEnds k c.stage outcome t.voice, t.latest⟩ := by
  rcases hstage : c.stage with _ | _ | _ | _ | _ | message | _
  case routing | closing | ended => cases outcome <;> exact h
  all_goals
    have hwaits : c.stage ≠ .ended := by rw [hstage]; simp
    obtain ⟨hroom, -, -, hjoined, -⟩ := h.waits k c hk hwaits
    rw [hstage] at hjoined
  case media =>
    cases outcome with
    | done => exact h.advance hk hwaits rfl rfl hroom rfl (by simp) hjoined (fun hearly => (by cases hearly))
    | failed message => exact h.finish hk hwaits rfl rfl rfl rfl (.inr ⟨hjoined, hroom, fun heq => (by cases heq)⟩)
  case connecting =>
    cases outcome with
    | done => exact h.advance hk hwaits (List.modify_modify_eq _ _ _ _) rfl hroom rfl (by simp) rfl (fun hearly => (by cases hearly))
    | failed message => exact h.finish hk hwaits rfl rfl rfl rfl (.inr ⟨hjoined, hroom, fun heq => (by cases heq)⟩)
  case muting =>
    obtain rfl := he hstage
    exact h.advance hk hwaits rfl rfl hroom rfl (by simp) hjoined (fun hearly => (by cases hearly))
  case settling => exact h.finish hk hwaits rfl rfl rfl rfl (.inl ⟨hjoined, rfl, rfl⟩)

theorem joinEnds_mobile {outcome : Outcome} (h : Sound t) (hk : t.voice.calls[k]? = some c)
    (he : c.stage = .muting → outcome = .done) : Sound ⟨VoiceRoom.Mobile.joinEnds k c.stage outcome t.voice, t.latest⟩ := by
  rcases hstage : c.stage with _ | _ | _ | _ | _ | message | _
  case settling | ended => cases outcome <;> exact h
  all_goals
    have hwaits : c.stage ≠ .ended := by rw [hstage]; simp
    obtain ⟨hroom, -, -, hjoined, -⟩ := h.waits k c hk hwaits
    rw [hstage] at hjoined
  case media =>
    cases outcome with
    | done => exact h.advance hk hwaits rfl rfl hroom rfl (by simp) hjoined fun _ => h.early k c hk (by rw [hstage]; rfl)
    | failed message => exact h.finish hk hwaits rfl rfl rfl rfl (.inr ⟨hjoined, hroom, fun heq => (by cases heq)⟩)
  case routing =>
    have hearly := h.early k c hk (by rw [hstage]; rfl)
    cases outcome with
    | done => exact h.advance hk hwaits rfl rfl hroom rfl (by simp) hjoined (fun hearly => (by cases hearly))
    | failed message => exact h.finish hk hwaits rfl rfl rfl rfl (.inr ⟨hjoined, hroom, hearly⟩)
  case connecting =>
    cases outcome with
    | done => exact h.advance hk hwaits (List.modify_modify_eq _ _ _ _) rfl hroom rfl (by simp) rfl (fun hearly => (by cases hearly))
    | failed message => exact h.advance hk hwaits rfl rfl rfl rfl (by simp) hjoined (fun hearly => (by cases hearly))
  case muting =>
    obtain rfl := he hstage
    exact h.finish hk hwaits rfl rfl rfl rfl (.inl ⟨hjoined, rfl, rfl⟩)
  case closing => exact h.finish hk hwaits rfl rfl rfl rfl (.inr ⟨hjoined, hroom, fun heq => (by cases heq)⟩)

theorem join_web (h : Sound t) (he : Orderly .web t (.join roomId)) :
    Sound ⟨VoiceRoom.Web.join roomId t.voice, some roomId⟩ := by
  obtain ⟨hjoined, hleft, hroom⟩ | ⟨⟨⟩, -⟩ := he
  refine h.begin hjoined hleft hroom rfl rfl hroom ?_
  rintro ⟨⟩

theorem join_mobile {available : Bool} (h : Sound t) (he : Orderly .mobile t (.join roomId)) :
    Sound ⟨VoiceRoom.Mobile.join available roomId t.voice, some roomId⟩ := by
  unfold VoiceRoom.Mobile.join
  obtain ⟨hjoined, hleft, hroom⟩ | ⟨-, hlatest, hidle, hfailed⟩ := he
  case inr =>
    -- not taken up, and told already
    rw [← hlatest, if_pos (c := _ ∧ _) ⟨hidle, hfailed⟩]
    split
    · exact ⟨h.holds, h.waits, h.connected, h.early, h.leaving, h.idle⟩
    · exact h
  split
  · exact h.refuse hjoined hroom rfl rfl hroom rfl
  · split
    · exact h.refuse hjoined hroom rfl rfl hroom rfl
    · refine h.begin hjoined hleft hroom rfl rfl hroom ?_
      rintro ⟨⟩

theorem leave_web (h : Sound t) (hjoined : t.voice.Joined) : Sound ⟨VoiceRoom.Web.leave t.voice, none⟩ := by
  unfold VoiceRoom.Web.leave
  rcases hroom : t.voice.room with _ | i
  · refine h.letGo (l := .ended) hjoined rfl hroom (.inl rfl) ?_ ?_
    · intro i hi
      exact absurd (hroom.symm.trans hi) (by simp)
    · intro _
      rintro ⟨⟩
  · refine h.letGo hjoined rfl rfl (.inr rfl) ?_ ?_
    · intro k hk
      rw [Option.some.inj (hroom.symm.trans hk)]
      exact List.mem_append_right _ List.mem_cons_self
    · -- the Room is still being disconnected
      intro hleft
      cases hleft _ (List.mem_append_right _ List.mem_cons_self)

theorem leave_mobile (h : Sound t) (hjoined : t.voice.Joined) : Sound ⟨VoiceRoom.Mobile.leave t.voice, none⟩ := by
  refine h.letGo hjoined rfl rfl (.inr rfl) ?_ ?_
  · intro i hi
    refine List.mem_append_right _ ?_
    rw [hi]
    exact List.mem_cons_self
  · intro hleft
    have hlast := hleft _ (List.mem_append_right _ List.mem_cons_self)
    rcases hroom : t.voice.room with _ | i <;> rw [hroom] at hlast <;> cases hlast

theorem leaveEnds_web {j : Nat} {l : Leave} (h : Sound t) (hj : t.voice.leaves[j]? = some l) :
    Sound ⟨VoiceRoom.Web.leaveEnds j l t.voice, t.latest⟩ := by
  rcases l with i | _ | _
  · refine h.letGone hj ?_ (.inl ⟨i, rfl, rfl⟩) rfl rfl ?_
    · rintro ⟨⟩
    · intro _
      rintro ⟨⟩
  · exact h
  · exact h

theorem leaveEnds_mobile {j : Nat} {l : Leave} (h : Sound t) (hj : t.voice.leaves[j]? = some l) :
    Sound ⟨VoiceRoom.Mobile.leaveEnds j l t.voice, t.latest⟩ := by
  rcases l with i | _ | _
  · refine h.letGone hj ?_ (.inl ⟨i, rfl, rfl⟩) rfl rfl ?_
    · rintro ⟨⟩
    · -- the audio route is still to be given back
      intro hleft
      have hlt := (List.getElem?_eq_some_iff.1 hj).1
      cases hleft .stopping (List.mem_set hlt _)
  · refine h.letGone hj ?_ (.inr ⟨rfl, rfl⟩) rfl rfl ?_
    · rintro ⟨⟩
    · intro _
      rintro ⟨⟩
  · exact h

theorem disconnected_web {i : Nat} (h : Sound t) (he : Orderly .web t (.disconnected i)) :
    Sound ⟨VoiceRoom.Web.disconnected i t.voice, t.latest⟩ := by
  refine h.drop he.1 rfl rfl (.inl ⟨rfl, ?_, he.2 rfl⟩)
  rintro ⟨⟩

theorem disconnected_mobile {i : Nat} (h : Sound t) (he : Orderly .mobile t (.disconnected i)) :
    Sound ⟨VoiceRoom.Mobile.disconnected i t.voice, t.latest⟩ := by
  unfold VoiceRoom.Mobile.disconnected
  split
  · rename_i hroom
    refine h.drop he.1 rfl rfl (.inl ⟨rfl, ?_, ?_⟩)
    · rintro ⟨⟩
    · intro k hk
      exact Option.some.inj (hk.symm.trans hroom)
  · rename_i hroom
    exact h.drop he.1 rfl rfl (.inr ⟨rfl, rfl, hroom⟩)

/-- What an orderly step preserves. -/
theorem step {available : Bool} {platform : Platform} {e : Event} (h : Sound t) (he : Orderly platform t e) :
    Sound (t.step available platform e) := by
  cases e with
  | join roomId =>
    cases platform with
    | web => exact h.join_web he
    | mobile => exact h.join_mobile he
  | joinEnds k outcome =>
    rcases hk : t.voice.calls[k]? with _ | c
    · have hsame : t.step available platform (.joinEnds k outcome) = t := by
        cases platform <;> simp [Told.step, Told.latestAfter, VoiceRoom.step, hk]
      rwa [hsame]
    · have hmuting := he c hk
      cases platform with
      | web =>
        have hends := h.joinEnds_web hk hmuting
        simpa only [Told.step, Told.latestAfter, VoiceRoom.step, hk, Option.elim_some] using hends
      | mobile =>
        have hends := h.joinEnds_mobile hk hmuting
        simpa only [Told.step, Told.latestAfter, VoiceRoom.step, hk, Option.elim_some] using hends
  | leave =>
    cases platform with
    | web => exact h.leave_web he
    | mobile => exact h.leave_mobile he
  | leaveEnds j =>
    rcases hj : t.voice.leaves[j]? with _ | l
    · have hsame : t.step available platform (.leaveEnds j) = t := by
        cases platform <;> simp [Told.step, Told.latestAfter, VoiceRoom.step, hj]
      rwa [hsame]
    · cases platform with
      | web =>
        have hends := h.leaveEnds_web hj
        simpa only [Told.step, Told.latestAfter, VoiceRoom.step, hj, Option.elim_some] using hends
      | mobile =>
        have hends := h.leaveEnds_mobile hj
        simpa only [Told.step, Told.latestAfter, VoiceRoom.step, hj, Option.elim_some] using hends
  | disconnected i =>
    cases platform with
    | web => exact h.disconnected_web he
    | mobile => exact h.disconnected_mobile he

end Sound

/-! ## Every run -/

/-- In a run whose steps are all orderly, what is connected once nothing is waited for is what was last joined. -/
theorem quiet_settled (available : Bool) (platform : Platform) (es : List Event)
    (h : Along (Told.step available platform) (Orderly platform) Told.new es) :
    Always (Told.step available platform) Told.Settled Told.new es := by
  have hsound : Always (Told.step available platform) Sound Told.new es :=
    always_of_along (fun t e ht he => ht.step he) Sound.new h
  exact hsound.mono fun _ ht => ht.settled

/-- Two calls, the second joined once the first is left. -/
theorem quiet_settled_twice :
    Along (Told.step true .web) (Orderly .web) Told.new
      [.join ⟨1⟩, .joinEnds 0 .done, .joinEnds 0 .done, .joinEnds 0 .done, .joinEnds 0 .done, .leave, .leaveEnds 0,
        .join ⟨2⟩, .joinEnds 1 .done, .joinEnds 1 .done, .joinEnds 1 .done, .joinEnds 1 .done] ∧
    Always (Told.step true .web) Told.Settled Told.new
      [.join ⟨1⟩, .joinEnds 0 .done, .joinEnds 0 .done, .joinEnds 0 .done, .joinEnds 0 .done, .leave, .leaveEnds 0,
        .join ⟨2⟩, .joinEnds 1 .done, .joinEnds 1 .done, .joinEnds 1 .done, .joinEnds 1 .done] :=
  ⟨by decide, quiet_settled true .web _ (by decide)⟩

/-- A call that is left while it is being joined is connected all the same. -/
theorem stray_call :
    ¬ Always (Told.step true .web) Told.Settled Told.new
      [.join ⟨1⟩, .joinEnds 0 .done, .leave, .joinEnds 0 .done, .joinEnds 0 .done, .joinEnds 0 .done] ∧
    ¬ Always (Told.step true .mobile) Told.Settled Told.new
      [.join ⟨1⟩, .joinEnds 0 .done, .leave, .leaveEnds 0, .joinEnds 0 .done, .joinEnds 0 .done, .joinEnds 0 .done] := by
  constructor
  · intro h
    have hstray := (h.last (by unfold VoiceRoom.Joined; decide) (by unfold VoiceRoom.Left; decide)).2.1 ⟨⟨1⟩, .ended, true⟩
    exact absurd (hstray (by decide) rfl) (by decide)
  · intro h
    have hstray := (h.last (by unfold VoiceRoom.Joined; decide) (by unfold VoiceRoom.Left; decide)).2.1 ⟨⟨1⟩, .ended, true⟩
    exact absurd (hstray (by decide) rfl) (by decide)

end Genzh.Client.Voice
