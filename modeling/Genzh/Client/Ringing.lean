/-
Calls between clients. What a client tells the server, to ring or that a call has ended, is a request on its way; the
server tells the other one in the conversation, whom the event may reach later, or never. Requests overtake each other.

`calls_kept_apart`: in a run in which a call is started where nothing else of the conversation is under way, and not over
an unanswered one; is shown only once nobody is seen to be there; is given up by what is rendered; and has rung before it
is cancelled: the timeout spares whoever has picked up, what ends one call leaves the others alone, and nothing rings for a
call whose `cancel` has completed.
-/
import Genzh.Client.Sparing
import Genzh.Lib.Run

namespace Genzh.Client.Calls

open Genzh.Lib Genzh.Domain

/-! ## Clients and the server -/

/-- How far a request has come. -/
inductive PacketStage (U : Type) where
  | requested
  /-- Its event is on the way to `v`. -/
  | broadcast (v : U)
  | gone
  deriving DecidableEq, Repr

def PacketStage.recipient {U : Type} : PacketStage U → Option U
  | broadcast v => some v
  | _ => none

structure Packet (U : Type) where
  request : Request U
  stage : PacketStage U
  deriving DecidableEq, Repr

structure CallSystem (U : Type) where
  providers : U → CallProvider U
  packets : List (Packet U)

/-- What the server knows: who is the other one in a direct conversation, and how somebody is called. -/
structure Directory (U : Type) where
  peer : RoomId → U → Option U
  displayName : U → String

inductive Event (U : Type) where
  | act (u : U) (a : Action U)
  /-- The server handles the `i`-th request. -/
  | served (i : Nat)
  /-- The server refuses it, or its event is lost. -/
  | lost (i : Nat)
  /-- Its event arrives. -/
  | delivered (i : Nat)
  deriving DecidableEq, Repr

namespace CallSystem

variable {U : Type} [DecidableEq U]

def start : CallSystem U := { providers := fun _ => .new, packets := [] }

def put (u : U) (x : CallProvider U) (σ : CallSystem U) : CallSystem U := { σ with providers := Function.update σ.providers u x }

def act (u : U) (a : Action U) (σ : CallSystem U) : CallSystem U :=
  { σ.put u ((σ.providers u).act u a).1 with
    packets := σ.packets ++ ((σ.providers u).act u a).2.map fun request => { request, stage := .requested } }

def movePacket (i : Nat) (stage : PacketStage U) (σ : CallSystem U) : CallSystem U :=
  { σ with packets := σ.packets.modify i fun p => { p with stage } }

/-- `ring` and `end_call`: the peer is told, if there is one. -/
def serve (dir : Directory U) (i : Nat) (p : Packet U) (σ : CallSystem U) : CallSystem U :=
  if p.stage = .requested then σ.movePacket i ((dir.peer p.request.call.roomId p.request.fromUserId).elim .gone .broadcast) else σ

/-- What a client makes of an event. -/
def receive (dir : Directory U) (u : U) (request : Request U) (x : CallProvider U) : CallProvider U :=
  match request.notice with
  | .ring video =>
    x.ringing u { call := request.call, fromUserId := request.fromUserId, fromDisplayName := dir.displayName request.fromUserId, video }
  | .ended _ => x.ended request.call.roomId

def deliver (dir : Directory U) (i : Nat) (p : Packet U) (σ : CallSystem U) : CallSystem U :=
  p.stage.recipient.elim σ fun v => (σ.put v (receive dir v p.request (σ.providers v))).movePacket i .gone

def step (dir : Directory U) (σ : CallSystem U) : Event U → CallSystem U
  | .act u a => σ.act u a
  | .served i => σ.packets[i]?.elim σ fun p => σ.serve dir i p
  | .lost i => σ.movePacket i .gone
  | .delivered i => σ.packets[i]?.elim σ fun p => σ.deliver dir i p

end CallSystem

/-! ## What is asked of the calls -/

section Properties

variable {U : Type}

variable [DecidableEq U]

/-- The ring timeout does not end an answered call. -/
def TimeoutSpares (σ : CallSystem U) : Event U → Prop
  | .act u .outgoingTimeout => SparesAnswered (σ.providers u)
  | _ => True

/-- What ends one call leaves the others alone. -/
def EndsItsOwn (dir : Directory U) (σ : CallSystem U) : Event U → Prop
  | .act u a => ∀ c, Ends u (σ.providers u) c a → Spares c (σ.providers u) ((σ.providers u).act u a).1
  | .delivered i => ∀ p ∈ σ.packets[i]?, ∀ v ∈ p.stage.recipient, p.request.notice.isRing = false →
      Spares p.request.call (σ.providers v) (CallSystem.receive dir v p.request (σ.providers v))
  | _ => True

/-- Nothing rings for a call that has been cancelled. -/
def NoLateRing (σ : CallSystem U) : Event U → Prop
  | .delivered i => ∀ p ∈ σ.packets[i]?, p.stage.recipient.isSome = true → p.request.notice.isRing = true →
      ∀ u, ∀ k ∈ (σ.providers u).cancels, k.stage = .completed → p.request.call ≠ k.call
  | _ => True

end Properties

/-! ## What is under way -/

section Conditions

variable {U : Type}

/-- The calls that some client, or a request on its way, has to do with. -/
def CallSystem.Alive (σ : CallSystem U) (c : CallRef U) : Prop :=
  (∃ u, (σ.providers u).Mentions u c) ∨ ∃ p ∈ σ.packets, p.stage ≠ .gone ∧ p.request.call = c

/-- Nothing of a conversation is under way when a call is started there, and the ring of a call has arrived, or never
will, when its `cancel` completes. -/
def CallSystem.Clear (σ : CallSystem U) (u : U) : Action U → Prop
  | .start roomId _ _ _ => ∀ c, σ.Alive c → c.roomId ≠ roomId
  | .cancelAnswered m => ∀ k ∈ (σ.providers u).cancels[m]?, k.stage = .notifying →
      ∀ p ∈ σ.packets, p.request.call = k.call → p.request.notice.isRing = true → p.stage = .gone
  | _ => True

/-- The condition of a step. -/
def Orderly (σ : CallSystem U) : Event U → Prop
  | .act u a => (σ.providers u).Ready a ∧ σ.Clear u a
  | .delivered i => ∀ p ∈ σ.packets[i]?, ∀ v ∈ p.stage.recipient, p.request.notice.isRing = false →
      ∀ call ∈ (σ.providers v).shown.outgoing, call.call.roomId = p.request.call.roomId → (σ.providers v).Rendered
  | _ => True

end Conditions

/-! ## Invariant -/

section Kept

variable {U : Type} {σ : CallSystem U} {c : CallRef U}

/-- Every client is sound, no two calls of one conversation are under way, and nothing is to ring for a call that has been
cancelled. -/
structure Kept (σ : CallSystem U) : Prop where
  sound : ∀ u, CallProvider.Sound u (σ.providers u)
  apart : ∀ c c', σ.Alive c → σ.Alive c' → c.roomId = c'.roomId → c = c'
  silent : ∀ u, ∀ k ∈ (σ.providers u).cancels, k.stage = .completed →
    ∀ p ∈ σ.packets, p.request.call = k.call → p.request.notice.isRing = true → p.stage = .gone

theorem not_alive_start : ¬ (CallSystem.start : CallSystem U).Alive c := by
  rintro (⟨u, hu⟩ | ⟨p, hp, -⟩)
  · cases hu with
    | incoming h | shownIncoming h | outgoing h | shownOutgoing h | joined h | starting h | cancelling h => cases h
  · cases hp

theorem Kept.start : Kept (CallSystem.start : CallSystem U) where
  sound := CallProvider.Sound.new
  apart _ _ hc := absurd hc not_alive_start
  silent _ _ hk := by cases hk

theorem Kept.apart_at (h : Kept σ) (u : U) : CallProvider.Apart u (σ.providers u) :=
  fun c c' hc hc' hroom => h.apart c c' (.inl ⟨u, hc⟩) (.inl ⟨u, hc'⟩) hroom

/-- A packet that goes on tells of the same call, and none that is gone comes back. -/
theorem of_movePacket {i : Nat} {stage : PacketStage U} {p' : Packet U} (hp' : p' ∈ (σ.movePacket i stage).packets) :
    p' ∈ σ.packets ∨ ∃ p, σ.packets[i]? = some p ∧ p' = { p with stage } := by
  obtain ⟨j, hj⟩ := List.mem_iff_getElem?.1 hp'
  rcases Voice.modify_some.1 hj with ⟨rfl, p, hp, rfl⟩ | ⟨-, hold⟩
  · exact .inr ⟨p, hp, rfl⟩
  · exact .inl (List.mem_of_getElem? hold)

theorem Kept.movePacket {i : Nat} {stage : PacketStage U} (h : Kept σ)
    (hstage : ∀ p, σ.packets[i]? = some p → p.stage = .gone → stage = .gone) : Kept (σ.movePacket i stage) := by
  have hold : ∀ p' ∈ (σ.movePacket i stage).packets, p'.stage ≠ .gone → ∃ p ∈ σ.packets, p.stage ≠ .gone ∧ p.request = p'.request := by
    intro p' hp' hwaits
    rcases of_movePacket hp' with hold | ⟨p, hp, rfl⟩
    · exact ⟨p', hold, hwaits, rfl⟩
    · exact ⟨p, List.mem_of_getElem? hp, fun hgone => hwaits (hstage p hp hgone), rfl⟩
  have halive : ∀ c, (σ.movePacket i stage).Alive c → σ.Alive c := by
    rintro c (hc | ⟨p', hp', hwaits, rfl⟩)
    · exact .inl hc
    · obtain ⟨p, hp, hwaits, hrequest⟩ := hold p' hp' hwaits
      exact .inr ⟨p, hp, hwaits, congrArg Request.call hrequest⟩
  refine ⟨h.sound, fun c c' hc hc' => h.apart c c' (halive c hc) (halive c' hc'), ?_⟩
  intro u k hk hcompleted p' hp' hcall hring
  by_contra hwaits
  obtain ⟨p, hp, hwaits, hrequest⟩ := hold p' hp' hwaits
  rw [← hrequest] at hcall hring
  exact hwaits (h.silent u k hk hcompleted p hp hcall hring)

/-! ### What it gives -/

theorem Kept.timeoutSpares {e : Event U} (h : Kept σ) (he : Orderly σ e) : TimeoutSpares σ e := by
  cases e with
  | act u a =>
    cases a with
    | outgoingTimeout => exact (h.sound u).sparesAnswered he.1
    | start | proceed | ringAnswered | accept | decline | cancel | cancelProceeds | cancelAnswered | incomingTimeout | render | leave |
      joinEnds | leaveEnds | disconnected | refreshParticipants => trivial
  | served | lost | delivered => trivial

theorem Kept.noLateRing {e : Event U} (h : Kept σ) : NoLateRing σ e := by
  cases e with
  | delivered i =>
    intro p hp hv hring u k hk hcompleted hcall
    have hgone := h.silent u k hk hcompleted p (List.mem_of_getElem? hp) hcall hring
    rw [hgone] at hv
    cases hv
  | act | served | lost => trivial

variable [DecidableEq U]

theorem Kept.endsItsOwn (dir : Directory U) {e : Event U} (h : Kept σ) (he : Orderly σ e) : EndsItsOwn dir σ e := by
  cases e with
  | act u a => exact fun c hends => (h.sound u).spares_effect (h.apart_at u) he.1 (CallProvider.effect u (σ.providers u) a) hends
  | delivered i =>
    intro p hp v hv hring
    have hwaits : p.stage ≠ .gone := by
      intro hgone
      rw [hgone] at hv
      cases hv
    have halive : σ.Alive p.request.call := .inr ⟨p, List.mem_of_getElem? hp, hwaits, rfl⟩
    have hended := (h.sound v).spares_ended (c := p.request.call) (fun c hc hroom => h.apart c _ (.inl ⟨v, hc⟩) halive hroom)
      (h.apart_at v) fun call hcall hroom => he p hp v hv hring call hcall hroom
    unfold CallSystem.receive
    cases hnotice : p.request.notice with
    | ring video =>
      rw [hnotice] at hring
      cases hring
    | ended reason => exact hended
  | served | lost => trivial

/-! ### Steps -/

theorem providers_put (u : U) (y : CallProvider U) (σ : CallSystem U) (v : U) :
    v = u ∧ (σ.put u y).providers v = y ∨ v ≠ u ∧ (σ.put u y).providers v = σ.providers v := by
  by_cases hv : v = u
  · subst hv
    exact .inl ⟨rfl, Function.update_self ..⟩
  · exact .inr ⟨hv, Function.update_of_ne hv ..⟩

/-- A client that is told of a call that is under way has to do with no others. -/
theorem Kept.put {u : U} {y : CallProvider U} (h : Kept σ) (hsound : CallProvider.Sound u y) (halive : ∀ c, y.Mentions u c → σ.Alive c)
    (hcancels : y.cancels = (σ.providers u).cancels) : Kept (σ.put u y) := by
  have hold : ∀ c, (σ.put u y).Alive c → σ.Alive c := by
    rintro c (⟨v, hv⟩ | hp)
    · rcases providers_put u y σ v with ⟨rfl, hy⟩ | ⟨-, hy⟩ <;> rw [hy] at hv
      · exact halive c hv
      · exact .inl ⟨v, hv⟩
    · exact .inr hp
  refine ⟨?_, fun c c' hc hc' => h.apart c c' (hold c hc) (hold c' hc'), ?_⟩
  · intro v
    rcases providers_put u y σ v with ⟨rfl, hy⟩ | ⟨-, hy⟩ <;> rw [hy]
    · exact hsound
    · exact h.sound v
  · intro v k hk
    rcases providers_put u y σ v with ⟨rfl, hy⟩ | ⟨-, hy⟩ <;> rw [hy] at hk
    · rw [hcancels] at hk
      exact h.silent v k hk
    · exact h.silent v k hk

theorem Kept.act {u : U} {a : Action U} (h : Kept σ) (hready : (σ.providers u).Ready a) (hclear : σ.Clear u a) : Kept (σ.act u a) := by
  have e := CallProvider.effect u (σ.providers u) a
  -- what is under way was so before, or is a call that starts where none was
  have hold : ∀ c, (σ.act u a).Alive c → σ.Alive c ∨
      c = ⟨u, (σ.providers u).starts.length, c.roomId⟩ ∧ ∀ c', σ.Alive c' → c'.roomId ≠ c.roomId := by
    rintro c (⟨v, hv⟩ | ⟨p, hp, hwaits, hcall⟩)
    · rcases providers_put u ((σ.providers u).act u a).1 σ v with ⟨rfl, hy⟩ | ⟨-, hy⟩
      · rcases e.mentions (hy ▸ hv) with hc | ⟨roomId, peerId, peerName, video, rfl, rfl⟩
        · exact .inl (.inl ⟨v, hc⟩)
        · exact .inr ⟨rfl, hclear⟩
      · exact .inl (.inl ⟨v, hy ▸ hv⟩)
    · rcases List.mem_append.1 hp with hp | hp
      · exact .inl (.inr ⟨p, hp, hwaits, hcall⟩)
      · obtain ⟨request, hrequest, rfl⟩ := List.mem_map.1 hp
        exact .inl (.inl ⟨u, hcall ▸ (e.sent hrequest).1⟩)
  -- a call of `cancel` that has completed was told, and there is no ring of it to come
  have hcompleted : ∀ v, ∀ k' ∈ ((σ.act u a).providers v).cancels, k'.stage = .completed →
      CallProvider.Past v (σ.providers v).starts k'.call ∧
      ∀ p ∈ σ.packets, p.request.call = k'.call → p.request.notice.isRing = true → p.stage = .gone := by
    intro v k' hk' hdone
    have hstays : k' ∈ (σ.providers v).cancels → CallProvider.Past v (σ.providers v).starts k'.call ∧
        ∀ p ∈ σ.packets, p.request.call = k'.call → p.request.notice.isRing = true → p.stage = .gone :=
      fun hk => ⟨(h.sound v).cancelsPast k' hk, h.silent v k' hk hdone⟩
    rcases providers_put u ((σ.providers u).act u a).1 σ v with ⟨rfl, hy⟩ | ⟨-, hy⟩
    · rcases e.completes (hy ▸ hk') hdone with hk | ⟨m, k, rfl, hk, hnotifying, hcall⟩
      · exact hstays hk
      · rw [hcall]
        exact ⟨(h.sound v).cancelsPast k (List.mem_of_getElem? hk), hclear k hk hnotifying⟩
    · exact hstays (hy ▸ hk')
  refine ⟨?_, ?_, ?_⟩
  · intro v
    rcases providers_put u ((σ.providers u).act u a).1 σ v with ⟨rfl, hy⟩ | ⟨-, hy⟩
    · rw [show (σ.act v a).providers v = _ from hy]
      exact (h.sound v).effect hready e
    · rw [show (σ.act u a).providers v = _ from hy]
      exact h.sound v
  · intro c c' hc hc' hroom
    rcases hold c hc with hc | ⟨hc, hnone⟩ <;> rcases hold c' hc' with hc' | ⟨hc', hnone'⟩
    · exact h.apart c c' hc hc' hroom
    · exact absurd hroom (hnone' c hc)
    · exact absurd hroom.symm (hnone c' hc')
    · rw [hc, hc', hroom]
  · intro v k' hk' hdone p hp hcall hring
    obtain ⟨hpast, hsilent⟩ := hcompleted v k' hk' hdone
    rcases List.mem_append.1 hp with hp | hp
    · exact hsilent p hp hcall hring
    · obtain ⟨request, hrequest, rfl⟩ := List.mem_map.1 hp
      obtain ⟨hcaller, hnew⟩ := (e.sent hrequest).2 hring
      have hcall : request.call = k'.call := hcall
      -- the ring is of a call that its caller had not shown before
      have hvu : v = u := by rw [← hpast.1, ← hcall, hcaller]
      subst hvu
      rw [← hcall] at hpast
      exact absurd hpast hnew

theorem cancels_receive (dir : Directory U) (u : U) (request : Request U) (x : CallProvider U) :
    (CallSystem.receive dir u request x).cancels = x.cancels := by
  unfold CallSystem.receive
  split
  · unfold CallProvider.ringing
    split
    · rfl
    split <;> rfl
  · obtain ⟨y, hy, hx⟩ := CallProvider.ended_cases request.call.roomId x
    have hcancels : y.cancels = x.cancels := by rcases hy with rfl | ⟨-, rfl⟩ <;> rfl
    rcases hx with hx | ⟨-, hx⟩ <;> rw [hx]
    · exact hcancels
    · exact hcancels

theorem mentions_receive (dir : Directory U) {u : U} {request : Request U} {x : CallProvider U}
    (hc : (CallSystem.receive dir u request x).Mentions u c) : x.Mentions u c ∨ c = request.call := by
  unfold CallSystem.receive at hc
  split at hc
  · unfold CallProvider.ringing at hc
    split at hc
    · exact .inl hc
    split at hc
    · exact .inl hc
    · cases hc with
      | incoming h =>
        obtain rfl := Option.some.inj h
        exact .inr rfl
      | shownIncoming h => exact .inl (.shownIncoming h)
      | outgoing h => exact .inl (.outgoing h)
      | shownOutgoing h => exact .inl (.shownOutgoing h)
      | joined h => exact .inl (.joined h)
      | starting h hs => exact .inl (.starting h hs)
      | cancelling h hk => exact .inl (.cancelling h hk)
  · obtain ⟨y, hy, hx⟩ := CallProvider.ended_cases request.call.roomId x
    have hold : y.Mentions u c → x.Mentions u c := by
      rcases hy with rfl | ⟨-, rfl⟩
      · exact id
      · exact CallProvider.mentions_of_dropIncoming
    rcases hx with hx | ⟨-, hx⟩ <;> rw [hx] at hc
    · exact .inl (hold hc)
    · exact .inl (hold (CallProvider.mentions_of_dropOutgoing (CallProvider.mentions_of_leave hc)))

theorem sound_receive (dir : Directory U) {u : U} (request : Request U) {x : CallProvider U} (h : CallProvider.Sound u x) :
    CallProvider.Sound u (CallSystem.receive dir u request x) := by
  unfold CallSystem.receive
  split
  · exact h.ringing
  · exact h.ended

theorem Kept.deliver (dir : Directory U) {i : Nat} {p : Packet U} {v : U} (h : Kept σ) (hp : σ.packets[i]? = some p)
    (hv : p.stage.recipient = some v) : Kept ((σ.put v (CallSystem.receive dir v p.request (σ.providers v))).movePacket i .gone) := by
  have hwaits : p.stage ≠ .gone := by
    intro hgone
    rw [hgone] at hv
    cases hv
  have halive : σ.Alive p.request.call := .inr ⟨p, List.mem_of_getElem? hp, hwaits, rfl⟩
  have hput : Kept (σ.put v (CallSystem.receive dir v p.request (σ.providers v))) := by
    refine h.put (sound_receive dir p.request (h.sound v)) ?_ (cancels_receive dir v p.request (σ.providers v))
    intro c hc
    rcases mentions_receive dir hc with hold | rfl
    · exact .inl ⟨v, hold⟩
    · exact halive
  exact hput.movePacket fun _ _ _ => rfl

/-- What an orderly step preserves. -/
theorem Kept.step (dir : Directory U) {e : Event U} (h : Kept σ) (he : Orderly σ e) : Kept (CallSystem.step dir σ e) := by
  cases e with
  | act u a => exact h.act he.1 he.2
  | served i =>
    show Kept (σ.packets[i]?.elim σ fun p => σ.serve dir i p)
    cases hp : σ.packets[i]? with
    | none => exact h
    | some p =>
      show Kept (σ.serve dir i p)
      unfold CallSystem.serve
      split
      · rename_i hrequested
        refine h.movePacket fun p' hp' hgone => ?_
        obtain rfl := Option.some.inj (hp.symm.trans hp')
        rw [hrequested] at hgone
        cases hgone
      · exact h
  | lost i => exact h.movePacket fun _ _ _ => rfl
  | delivered i =>
    show Kept (σ.packets[i]?.elim σ fun p => σ.deliver dir i p)
    cases hp : σ.packets[i]? with
    | none => exact h
    | some p =>
      show Kept (p.stage.recipient.elim σ fun v => (σ.put v (CallSystem.receive dir v p.request (σ.providers v))).movePacket i .gone)
      cases hv : p.stage.recipient with
      | none => exact h
      | some v => exact h.deliver dir hp hv

end Kept

/-! ## Three parties -/

inductive Party where
  | ana
  | bo
  | cy
  deriving DecidableEq, Repr

namespace Party

/-- The room 7 is that of `ana` and `bo`, and the room 8 that of `ana` and `cy`. -/
def directory : Directory Party where
  peer roomId u := (if roomId = ⟨7⟩ then [(ana, bo), (bo, ana)] else [(ana, cy), (cy, ana)]).lookup u
  displayName u := [(ana, "Ana"), (bo, "Bo"), (cy, "Cy")].lookup u |>.getD ""

/-- A call of `start` joins its Room, where `present` are found. -/
def joins (k : Nat) (present : List Party) : List (Event Party) :=
  [.act ana (.joinEnds k .done []), .act ana (.joinEnds k .done []), .act ana (.joinEnds k .done []), .act ana (.joinEnds k .done present)]

/-- `ana` calls `bo`, who does not pick up. -/
def missed : List (Event Party) := .act ana (.start ⟨7⟩ bo "Bo" false) :: (joins 0 [] ++ rings) where
  rings : List (Event Party) :=
    [.act ana .render, .act ana (.proceed 0), .act ana .render, .served 0, .delivered 0, .act bo .render, .act ana (.ringAnswered 0 true),
      .act ana .outgoingTimeout, .act ana .render, .act ana (.leaveEnds 0), .act ana (.cancelProceeds 0), .served 1, .delivered 1,
      .act ana (.cancelAnswered 0)]

/-- `bo` is there before the call is shown, so that nothing changes when it is. -/
def pickedUp : List (Event Party) := .act ana (.start ⟨7⟩ bo "Bo" true) :: (joins 0 [bo] ++ rings) where
  rings : List (Event Party) :=
    [.act ana (.proceed 0), .act ana .render, .act ana (.proceed 0), .act ana .render, .served 0, .delivered 0]

/-- `ana` calls `bo`, and gives up. -/
def givenUp : List (Event Party) := .act ana (.start ⟨7⟩ bo "Bo" false) :: (joins 0 [] ++ rings) where
  rings : List (Event Party) :=
    [.act ana (.proceed 0), .act ana .render, .act ana .cancel, .act ana .render, .act ana (.leaveEnds 0), .act ana (.cancelProceeds 0)]

/-- `ana` gives up on `bo`, and calls `cy` before the first request to ring is answered. -/
def calledAgain : List (Event Party) := givenUp ++ .act ana (.start ⟨8⟩ cy "Cy" false) :: (joins 1 [] ++ rings) where
  rings : List (Event Party) := [.act ana (.proceed 1), .act ana .render]

/-- `ana` gives up on `bo`, who is told so before the ring is handled. -/
def overtaken : List (Event Party) := givenUp ++ ends where
  ends : List (Event Party) := [.served 1, .delivered 1, .act ana (.cancelAnswered 0), .served 0]

end Party

/-! ## Every run -/

/-- In a run whose steps are all orderly, the timeout spares whoever has picked up, what ends one call leaves the others
alone, and nothing rings for a call that has been cancelled. -/
theorem calls_kept_apart {U : Type} [DecidableEq U] (dir : Directory U) (es : List (Event U))
    (h : Along (CallSystem.step dir) Orderly CallSystem.start es) :
    Along (CallSystem.step dir) (fun σ e => TimeoutSpares σ e ∧ EndsItsOwn dir σ e ∧ NoLateRing σ e) CallSystem.start es := by
  refine along_of_along ?_ Kept.start h
  intro σ e hkept he
  exact ⟨hkept.step dir he, hkept.timeoutSpares he, hkept.endsItsOwn dir he, hkept.noLateRing⟩

open Party

/-- A call that nobody picks up is given up by both. -/
theorem calls_kept_apart_missed :
    Along (CallSystem.step directory) Orderly CallSystem.start missed ∧
    Along (CallSystem.step directory) (fun σ e => TimeoutSpares σ e ∧ EndsItsOwn directory σ e ∧ NoLateRing σ e) CallSystem.start missed := by
  have h : Along (CallSystem.step directory) Orderly CallSystem.start missed := by
    refine ⟨⟨⟨?_, ?_⟩, ?_⟩, ⟨trivial, trivial⟩, ⟨trivial, trivial⟩, ⟨trivial, trivial⟩, ⟨trivial, trivial⟩, ⟨trivial, trivial⟩, ⟨?_, trivial⟩,
      ⟨trivial, trivial⟩, trivial, ?_, ⟨trivial, trivial⟩, ⟨trivial, trivial⟩, ⟨?_, trivial⟩, ⟨trivial, trivial⟩,
      ⟨trivial, trivial⟩, ⟨trivial, trivial⟩, trivial, ?_, ⟨trivial, ?_⟩, trivial⟩
    · rintro s ⟨⟩
    · rintro l ⟨⟩
    · rintro c hc
      exact absurd hc not_alive_start
    · rintro s - -
      exact ⟨rfl, rfl⟩
    · rintro p hp v hv hring
      obtain rfl := Option.some.inj hp
      cases hring
    · rintro - -
      exact ⟨by decide +kernel, by decide +kernel, by decide +kernel⟩
    · rintro p hp v hv - call hcall
      obtain rfl := Option.some.inj hp
      obtain rfl := Option.some.inj hv
      cases hcall
    · rintro k - - p hp - -
      rcases List.mem_cons.1 hp with rfl | hp
      · rfl
      · rw [List.mem_singleton.1 hp]
  exact ⟨h, calls_kept_apart directory missed h⟩

/-- Somebody who is there before the call is shown does not answer it; a request to ring that fails late takes the next call
with it; and a ring that is overtaken by the end of its call still rings. -/
theorem calls_not_apart :
    ¬ Along (CallSystem.step directory) TimeoutSpares CallSystem.start (pickedUp ++ [.act ana .outgoingTimeout]) ∧
    ¬ Along (CallSystem.step directory) (EndsItsOwn directory) CallSystem.start (calledAgain ++ [.act ana (.ringAnswered 0 false)]) ∧
    ¬ Along (CallSystem.step directory) NoLateRing CallSystem.start (overtaken ++ [.delivered 0]) := by
  refine ⟨?_, ?_, ?_⟩
  · intro h
    have hspares : SparesAnswered ((run (CallSystem.step directory) CallSystem.start pickedUp).providers ana) := (along_append.1 h).2.1
    exact hspares (by decide +kernel) { call := ⟨ana, 0, ⟨7⟩⟩, peerId := bo, peerName := "Bo", video := true } (by decide +kernel)
      (by decide +kernel) (by decide +kernel)
  · intro h
    have hends : EndsItsOwn directory (run (CallSystem.step directory) CallSystem.start calledAgain) (.act ana (.ringAnswered 0 false)) :=
      (along_append.1 h).2.1
    have hfailed : (((run (CallSystem.step directory) CallSystem.start calledAgain).providers ana).starts[0]?.map (·.roomId)) = some ⟨7⟩ := by
      decide +kernel
    obtain ⟨s, hs, hroom⟩ := Option.map_eq_some_iff.1 hfailed
    have hspares := (hends ⟨ana, 0, ⟨7⟩⟩ ⟨rfl, s, hs, by rw [hroom]⟩).outgoing
    have hcalls := hspares { call := ⟨ana, 1, ⟨8⟩⟩, peerId := cy, peerName := "Cy", video := false } (by decide +kernel) (by decide)
    revert hcalls
    decide +kernel
  · intro h
    have hring : NoLateRing (run (CallSystem.step directory) CallSystem.start overtaken) (.delivered 0) := (along_append.1 h).2.1
    exact hring { request := { call := ⟨ana, 0, ⟨7⟩⟩, fromUserId := ana, notice := .ring false }, stage := .broadcast bo } (by decide +kernel)
      rfl rfl ana { call := ⟨ana, 0, ⟨7⟩⟩, stage := .completed } (by decide +kernel) rfl rfl

end Genzh.Client.Calls
