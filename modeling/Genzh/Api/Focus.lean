/-
What a connection is reading, said three times over: in its session, as a focus that waits for a subscription, and in the
store that all connections share. The session and the store agree whatever the client does. Two things go wrong: a
connection that leaves a room it is not reading stops reading the one it is, and a focus that waits for its subscription
goes to whoever has authenticated over the connection since.
-/
import Genzh.Api.Commands
import Genzh.Lib.Run

namespace Genzh.Api.Ws

open Genzh.Lib Genzh.Domain Genzh.Infrastructure

/-! ## All connections -/

/-- The connections, and the store of attention they share. The code does not keep `asked`: as whom a connection last said
what it is reading. -/
structure Floor where
  clock : Nat
  attention : Attention
  sessions : ConnectionId → Session
  asked : ConnectionId → Option UserId

/-- Time passes, or something arrives over a connection. -/
inductive Event where
  | tick (passed : Nat)
  | arrives (connection : ConnectionId) (a : Arrival)
  deriving DecidableEq, Repr

/-- Does the client say what it is reading? Typing in a room, or posting into it, says so too. -/
def Arrival.tells (s : Session) : Arrival → Bool
  | .command (.focus _) | .command (.unsubscribe _) => !s.released
  | .command (.typing roomId _) | .command (.sendMessage roomId) => !s.released && s.isSubscribed roomId
  | _ => false

namespace Floor

/-- Nobody has connected yet. -/
def opened : Floor := ⟨0, .empty, fun _ => .new, fun _ => none⟩

def step (σ : Floor) : Event → Floor
  | .tick passed => { σ with clock := σ.clock + passed }
  | .arrives c a =>
    let handled := arrive σ.clock (σ.sessions c) a
    { clock := σ.clock
      attention := handled.attention.elim σ.attention fun call => Attention.step σ.attention (call.op c σ.clock)
      sessions := Function.update σ.sessions c handled.session
      asked := if a.tells (σ.sessions c) then Function.update σ.asked c (σ.sessions c).currentUser else σ.asked }

/-! ## The claims about it -/

/-- What a connection reads is a room it follows, and both indexes of the store say the same. -/
structure InStep (σ : Floor) : Prop where
  subscribed : ∀ c r, (σ.sessions c).focusedRoom = some r → (σ.sessions c).isSubscribed r = true
  room : ∀ c, σ.attention.rooms.get c = (σ.sessions c).focusedRoom
  watcher : ∀ c r, (∃ w, σ.attention.watcher r c = some w) ↔ (σ.sessions c).focusedRoom = some r

/-- Whoever the store has as reading over a connection is who asked for it. -/
def Own (σ : Floor) : Prop := ∀ c r w, σ.attention.watcher r c = some w → σ.asked c = some w.userId

/-- Leaving a room that is not the one being read leaves the reading alone. -/
def LeavesFocus (σ : Floor) (e : Event) : Prop :=
  ∀ c r, e = .arrives c (.command (.unsubscribe r)) → (σ.sessions c).focusedRoom ≠ some r →
    ((σ.step e).sessions c).focusedRoom = (σ.sessions c).focusedRoom ∧
      (σ.step e).attention.rooms.get c = σ.attention.rooms.get c ∧
      ∀ r', (σ.step e).attention.watcher r' c = σ.attention.watcher r' c

/-- Nobody leaves a room while reading another, and no focus still waits for the subscription that is granted when somebody
else than who asked for it is authenticated. -/
structure Undisturbed (σ : Floor) (e : Event) : Prop where
  leaving : ∀ c r r', e = .arrives c (.command (.unsubscribe r)) → (σ.sessions c).focusedRoom = some r' → r' = r
  granted : ∀ c r u, e = .arrives c (.command (.subscribe r true)) → (σ.sessions c).released = false →
    (σ.sessions c).currentUser = some u → (σ.sessions c).pendingFocus = some r → σ.asked c = some u

end Floor

/-! ## One connection -/

/-- What a call makes of the entry of the connection it is about. -/
def AttentionCall.entry (now : Nat) (o : Option (RoomId × Watcher)) : AttentionCall → Option (RoomId × Watcher)
  | focus userId roomId => some (roomId, { userId, since := now })
  | blur => none
  | touch => o.map fun (r, w) => (r, { w with since := now })

theorem attend_op {now : Nat} {c c' : ConnectionId} {o : Option (RoomId × Watcher)} (call : AttentionCall) :
    Attention.attend c' o (call.op c now) = if c = c' then call.entry now o else o := by
  cases call <;> rfl

/-- The entry of a connection once a command has been handled. -/
def Handled.entry (now : Nat) (o : Option (RoomId × Watcher)) (h : Handled) : Option (RoomId × Watcher) :=
  h.attention.elim o fun call => call.entry now o

/-- A session and its entry, as they have to be. -/
structure Reads (s : Session) (o : Option (RoomId × Watcher)) : Prop where
  subscribed : ∀ r, s.focusedRoom = some r → s.isSubscribed r = true
  entry : o.map Prod.fst = s.focusedRoom
  anonymous : s.currentUser = none → s.focusedRoom = none
  uncounted : s.released = false → s.countedAs = none → s.currentUser = none
  gone : s.released = true → s.focusedRoom = none

/-- The entry is of the user who asked for it. -/
def OwnEntry (o : Option (RoomId × Watcher)) (asked : Option UserId) : Prop := ∀ p, o = some p → asked = some p.2.userId

section One

variable {s : Session} {o : Option (RoomId × Watcher)} {now : Nat} {u : UserId} {r : RoomId} {room : Option RoomId}
  {asked : Option UserId}

theorem Reads.entry_none (h : Reads s o) (hfocus : s.focusedRoom = none) : o = none := by
  rw [← h.entry] at hfocus
  exact Option.map_eq_none_iff.1 hfocus

theorem ownEntry_none (asked : Option UserId) : OwnEntry none asked := fun p hp => (by cases hp)

/-! ### Attending -/

theorem entry_attend (huser : s.currentUser = some u) :
    (s.attend room).entry now o = (room.filter fun id => s.isSubscribed id).map fun id => (id, { userId := u, since := now }) := by
  rw [attend_some huser]
  show AttentionCall.entry now o ((room.filter fun id => s.isSubscribed id).elim .blur fun id => .focus u id) = _
  rcases room.filter fun id => s.isSubscribed id with _ | id <;> rfl

/-- Attending settles what is read from the subscriptions alone, whatever was read before. -/
theorem reads_attend (hanonymous : s.currentUser = none → Reads s o)
    (huncounted : s.released = false → s.countedAs = none → s.currentUser = none) (hopen : s.released = false) (now : Nat)
    (room : Option RoomId) : Reads (s.attend room).session ((s.attend room).entry now o) := by
  rcases huser : s.currentUser with _ | u
  · rw [attend_none huser]
    exact hanonymous huser
  · -- the focus is the room that was asked for if it is followed, and none otherwise
    rw [entry_attend huser, attend_some huser]
    constructor
    · intro r hr
      exact (Option.filter_eq_some_iff.1 hr).2
    · rw [Option.map_map]
      exact Option.map_id'
    · intro hnone
      cases huser.symm.trans hnone
    · intro hr hc
      cases huser.symm.trans (huncounted hr hc)
    · intro hgone
      cases hopen.symm.trans hgone

theorem Reads.attend (h : Reads s o) (hopen : s.released = false) (now : Nat) (room : Option RoomId) :
    Reads (s.attend room).session ((s.attend room).entry now o) := reads_attend (fun _ => h) h.uncounted hopen now room

/-- What is recorded by attending is of the user who is authenticated. -/
theorem ownEntry_attend (h : Reads s o) (now : Nat) (room : Option RoomId) :
    OwnEntry ((s.attend room).entry now o) s.currentUser := by
  rcases huser : s.currentUser with _ | u
  · rw [attend_none huser]
    show OwnEntry o none
    rw [h.entry_none (h.anonymous huser)]
    exact ownEntry_none none
  · rw [entry_attend huser]
    intro p hp
    obtain ⟨id, -, rfl⟩ := Option.map_eq_some_iff.1 hp
    rfl

/-! ### Each command -/

theorem mayAnnounceTyping_session (s : Session) (r : RoomId) (isTyping : Bool) (now : Nat) :
    ∃ sent, (s.mayAnnounceTyping r isTyping now).2 = { s with typingSent := sent } := by
  unfold Session.mayAnnounceTyping
  cases isTyping
  · exact ⟨_, rfl⟩
  · by_cases hdue : s.due r now = true
    · exact ⟨_, by simp only [if_true, hdue]; rfl⟩
    · exact ⟨s.typingSent, by simp only [if_true, hdue]; rfl⟩

/-- Typing in a room that is followed is attending it, as far as attention goes; in any other room it is nothing. -/
theorem typing_cases (s : Session) (r : RoomId) (isTyping : Bool) (now : Nat) :
    (s.isSubscribed r = true ∧ ∃ sent, (s.typing r isTyping now).session = { (s.attend (some r)).session with typingSent := sent } ∧
      (s.typing r isTyping now).attention = (s.attend (some r)).attention) ∨
    (s.currentUser = none ∨ s.isSubscribed r = false) ∧ s.typing r isTyping now = { session := s } := by
  unfold Session.typing
  rcases huser : s.currentUser with _ | u
  · exact .inr ⟨.inl rfl, rfl⟩
  · by_cases hsub : s.isSubscribed r = true
    · obtain ⟨sent, hsent⟩ := mayAnnounceTyping_session (s.attend (some r)).session r isTyping now
      simp only [hsub, if_true]
      exact .inl ⟨trivial, sent, hsent, trivial⟩
    · simp only [hsub]
      exact .inr ⟨.inr trivial, rfl⟩

theorem Reads.subscribe (h : Reads s o) (hopen : s.released = false) (now : Nat) (r : RoomId) :
    Reads (s.subscribe r).session ((s.subscribe r).entry now o) := by
  have hmore : Reads (s.insertRoom r) o := by
    refine ⟨fun r' hr' => ?_, h.entry, h.anonymous, h.uncounted, h.gone⟩
    have hwas : r' ∈ s.subscribedRooms := of_decide_eq_true (h.subscribed r' hr')
    by_cases heq : r' = r
    · simp [Api.Session.isSubscribed, Session.insertRoom, heq]
    · simp [Api.Session.isSubscribed, Session.insertRoom, heq, hwas]
  unfold Session.subscribe
  split
  · exact hmore.attend hopen now (some r)
  · exact hmore

theorem Reads.unsubscribe (h : Reads s o) (hopen : s.released = false) (now : Nat) (r : RoomId) :
    Reads ((s.unsubscribe r).attend none).session (((s.unsubscribe r).attend none).entry now o) := by
  -- between the two the focus may be on a room that is not followed any more; attending nothing mends it
  refine reads_attend (s := s.unsubscribe r) (fun huser => ?_) h.uncounted hopen now none
  refine ⟨fun r' hr' => ?_, h.entry, h.anonymous, h.uncounted, h.gone⟩
  cases (h.anonymous huser).symm.trans hr'

theorem Reads.authenticate (h : Reads s o) (hopen : s.released = false) (now : Nat) (u : UserId) :
    Reads (s.authenticate u).session ((s.authenticate u).entry now o) := by
  unfold Session.authenticate
  rcases hcounted : s.countedAs with _ | previous
  · -- nobody was counted, so nothing was read
    have hnone := h.anonymous (h.uncounted hopen hcounted)
    simp only [reduceCtorEq, if_false]
    refine ⟨h.subscribed, h.entry, fun hu => (by cases hu), fun _ hc => (by cases hc), fun _ => hnone⟩
  · by_cases hsame : previous = u
    · simp only [hsame, if_true]
      exact ⟨h.subscribed, h.entry, fun hu => (by cases hu), fun _ hc => (by cases hc), h.gone⟩
    · -- somebody else was: their reading is dropped, here and in the store
      simp only [Option.some.injEq, hsame, if_false]
      exact ⟨fun r hr => (by cases hr), rfl, fun _ => rfl, fun _ hc => (by cases hc), fun _ => rfl⟩

theorem Reads.typing (h : Reads s o) (hopen : s.released = false) (now : Nat) (r : RoomId) (isTyping : Bool) :
    Reads (s.typing r isTyping now).session ((s.typing r isTyping now).entry now o) := by
  rcases typing_cases s r isTyping now with ⟨-, sent, hsession, hattention⟩ | ⟨-, heq⟩
  · have hattend := h.attend hopen now (some r)
    unfold Handled.entry at hattend ⊢
    rw [hsession, hattention]
    exact ⟨hattend.subscribed, hattend.entry, hattend.anonymous, hattend.uncounted, hattend.gone⟩
  · rw [heq]
    exact h

/-- Whatever arrives, the session and the entry stay as they have to be. -/
theorem Reads.arrive (h : Reads s o) (now : Nat) (a : Arrival) :
    Reads (Ws.arrive now s a).session ((Ws.arrive now s a).entry now o) := by
  by_cases hgone : s.released = true
  · cases a <;> (simp only [Ws.arrive, hgone, if_true]; exact h)
  · have hopen : s.released = false := by simpa using hgone
    cases a with
    | close =>
      simp only [Ws.arrive, hopen]
      exact ⟨fun r hr => (by cases hr), rfl, fun _ => rfl, fun hr => (by cases hr), fun _ => rfl⟩
    | command c =>
      simp only [Ws.arrive, hopen]
      cases c with
      | ping =>
        show Reads s ((if s.focusedRoom.isSome then some AttentionCall.touch else none).elim o fun call => call.entry now o)
        refine ⟨h.subscribed, ?_, h.anonymous, h.uncounted, h.gone⟩
        rw [← h.entry]
        rcases o with _ | p <;> rfl
      | auth token =>
        rcases token with _ | u
        · exact h
        · exact h.authenticate hopen now u
      | subscribe r visible =>
        by_cases hvisible : (s.currentUser.isSome && visible) = true
        · simp only [handle, hvisible]
          exact h.subscribe hopen now r
        · simp only [handle, hvisible]
          exact h
      | unsubscribe r => exact h.unsubscribe hopen now r
      | focus room => exact h.attend hopen now room
      | typing r isTyping => exact h.typing hopen now r isTyping
      | sendMessage r =>
        by_cases hsub : (s.currentUser.isSome && s.isSubscribed r) = true
        · simp only [handle, Session.sendMessage, hsub]
          exact h.attend hopen now (some r)
        · simp only [handle, Session.sendMessage, hsub]
          exact h
      | react => exact h
      | unreact => exact h

/-! ### Whose reading it is -/

/-- A heartbeat renews the entry and leaves its user. -/
theorem ownEntry_touch (h : Reads s o) (hown : OwnEntry o asked) (now : Nat) : OwnEntry (s.touch.entry now o) asked := by
  show OwnEntry ((if s.focusedRoom.isSome then some AttentionCall.touch else none).elim o fun call => call.entry now o) asked
  rw [← h.entry]
  intro p hp
  rcases o with _ | q
  · cases hp
  · cases hp
    exact hown q rfl

theorem entry_authenticate (s : Session) (u : UserId) (now : Nat) (o : Option (RoomId × Watcher)) :
    (s.authenticate u).entry now o = o ∨ (s.authenticate u).entry now o = none := by
  unfold Session.authenticate
  rcases s.countedAs with _ | previous
  · exact .inl rfl
  · by_cases hsame : previous = u
    · simp only [hsame, if_true]
      exact .inl rfl
    · simp only [Option.some.injEq, hsame, if_false]
      exact .inr rfl

theorem ownEntry_authenticate (hown : OwnEntry o asked) (now : Nat) (u : UserId) :
    OwnEntry ((s.authenticate u).entry now o) asked := by
  rcases entry_authenticate s u now o with h | h
  · rw [h]
    exact hown
  · rw [h]
    exact ownEntry_none asked

/-- A focus that waited is recorded in the name of whoever is authenticated when its room is granted. -/
theorem ownEntry_subscribe (huser : s.currentUser = some u) (hown : OwnEntry o asked) (now : Nat) (r : RoomId) :
    OwnEntry ((s.subscribe r).entry now o) asked ↔ (s.pendingFocus = some r → asked = some u) := by
  unfold Session.subscribe
  by_cases hpending : s.pendingFocus = some r
  · have hin : (s.insertRoom r).isSubscribed r = true := by simp [Api.Session.isSubscribed, Session.insertRoom]
    rw [if_pos hpending, entry_attend (s := s.insertRoom r) huser]
    constructor
    · rintro howned -
      exact howned (r, { userId := u, since := now }) (by simp [Option.filter, hin])
    · intro hcond p hp
      obtain ⟨id, -, rfl⟩ := Option.map_eq_some_iff.1 hp
      exact hcond hpending
  · rw [if_neg hpending]
    exact iff_of_true hown fun hp => absurd hp hpending

theorem ownEntry_unsubscribe (h : Reads s o) (now : Nat) (r : RoomId) :
    OwnEntry (((s.unsubscribe r).attend none).entry now o) s.currentUser := by
  rcases huser : s.currentUser with _ | u
  · rw [attend_none (s := s.unsubscribe r) huser]
    show OwnEntry o none
    rw [h.entry_none (h.anonymous huser)]
    exact ownEntry_none none
  · rw [entry_attend (s := s.unsubscribe r) huser]
    exact ownEntry_none _

theorem ownEntry_typing (h : Reads s o) (hown : OwnEntry o asked) (now : Nat) (r : RoomId) (isTyping : Bool) :
    OwnEntry ((s.typing r isTyping now).entry now o) (if s.isSubscribed r then s.currentUser else asked) := by
  rcases typing_cases s r isTyping now with ⟨hsub, -, -, hattention⟩ | ⟨hnot, heq⟩
  · unfold Handled.entry
    rw [hattention, if_pos hsub]
    exact ownEntry_attend h now (some r)
  · rw [heq]
    show OwnEntry o _
    rcases hnot with huser | hsub
    · rw [h.entry_none (h.anonymous huser)]
      exact ownEntry_none _
    · simp only [hsub]
      exact hown

theorem ownEntry_sendMessage (h : Reads s o) (hown : OwnEntry o asked) (now : Nat) (r : RoomId) :
    OwnEntry ((s.sendMessage r).entry now o) (if s.isSubscribed r then s.currentUser else asked) := by
  unfold Session.sendMessage
  by_cases hsub : s.isSubscribed r = true
  · rcases huser : s.currentUser with _ | u
    · show OwnEntry o _
      rw [h.entry_none (h.anonymous huser)]
      exact ownEntry_none _
    · simp only [hsub, Option.isSome_some, Bool.and_self, if_true]
      rw [← huser]
      exact ownEntry_attend h now (some r)
  · simp only [hsub, Bool.and_false]
    exact hown

/-- What is recorded over a connection stays the reading of whoever asked for it, exactly if a focus that waited is not
granted to somebody else. -/
theorem ownEntry_arrive (h : Reads s o) (hown : OwnEntry o asked) (now : Nat) (a : Arrival) :
    OwnEntry ((Ws.arrive now s a).entry now o) (if a.tells s then s.currentUser else asked) ↔
      ∀ r u, a = .command (.subscribe r true) → s.released = false → s.currentUser = some u → s.pendingFocus = some r →
        asked = some u := by
  by_cases hgone : s.released = true
  · refine iff_of_true ?_ fun r u _ hopen => (by cases hgone.symm.trans hopen)
    have hentry : (Ws.arrive now s a).entry now o = none := by
      rw [← h.entry_none (h.gone hgone)]
      cases a <;> simp only [Ws.arrive, hgone, if_true] <;> rfl
    rw [hentry]
    exact ownEntry_none _
  · have hopen : s.released = false := by simpa using hgone
    cases a with
    | close =>
      refine iff_of_true ?_ fun r u heq => (by cases heq)
      simp only [Ws.arrive, hopen]
      exact ownEntry_none _
    | command c =>
      simp only [Ws.arrive, hopen]
      cases c with
      | ping => exact iff_of_true (ownEntry_touch h hown now) fun r u heq => (by cases heq)
      | auth token =>
        refine iff_of_true ?_ fun r u heq => (by cases heq)
        rcases token with _ | u
        · exact hown
        · exact ownEntry_authenticate hown now u
      | subscribe r visible =>
        show OwnEntry ((if s.currentUser.isSome && visible then s.subscribe r else { session := s }).entry now o) asked ↔ _
        rcases huser : s.currentUser with _ | u
        · exact iff_of_true hown fun r' u' _ _ hu => (by cases hu)
        · cases visible with
          | false => exact iff_of_true hown fun r' u' heq => (by cases heq)
          | true =>
            rw [show ((some u).isSome && true) = true from rfl, if_pos rfl, ownEntry_subscribe huser hown]
            constructor
            · rintro hcond r' u' heq - hu hp
              cases heq
              cases hu
              exact hcond hp
            · exact fun hcond hp => hcond r u rfl trivial rfl hp
      | unsubscribe r =>
        refine iff_of_true ?_ fun r u heq => (by cases heq)
        simp only [Arrival.tells, hopen]
        exact ownEntry_unsubscribe h now r
      | focus room =>
        refine iff_of_true ?_ fun r u heq => (by cases heq)
        simp only [Arrival.tells, hopen]
        exact ownEntry_attend h now room
      | typing r isTyping =>
        refine iff_of_true ?_ fun r u heq => (by cases heq)
        simp only [Arrival.tells, hopen]
        exact ownEntry_typing h hown now r isTyping
      | sendMessage r =>
        refine iff_of_true ?_ fun r u heq => (by cases heq)
        simp only [Arrival.tells, hopen]
        exact ownEntry_sendMessage h hown now r
      | react => exact iff_of_true hown fun r u heq => (by cases heq)
      | unreact => exact iff_of_true hown fun r u heq => (by cases heq)

/-- Leaving a room other than the one being read leaves the reading alone, exactly if nothing else was read. -/
theorem leaves_arrive (h : Reads s o) (now : Nat) (r : RoomId) :
    (s.focusedRoom ≠ some r →
      (Ws.arrive now s (.command (.unsubscribe r))).session.focusedRoom = s.focusedRoom ∧
        (Ws.arrive now s (.command (.unsubscribe r))).entry now o = o) ↔
      ∀ r', s.focusedRoom = some r' → r' = r := by
  rcases hfocus : s.focusedRoom with _ | r'
  · refine iff_of_true (fun _ => ?_) fun r' hr' => (by cases hr')
    have hafter := h.arrive now (.command (.unsubscribe r))
    have hnone : (Ws.arrive now s (.command (.unsubscribe r))).session.focusedRoom = none := by
      by_cases hgone : s.released = true
      · simp only [Ws.arrive, hgone]
        exact hfocus
      · simp only [Ws.arrive, hgone]
        show ((s.unsubscribe r).attend none).session.focusedRoom = none
        rcases huser : s.currentUser with _ | u
        · rw [attend_none (s := s.unsubscribe r) huser]
          exact hfocus
        · rw [attend_some (s := s.unsubscribe r) huser]
          rfl
    exact ⟨hnone, by rw [hafter.entry_none hnone, h.entry_none hfocus]⟩
  · have hopen : s.released = false := by
      rcases hr : s.released with _ | _
      · rfl
      · cases hfocus.symm.trans (h.gone hr)
    obtain ⟨u, huser⟩ : ∃ u, s.currentUser = some u := by
      rcases hu : s.currentUser with _ | u
      · cases hfocus.symm.trans (h.anonymous hu)
      · exact ⟨u, rfl⟩
    constructor
    · -- whichever room is left, what was read is read no more
      intro hleaves r'' hr''
      cases hr''
      by_contra hne
      have hafter := (hleaves fun heq => hne (Option.some.inj heq)).1
      simp only [Ws.arrive, hopen] at hafter
      change ((s.unsubscribe r).attend none).session.focusedRoom = some r' at hafter
      rw [attend_some (s := s.unsubscribe r) huser] at hafter
      cases hafter
    · intro hcond hne
      exact absurd (congrArg some (hcond r' rfl)) hne

end One

/-! ## All of them, over a run -/

namespace Floor

variable {σ : Floor}

/-- The store is well indexed, and every session and its entry are as they have to be. -/
structure Settled (σ : Floor) : Prop where
  inverse : Attention.Inverse σ.attention
  reads : ∀ c, Reads (σ.sessions c) (σ.attention.entry c)

theorem settled_opened : Settled opened :=
  ⟨Attention.inverse_empty, fun c =>
    ⟨fun r hr => (by cases hr), rfl, fun _ => rfl, fun _ _ => rfl, fun _ => rfl⟩⟩

/-- The entries after something has arrived: the connection's own follows its call, and the others stay. -/
theorem entry_arrives (h : Settled σ) (c c' : ConnectionId) (a : Arrival) :
    (σ.step (.arrives c a)).attention.entry c' =
      if c = c' then (arrive σ.clock (σ.sessions c) a).entry σ.clock (σ.attention.entry c) else σ.attention.entry c' := by
  show (((arrive σ.clock (σ.sessions c) a).attention.elim σ.attention fun call => Attention.step σ.attention (call.op c σ.clock)).entry c') = _
  unfold Handled.entry
  rcases (arrive σ.clock (σ.sessions c) a).attention with _ | call
  · by_cases hc : c = c'
    · simp [hc]
    · simp [hc]
  · rw [Option.elim_some, Option.elim_some, Attention.entry_step h.inverse, attend_op]
    by_cases hc : c = c'
    · simp [hc]
    · simp [hc]

theorem sessions_arrives_self (c : ConnectionId) (a : Arrival) :
    (σ.step (.arrives c a)).sessions c = (arrive σ.clock (σ.sessions c) a).session := Function.update_self ..

theorem sessions_arrives_of_ne {c c' : ConnectionId} (h : c' ≠ c) (a : Arrival) :
    (σ.step (.arrives c a)).sessions c' = σ.sessions c' := Function.update_of_ne h ..

theorem asked_arrives (c c' : ConnectionId) (a : Arrival) :
    (σ.step (.arrives c a)).asked c' =
      if c = c' then (if a.tells (σ.sessions c) then (σ.sessions c).currentUser else σ.asked c) else σ.asked c' := by
  show (if a.tells (σ.sessions c) then Function.update σ.asked c (σ.sessions c).currentUser else σ.asked) c' = _
  by_cases hc : c = c'
  · subst hc
    by_cases htells : a.tells (σ.sessions c) = true <;> simp [htells]
  · by_cases htells : a.tells (σ.sessions c) = true <;> simp [htells, hc, Ne.symm hc]

theorem settled_step (h : Settled σ) (e : Event) : Settled (σ.step e) := by
  cases e with
  | tick passed => exact ⟨h.inverse, h.reads⟩
  | arrives c a =>
    constructor
    · show Attention.Inverse ((arrive σ.clock (σ.sessions c) a).attention.elim σ.attention _)
      rcases (arrive σ.clock (σ.sessions c) a).attention with _ | call
      · exact h.inverse
      · exact Attention.inverse_step h.inverse _
    · intro c'
      rw [entry_arrives h]
      by_cases hc : c = c'
      · subst hc
        rw [sessions_arrives_self, if_pos rfl]
        exact (h.reads c).arrive σ.clock a
      · rw [sessions_arrives_of_ne (Ne.symm hc), if_neg hc]
        exact h.reads c'

theorem Settled.inStep (h : Settled σ) : InStep σ where
  subscribed c := (h.reads c).subscribed
  room c := by rw [Attention.rooms_eq_entry h.inverse, (h.reads c).entry]
  watcher c r := by rw [← h.inverse.inverse, Attention.rooms_eq_entry h.inverse, (h.reads c).entry]

theorem own_iff (h : Settled σ) : Own σ ↔ ∀ c, OwnEntry (σ.attention.entry c) (σ.asked c) := by
  constructor
  · intro hown c p hp
    exact hown c p.1 p.2 ((Attention.watcher_iff_entry h.inverse).2 hp)
  · intro hown c r w hw
    exact hown c (r, w) ((Attention.watcher_iff_entry h.inverse).1 hw)

/-- The reading of every connection stays its own through a step exactly if no focus that waited goes to somebody else. -/
theorem own_step_iff (h : Settled σ) (hown : Own σ) (c : ConnectionId) (a : Arrival) :
    Own (σ.step (.arrives c a)) ↔
      ∀ r u, a = .command (.subscribe r true) → (σ.sessions c).released = false → (σ.sessions c).currentUser = some u →
        (σ.sessions c).pendingFocus = some r → σ.asked c = some u := by
  rw [own_iff h] at hown
  rw [own_iff (settled_step h _), ← ownEntry_arrive (h.reads c) (hown c) σ.clock a]
  -- only the connection that something arrived over can have changed
  constructor
  · intro hall
    have := hall c
    rwa [entry_arrives h, asked_arrives, if_pos rfl, if_pos rfl] at this
  · intro hself c'
    rw [entry_arrives h, asked_arrives]
    by_cases hc : c = c'
    · rw [if_pos hc, if_pos hc]
      exact hself
    · rw [if_neg hc, if_neg hc]
      exact hown c'

theorem entry_eq_iff (h : Settled σ) {σ' : Floor} (h' : Settled σ') (c : ConnectionId) :
    σ'.attention.entry c = σ.attention.entry c ↔
      σ'.attention.rooms.get c = σ.attention.rooms.get c ∧ ∀ r, σ'.attention.watcher r c = σ.attention.watcher r c := by
  constructor
  · intro heq
    refine ⟨?_, fun r => Option.ext fun w => ?_⟩
    · rw [Attention.rooms_eq_entry h.inverse, Attention.rooms_eq_entry h'.inverse, heq]
    · rw [Attention.watcher_iff_entry h'.inverse, Attention.watcher_iff_entry h.inverse, heq]
  · rintro ⟨-, hwatcher⟩
    refine Option.ext fun p => ?_
    rw [← Attention.watcher_iff_entry (r := p.1) (w := p.2) h'.inverse,
      ← Attention.watcher_iff_entry (r := p.1) (w := p.2) h.inverse, hwatcher]

theorem leaves_step_iff (h : Settled σ) (c : ConnectionId) (a : Arrival) :
    LeavesFocus σ (.arrives c a) ↔
      ∀ r r', a = .command (.unsubscribe r) → (σ.sessions c).focusedRoom = some r' → r' = r := by
  have hone : ∀ r, a = .command (.unsubscribe r) →
      (((σ.sessions c).focusedRoom ≠ some r →
          ((σ.step (.arrives c a)).sessions c).focusedRoom = (σ.sessions c).focusedRoom ∧
            (σ.step (.arrives c a)).attention.rooms.get c = σ.attention.rooms.get c ∧
            ∀ r', (σ.step (.arrives c a)).attention.watcher r' c = σ.attention.watcher r' c) ↔
        ∀ r', (σ.sessions c).focusedRoom = some r' → r' = r) := by
    rintro r rfl
    rw [← leaves_arrive (h.reads c) σ.clock r, ← entry_eq_iff h (settled_step h _), entry_arrives h, if_pos rfl,
      sessions_arrives_self]
  constructor
  · intro hleaves r r' ha hr'
    exact (hone r ha).1 (fun hne => hleaves c r (congrArg _ ha) hne) r' hr'
  · intro hcond c' r heq
    obtain ⟨rfl, ha⟩ := Event.arrives.inj heq
    exact (hone r ha).2 fun r' => hcond r r' ha

theorem step_iff (h : Settled σ) (hown : Own σ) (e : Event) : LeavesFocus σ e ∧ Own (σ.step e) ↔ Undisturbed σ e := by
  cases e with
  | tick passed =>
    refine iff_of_true ⟨fun c r heq => (by cases heq), hown⟩ ⟨fun c r r' heq => (by cases heq), fun c r u heq => (by cases heq)⟩
  | arrives c a =>
    rw [leaves_step_iff h, own_step_iff h hown]
    constructor
    · rintro ⟨hleaves, hgranted⟩
      constructor
      · intro c' r r' heq
        obtain ⟨rfl, ha⟩ := Event.arrives.inj heq
        exact hleaves r r' ha
      · intro c' r u heq
        obtain ⟨rfl, ha⟩ := Event.arrives.inj heq
        exact hgranted r u ha
    · rintro ⟨hleaving, hgranted⟩
      exact ⟨fun r r' ha => hleaving c r r' (congrArg _ ha), fun r u ha => hgranted c r u (congrArg _ ha)⟩

/-- Over every run of any number of connections, what a connection reads is a room it follows and what the store has of
it. What is recorded is the reading of whoever asked for it, and leaving another room leaves it alone, in exactly the runs
in which nobody leaves a room while reading another and no focus is granted to somebody else than it waited for. -/
theorem focus_along_iff (es : List Event) :
    Always step InStep opened es ∧
      (Always step Own opened es ∧ Along step LeavesFocus opened es ↔ Along step Undisturbed opened es) := by
  constructor
  · have hsettled : Always step Settled opened es := always_of_step (fun _ e h => settled_step h e) settled_opened
    exact hsettled.mono fun _ h => h.inStep
  · refine always_along_iff (J := Settled) (fun _ e h => settled_step h e) (fun _ e h hown => step_iff h hown e) settled_opened ?_
    intro c r w hw
    cases hw

/-! ## Two that go wrong -/

/-- Somebody follows two rooms, reads one and leaves the other. -/
def leavesAnother : List Event :=
  [.arrives ⟨1⟩ (.command (.auth (some ⟨7⟩))), .arrives ⟨1⟩ (.command (.subscribe ⟨10⟩ true)),
    .arrives ⟨1⟩ (.command (.subscribe ⟨11⟩ true)), .arrives ⟨1⟩ (.command (.focus (some ⟨10⟩))),
    .arrives ⟨1⟩ (.command (.unsubscribe ⟨11⟩))]

/-- Somebody opens a room, and somebody else authenticates before the subscription arrives. -/
def takesOver : List Event :=
  [.arrives ⟨1⟩ (.command (.auth (some ⟨7⟩))), .arrives ⟨1⟩ (.command (.focus (some ⟨10⟩))),
    .arrives ⟨1⟩ (.command (.auth (some ⟨8⟩))), .arrives ⟨1⟩ (.command (.subscribe ⟨10⟩ true))]

/-- The first is reading nothing any more, and the second is said to be reading what the first opened. -/
theorem focus_lost : ¬ Along step LeavesFocus opened leavesAnother ∧ ¬ Always step Own opened takesOver := by
  constructor
  · intro h
    have hsplit : Along step LeavesFocus opened (leavesAnother.take 4 ++ leavesAnother.drop 4) := h
    have hroom := ((along_append.1 hsplit).2.1 ⟨1⟩ ⟨11⟩ rfl (by decide)).1
    revert hroom
    decide
  · intro h
    have := h.last ⟨1⟩ ⟨10⟩ ⟨⟨8⟩, 0⟩ (by decide)
    revert this
    decide

end Floor

end Genzh.Api.Ws
