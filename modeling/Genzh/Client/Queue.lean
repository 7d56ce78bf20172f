/-
Whose frames a socket carries. A socket is opened under the token that is current, and what is said over it
at once is said under the same token; what waits in the queue outlives both the socket and the token, and is
sent over whichever socket opens next.
-/
import Genzh.Client.Effect
import Genzh.Lib.Run

namespace Genzh.Client

open Genzh.Lib Genzh.Domain Genzh.Room Genzh.Api

/-- Passed to `send` while no token was current, or while this one was. -/
def Data.Under (token : Option String) (data : Data) : Prop := ∀ t ∈ data.under, token = some t

instance (token : Option String) (data : Data) : Decidable (data.Under token) :=
  inferInstanceAs (Decidable (∀ t ∈ data.under, token = some t))

/-- What was sent over the socket was said under the token it was opened with. -/
def WebSocket.KeepsAccount (w : WebSocket) : Prop := ∀ data ∈ w.sent, data.Under w.token

instance (w : WebSocket) : Decidable w.KeepsAccount := inferInstanceAs (Decidable (∀ data ∈ w.sent, data.Under w.token))

namespace ChatSocket

variable {copy : Copy} {s : ChatSocket} {w : WebSocket}

/-- Every socket the client has opened. -/
def sockets (s : ChatSocket) : List WebSocket := s.left ++ s.socket.toList

/-- Every socket has been sent only what was said under the token it was opened with. -/
def KeepsAccounts (s : ChatSocket) : Prop := ∀ w ∈ s.sockets, w.KeepsAccount

instance (s : ChatSocket) : Decidable s.KeepsAccounts := inferInstanceAs (Decidable (∀ w ∈ s.sockets, w.KeepsAccount))

/-- When a socket opens, what waits for it was said under the current token. -/
def QueueIsOwn (s : ChatSocket) : Event → Prop
  | .opens _ => s.readyState = some .connecting → ∀ data ∈ s.messageQueue, data.Under s.token
  | _ => True

/-! ## The socket held is the current token's -/

/-- The socket the client holds was opened under the token that is current. -/
def HoldsCurrent (s : ChatSocket) : Prop := ∀ w, s.socket = some w → w.token = s.token

theorem HoldsCurrent.say (h : HoldsCurrent s) (frame : Frame) : HoldsCurrent (s.say copy frame) := by
  unfold ChatSocket.say
  rcases send_cases copy s ⟨frame, s.token⟩ with ⟨w, hw, -, hs⟩ | ⟨-, -, hs⟩ | ⟨-, -, hs⟩ <;> rw [hs]
  · rintro v ⟨⟩
    exact h w hw
  · exact h
  · exact h

theorem HoldsCurrent.step (h : HoldsCurrent s) (e : Event) : HoldsCurrent (s.step copy e) := by
  have heffect := effect copy s e
  generalize s.step copy e = s' at heffect ⊢
  cases heffect with
  | idles => exact h
  | tells =>
    refine HoldsCurrent.say ?_ _
    exact h
  | sends => exact h.say _
  | renews hsocket =>
    rintro w hw
    rw [hsocket w hw]
    rfl
  | @shuts _ w _ _ _ _ hw =>
    rintro v ⟨⟩
    exact h w hw
  | @opens _ w hw =>
    rintro v ⟨⟩
    exact h w hw
  | @serves db w hw =>
    rintro v ⟨⟩
    rcases WebSocket.serve_cases db w with hserve | ⟨session, data, -, -, hserve⟩ <;> rw [hserve]
    · exact h w hw
    · exact h w hw

/-! ## What is sent -/

theorem keepsAccounts_iff : s.KeepsAccounts ↔ (∀ w ∈ s.left, w.KeepsAccount) ∧ ∀ w, s.socket = some w → w.KeepsAccount := by
  unfold KeepsAccounts sockets
  simp only [List.forall_mem_append, Option.mem_toList]

theorem KeepsAccounts.letGo (h : s.KeepsAccounts) {left : List WebSocket} (hleft : LetGo s left) :
    ∀ w ∈ left, w.KeepsAccount := by
  intro w hw
  obtain ⟨v, hv, htoken, hsent⟩ := hleft w hw
  unfold WebSocket.KeepsAccount
  rw [htoken, hsent]
  exact h v hv

/-- What is said now goes out, if it does, under the current token. -/
theorem KeepsAccounts.say (h : s.KeepsAccounts) (hcurrent : s.HoldsCurrent) (frame : Frame) : (s.say copy frame).KeepsAccounts := by
  obtain ⟨hleft, hsocket⟩ := keepsAccounts_iff.1 h
  unfold ChatSocket.say
  rcases send_cases copy s ⟨frame, s.token⟩ with ⟨w, hw, -, hs⟩ | ⟨-, -, hs⟩ | ⟨-, -, hs⟩ <;> rw [hs]
  · refine keepsAccounts_iff.2 ⟨hleft, ?_⟩
    rintro v ⟨⟩ data hdata
    rcases List.mem_append.1 hdata with hdata | hdata
    · exact hsocket w hw data hdata
    · obtain rfl := List.mem_singleton.1 hdata
      intro t ht
      exact (hcurrent w hw).trans ht
  · exact h
  · exact h

/-- The frames a socket opens with are under the current token. -/
theorem under_handshake {data : Data} (h : data ∈ s.handshake) : data.Under s.token := by
  intro t ht
  rcases List.mem_append.1 h with h | h
  · obtain ⟨roomId, -, rfl⟩ := List.mem_map.1 h
    exact ht
  · obtain ⟨roomId, -, rfl⟩ := Option.mem_map.1 (Option.mem_toList.1 h)
    exact ht

/-- A step keeps every socket to its account, if the queue it sends, where it sends one, is the current account's. -/
theorem KeepsAccounts.step (h : s.KeepsAccounts) (hcurrent : s.HoldsCurrent) {e : Event} (hown : s.QueueIsOwn e) :
    (s.step copy e).KeepsAccounts := by
  obtain ⟨hleft, hsocket⟩ := keepsAccounts_iff.1 h
  have heffect := effect copy s e
  generalize s.step copy e = s' at heffect ⊢
  cases heffect with
  | idles hgo => exact keepsAccounts_iff.2 ⟨h.letGo hgo, hsocket⟩
  | tells =>
    refine KeepsAccounts.say ?_ ?_ _
    · exact h
    · exact hcurrent
  | sends => exact h.say hcurrent _
  | renews hnew hgo =>
    refine keepsAccounts_iff.2 ⟨h.letGo hgo, fun w hw data hdata => ?_⟩
    -- nothing has been sent over the new socket
    rw [hnew w hw] at hdata
    cases hdata
  | @shuts _ w _ _ _ _ hw =>
    refine keepsAccounts_iff.2 ⟨hleft, ?_⟩
    rintro v ⟨⟩
    exact hsocket w hw
  | @opens _ w hw hstate =>
    refine keepsAccounts_iff.2 ⟨hleft, ?_⟩
    rintro v ⟨⟩ data hdata
    have htoken : w.token = s.token := hcurrent w hw
    change data.Under w.token
    rcases List.mem_append.1 hdata with hdata | hdata
    · exact hsocket w hw data hdata
    · rw [htoken]
      rcases List.mem_append.1 hdata with hdata | hdata
      · exact under_handshake hdata
      · exact hown (by rw [readyState, hw, Option.map_some, hstate]) data hdata
  | @serves db w hw =>
    refine keepsAccounts_iff.2 ⟨hleft, ?_⟩
    rintro v ⟨⟩
    rcases WebSocket.serve_cases db w with hserve | ⟨session, data, -, -, hserve⟩ <;> rw [hserve]
    · exact hsocket w hw
    · exact hsocket w hw

/-- The queue a socket opens with is sent over it. -/
theorem queueIsOwn_of_step (hcurrent : s.HoldsCurrent) {e : Event} (h : (s.step copy e).KeepsAccounts) : s.QueueIsOwn e := by
  cases e with
  | opens user =>
    intro hconnecting data hdata
    obtain ⟨w, hw, hstate⟩ := Option.map_eq_some_iff.1 hconnecting
    rw [step_opens hw hstate] at h
    rw [← hcurrent w hw]
    exact (keepsAccounts_iff.1 h).2 _ rfl data (List.mem_append_right _ (List.mem_append_right _ hdata))
  | _ => trivial

/-- Every socket is sent only what was said under the token it was opened with, exactly along the runs where
each socket that opens finds in the queue only what was said under the token then current. -/
theorem accounts_kept_iff (copy : Copy) (es : List Event) :
    Always (step copy) KeepsAccounts new es ↔ Along (step copy) QueueIsOwn new es := by
  refine always_iff_along (J := HoldsCurrent) (fun s e h => h.step e) (fun s e hcurrent h => ?_) ?_ ?_
  · exact ⟨queueIsOwn_of_step hcurrent, h.step hcurrent⟩
  · rintro w ⟨⟩
  · exact keepsAccounts_iff.2 ⟨fun w hw => (by cases hw), fun w hw => (by cases hw)⟩

/-- Ana writes to a room while her socket is on its way, and signs out; Ben signs in on the same device, and her
message goes out over his socket. Either copy does this. -/
theorem queue_changes_hands :
    (¬ ∀ es : List Event, Always (step .shared) KeepsAccounts new es) ∧
    ¬ ∀ es : List Event, Always (step .web) KeepsAccounts new es := by
  constructor
  all_goals
    intro h
    have hrun := (h [.setToken "ana" false, .send (.sendMessage ⟨10⟩ "hi" none), .disconnect, .setToken "ben" false,
      .opens (some ⟨2⟩)]).last
    exact absurd hrun (by decide)

end ChatSocket

end Genzh.Client
