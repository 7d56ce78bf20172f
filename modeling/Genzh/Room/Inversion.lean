/-
What a step can do, read backwards: where the row of a room comes from (`Origin`), and how somebody
comes to participate in one (`Entry`). The invariants of the rooms are shown by cases on these two, so
that none of them executes a call.
-/
import Genzh.Room.Observe

namespace Genzh.Room

open Genzh.Lib Genzh.Domain Genzh.Infrastructure Genzh.Community Genzh.Social Genzh.Admin

/-- The request opens the room `r` for `u`, with `room` inserted and the guests of `input` seated. -/
inductive Opens (db : Db) (r : RoomId) : Request → Option CommunityId → UserId → CreateRoom → Room → Prop where
  | create {communityId : Option CommunityId} {u : UserId} {input : CreateRoom} {room : Room}
      (h : created db r communityId u input = some room) :
      Opens db r (.create r communityId u input) communityId u input room
  | direct {a b : UserId} {name handle : String} {room : Room} (h : openedDirect db r a b name handle = some room) :
      Opens db r (.openDirect r a b name handle) none a (directInput b name handle) room

theorem Opens.spec {db : Db} {r : RoomId} {req : Request} {communityId : Option CommunityId} {u : UserId}
    {input : CreateRoom} {room : Room} (h : Opens db r req communityId u input room) :
    Created db r communityId u input room := by
  cases h with
  | create h => exact created_some h
  | direct h => exact created_some (openedDirect_some h).2

theorem Opens.effect_eq {db : Db} {r : RoomId} {req : Request} {communityId : Option CommunityId} {u : UserId}
    {input : CreateRoom} {room : Room} (h : Opens db r req communityId u input room) :
    effect db req = opened u input room db := by
  cases h with
  | create h => simp only [Room.effect, h]
  | direct h => simp only [Room.effect, h]

/-- Where the row of a room comes from. -/
inductive Origin (db : Db) (req : Request) (r : RoomId) (row' : RoomRow) : Prop where
  | opened {communityId : Option CommunityId} {u : UserId} {input : CreateRoom} {room : Room}
      (h : Opens db r req communityId u input room)
      (hrow : row' = recountRow db.now ((effect db req).participantCount r) (newRow db.now room))
  | channel (id : CommunityId) (owner : UserId) (t : RoomTemplate) (hnew : db.room r = none)
      (hrow : row' = templateRow db.now id owner r t) (hreq : ∃ roles rooms, req = .createCommunity id owner roles rooms)
  | updated {row : RoomRow} {u : UserId} {input input' : UpdateRoom} (hold : db.room r = some row)
      (hreq : req = .update r u input) (h : acceptedUpdate db r u input = some input')
      (hrow : row' = updateRow db.now input' row)
  | expired {row : RoomRow} (hold : db.room r = some row) (hreq : req = .expire) (h : elapsed db.now row = true)
      (hrow : row' = endRoom db.now row)
  | reaped {row : RoomRow} {grace : Duration} (hold : db.room r = some row) (hreq : req = .reap grace)
      (h : abandoned db.now grace row = true) (hrow : row' = endRoom db.now row)
  | closed {row : RoomRow} (hold : db.room r = some row) (hreq : req = .terminate r)
      (hrow : row' = { row with status := .ended, endedAt := some db.now })
  | counted {row : RoomRow} (hold : db.room r = some row) (u : UserId) (hreq : req = .join r u ∨ req = .leave r u)
      (hrow : row' = recountRow db.now ((effect db req).participantCount r) row)
  | kept (hold : db.room r = some row')

/-- How somebody comes to participate in a room. -/
inductive Entry (db : Db) (req : Request) (r : RoomId) (v : UserId) : Prop where
  | opened {communityId : Option CommunityId} {u : UserId} {input : CreateRoom} {room : Room}
      (h : Opens db r req communityId u input room) (hv : v ∈ guests db u input)
  | joined (hreq : req = .join r v) (hvis : (visibleAccess db r v).isOk = true) (hseat : seatable db r v = true)
  | stayed (hold : db.participates r v = true)

theorem origin_opened {db : Db} {r : RoomId} {req : Request} {communityId : Option CommunityId} {u : UserId}
    {input : CreateRoom} {room : Room} {id : RoomId} (ho : Opens db id req communityId u input room) {row' : RoomRow}
    (h : (effect db req).room r = some row') : Origin db req r row' := by
  have heff := ho.effect_eq
  by_cases hr : id = r
  · subst hr
    refine .opened ho ?_
    have := (room_opened ho.spec).1
    rw [← heff, h] at this
    exact Option.some.inj this
  · refine .kept ?_
    rw [← room_opened_of_ne ho.spec hr, ← heff]
    exact h

theorem row_effect {db : Db} {req : Request} {r : RoomId} {row' : RoomRow} (h : (effect db req).room r = some row') :
    Origin db req r row' := by
  cases req with
  | register | govern | get | mediaJoin | post | history => exact .kept h
  | unblock => exact .kept h
  | clock => exact .kept h
  | createCommunity id owner roles rooms =>
    rcases (createCommunity_channels id owner roles rooms db).rooms r with hold | ⟨hnew, t, hrow⟩
    · exact .kept (hold ▸ h)
    · exact .channel id owner t hnew (Option.some.inj (h.symm.trans hrow)) ⟨roles, rooms, rfl⟩
  | deleteCommunity id u =>
    simp only [effect] at h
    split at h
    · rw [room_deleteCommunityRow, Option.filter_eq_some_iff] at h
      exact .kept h.1
    · exact .kept h
  | block a b =>
    simp only [effect] at h
    split at h <;> exact .kept h
  | create id communityId u input =>
    rcases hc : created db id communityId u input with _ | room
    · simp only [effect, hc] at h
      exact .kept h
    · exact origin_opened (.create hc) h
  | openDirect id a b name handle =>
    rcases hc : openedDirect db id a b name handle with _ | room
    · simp only [effect, hc] at h
      exact .kept h
    · exact origin_opened (.direct hc) h
  | join r₀ u =>
    by_cases hv : (visibleAccess db r₀ u).isOk
    · have heff : effect db (.join r₀ u) = seated r₀ u (joinRole db r₀ u) db := by simp only [effect, hv, if_true]
      rw [heff, room_seated] at h
      split at h
      · rename_i hs
        obtain ⟨-, rfl⟩ := hs
        obtain ⟨row, hold, rfl⟩ := Option.map_eq_some_iff.1 h
        exact .counted hold u (.inl rfl) (by rw [heff])
      · exact .kept h
    · simp only [effect, hv] at h
      exact .kept h
  | leave r₀ u =>
    have h' : (unseated r₀ u db).room r = some row' := h
    rw [room_unseated] at h'
    split at h'
    · rename_i hr
      subst hr
      obtain ⟨row, hold, rfl⟩ := Option.map_eq_some_iff.1 h'
      exact .counted hold u (.inr rfl) rfl
    · exact .kept h'
  | setPersona r₀ u isAnonymous =>
    simp only [effect] at h
    split at h <;> exact .kept h
  | update r₀ u input =>
    rcases ha : acceptedUpdate db r₀ u input with _ | input'
    · simp only [effect, ha] at h
      exact .kept h
    · simp only [effect, ha, room_withUpdate] at h
      split at h
      · rename_i hr
        subst hr
        obtain ⟨row, hold, rfl⟩ := Option.map_eq_some_iff.1 h
        exact .updated hold rfl ha rfl
      · exact .kept h
  | delete r₀ u =>
    simp only [effect] at h
    split at h
    · rw [room_deleteRoomRow] at h
      split at h
      · cases h
      · exact .kept h
    · exact .kept h
  | expire =>
    have h' : (expired db).room r = some row' := h
    rw [room_expired] at h'
    obtain ⟨row, hold, hrow⟩ := Option.map_eq_some_iff.1 h'
    split at hrow
    · exact .expired hold rfl ‹_› hrow.symm
    · exact .kept (hrow ▸ hold)
  | reap grace =>
    have h' : (endRooms (abandoned db.now grace) db).room r = some row' := h
    rw [room_endRooms] at h'
    obtain ⟨row, hold, hrow⟩ := Option.map_eq_some_iff.1 h'
    split at hrow
    · exact .reaped hold rfl ‹_› hrow.symm
    · exact .kept (hrow ▸ hold)
  | terminate r₀ =>
    simp only [effect] at h
    split at h
    · have h' : (closeRoom r₀ db).room r = some row' := h
      rw [room_closeRoom] at h'
      split at h'
      · rename_i hr
        subst hr
        obtain ⟨row, hold, rfl⟩ := Option.map_eq_some_iff.1 h'
        exact .closed hold rfl rfl
      · exact .kept h'
    · exact .kept h

theorem entry_opened {db : Db} {r : RoomId} {v : UserId} {req : Request} {communityId : Option CommunityId} {u : UserId}
    {input : CreateRoom} {room : Room} {id : RoomId} (ho : Opens db id req communityId u input room)
    (h : (effect db req).participates r v = true) : Entry db req r v := by
  rw [ho.effect_eq, participates_opened ho.spec] at h
  rcases h with h | ⟨rfl, h⟩
  · exact .stayed h
  · exact .opened ho h

theorem entry_effect {db : Db} {req : Request} {r : RoomId} {v : UserId}
    (h : (effect db req).participates r v = true) : Entry db req r v := by
  cases req with
  | register | govern | get | mediaJoin | post | history => exact .stayed h
  | unblock => exact .stayed h
  | clock => exact .stayed h
  | createCommunity id owner roles rooms =>
    have hp := congrArg (fun t : Table RoomParticipant => t.contains (r, v))
      (createCommunity_channels id owner roles rooms db).roomParticipants
    exact .stayed (hp.symm.trans h)
  | deleteCommunity id u =>
    simp only [effect] at h
    split at h
    · rw [participates_deleteCommunityRow, Bool.and_eq_true] at h
      exact .stayed h.1
    · exact .stayed h
  | block a b =>
    simp only [effect] at h
    split at h <;> exact .stayed h
  | create id communityId u input =>
    rcases hc : created db id communityId u input with _ | room
    · simp only [effect, hc] at h
      exact .stayed h
    · exact entry_opened (.create hc) h
  | openDirect id a b name handle =>
    rcases hc : openedDirect db id a b name handle with _ | room
    · simp only [effect, hc] at h
      exact .stayed h
    · exact entry_opened (.direct hc) h
  | join r₀ u =>
    by_cases hv : (visibleAccess db r₀ u).isOk
    · simp only [effect, hv, if_true, participates_seated, Bool.or_eq_true, decide_eq_true_eq] at h
      rcases h with h | ⟨hs, rfl, rfl⟩
      · exact .stayed h
      · exact .joined rfl hv hs
    · simp only [effect, hv] at h
      exact .stayed h
  | leave r₀ u =>
    have h' : (unseated r₀ u db).participates r v = true := h
    rw [participates_unseated, Bool.and_eq_true] at h'
    exact .stayed h'.1
  | setPersona r₀ u isAnonymous =>
    simp only [effect] at h
    split at h
    · exact .stayed (by rwa [participates_withPersona] at h)
    · exact .stayed h
  | update r₀ u input =>
    simp only [effect] at h
    split at h <;> exact .stayed h
  | delete r₀ u =>
    simp only [effect] at h
    split at h
    · rw [participates_deleteWhere db (deleteRoomRow r₀ db) (fun r' => r' = r₀) rfl r v, Bool.and_eq_true] at h
      exact .stayed h.1
    · exact .stayed h
  | expire =>
    have h' : (expired db).participates r v = true := h
    rw [participates_expired, Bool.and_eq_true] at h'
    exact .stayed h'.1
  | reap grace => exact .stayed h
  | terminate r₀ =>
    simp only [effect] at h
    split at h
    · rw [participates_deleteWhere (closeRoom r₀ db) (removeParticipants r₀ (closeRoom r₀ db)) (fun r' => r' = r₀) rfl r v,
        Bool.and_eq_true] at h
      exact .stayed h.1
    · exact .stayed h

end Genzh.Room
