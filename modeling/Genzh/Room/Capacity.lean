/-
The participant cap. A creation checks the range of the cap it is given and drops it for a kind without
media; nothing else checks anything: an update writes any positive cap, a join asks for no place, and a
creation seats whoever it names. The runs that stay within the caps are those whose steps happen to.
-/
import Genzh.Room.Inversion

namespace Genzh.Room

open Genzh.Lib Genzh.Domain Genzh.Infrastructure Genzh.Community Genzh.Social Genzh.Admin

/-- A stored cap is in range, and there is none for a kind without media. -/
def CapInRange (row : RoomRow) : Prop :=
  ∀ m, row.maxParticipants = some m → row.roomType.isMedia = true ∧ 1 ≤ m ∧ m ≤ mediaRoomMaxParticipants

/-- Every cap is in range and every room holds at most as many participants as its limit. -/
def WithinCapacity (db : Db) : Prop :=
  ∀ r row, db.room r = some row → CapInRange row ∧ (db.participantCount r : Int) ≤ row.participantLimit

/-- The limit of the room a creation makes. -/
def inputLimit (input : CreateRoom) : Int :=
  (if input.roomType.isMedia then input.maxParticipants else none).getD mediaRoomMaxParticipants

/-- What a request must not do for the law to hold: be accepted as a creation that seats more than the new
room's limit, as a join of somebody new into a full room, or as an update that sets a cap on a room without
media, above the ceiling, or below the number of those who are in it. -/
def KeepsCapacity (db : Db) : Request → Prop
  | .create id communityId u input =>
    (created db id communityId u input).isSome = true → ((guests db u input).length : Int) ≤ inputLimit input
  | .join r u =>
    (visibleAccess db r u).isOk = true → seatable db r u = true → db.participates r u = false →
      ∀ row, db.room r = some row → (db.participantCount r : Int) < row.participantLimit
  | .update r u input =>
    (acceptedUpdate db r u input).isSome = true → ∀ row m, db.room r = some row → input.maxParticipants = some m →
      row.roomType.isMedia = true ∧ m ≤ mediaRoomMaxParticipants ∧ (db.participantCount r : Int) ≤ m
  | _ => True

/-! ## Counting -/

/-- A room that nobody new is in has at most as many participants. -/
theorem participantCount_le {db db' : Db} {r : RoomId}
    (h : ∀ v, db'.participates r v = true → db.participates r v = true) :
    db'.participantCount r ≤ db.participantCount r := by
  rw [Db.participantCount_eq_length, Db.participantCount_eq_length]
  refine (List.subperm_of_subset (Db.nodup_participants _ _) fun v hv => ?_).length_le
  exact Db.mem_participants.2 (h v (Db.mem_participants.1 hv))

/-- A join of somebody new into a room they see. -/
def joinsAnew (db : Db) (r : RoomId) (req : Request) : Prop :=
  ∃ u, req = .join r u ∧ (visibleAccess db r u).isOk = true ∧ seatable db r u = true ∧ db.participates r u = false

/-- A room that exists gains a participant by a join only. -/
theorem participantCount_effect_le {db : Db} {req : Request} {r : RoomId} {row : RoomRow} (hold : db.room r = some row)
    (hj : ¬ joinsAnew db r req) : (effect db req).participantCount r ≤ db.participantCount r := by
  refine participantCount_le fun v hv => ?_
  cases entry_effect hv with
  | opened ho =>
    have hnone : db.room r = none := Table.contains_eq_false.1 ho.spec.fresh
    rw [hnone] at hold
    cases hold
  | joined hreq hvis hseat =>
    by_contra hp
    exact hj ⟨v, hreq, hvis, hseat, Bool.eq_false_iff.2 hp⟩
  | stayed hp => exact hp

theorem participantCount_joinsAnew {db : Db} {r : RoomId} {u : UserId} (hvis : (visibleAccess db r u).isOk = true)
    (hseat : seatable db r u = true) (hp : db.participates r u = false) :
    (effect db (.join r u)).participantCount r = db.participantCount r + 1 := by
  simp only [effect, hvis, if_true]
  rw [participantCount_seated, if_pos ⟨hseat, hp, rfl⟩]

/-- Opening a conversation seats two people at most. -/
theorem guests_direct_le (db : Db) (a b : UserId) (name handle : String) :
    (guests db a (directInput b name handle)).length ≤ 2 := by
  have hinv : (invited a (directInput b name handle)).length ≤ 1 := List.length_filter_le _ _
  have hfil : ((invited a (directInput b name handle)).filter db.userExists).length ≤
      (invited a (directInput b name handle)).length := List.length_filter_le _ _
  calc (guests db a (directInput b name handle)).length
      ≤ (a :: (invited a (directInput b name handle)).filter db.userExists).length := List.dedup_sublist _ |>.length_le
    _ ≤ 2 := by
      rw [List.length_cons]
      omega

/-! ## One step -/

/-- The cap of a new room is in range, and its limit is that of the input. -/
theorem Created.capacity {db : Db} {id : RoomId} {communityId : Option CommunityId} {u : UserId} {input : CreateRoom}
    {room : Room} (hc : Created db id communityId u input room) (total : Nat) :
    CapInRange (recountRow db.now total (newRow db.now room)) ∧
      (recountRow db.now total (newRow db.now room)).participantLimit = inputLimit input := by
  constructor
  · intro m hm
    have hm' : room.maxParticipants = some m := hm
    rw [hc.cap] at hm'
    split at hm'
    · rename_i hmedia
      have hrange := hc.cap_range m hm'
      refine ⟨?_, hrange.1, hrange.2⟩
      change room.roomType.isMedia = true
      rw [hc.roomType, hmedia]
    · cases hm'
  · change room.maxParticipants.getD mediaRoomMaxParticipants = _
    rw [hc.cap]
    rfl

theorem inputLimit_direct (b : UserId) (name handle : String) :
    inputLimit (directInput b name handle) = mediaRoomMaxParticipants := rfl

theorem keepsCapacity_within {db : Db} {req : Request} (hf : NoStray db) (hi : WithinCapacity db)
    (hk : KeepsCapacity db req) : WithinCapacity (effect db req) := by
  intro r row' h
  by_cases hj : joinsAnew db r req
  · -- the one step by which a room that is there gains a participant
    obtain ⟨u, rfl, hvis, hseat, hp⟩ := hj
    rw [participantCount_joinsAnew hvis hseat hp]
    simp only [effect, hvis, if_true] at h
    rw [room_seated, if_pos ⟨hseat, rfl⟩] at h
    obtain ⟨row, hold, rfl⟩ := Option.map_eq_some_iff.1 h
    have hlt := hk hvis hseat hp row hold
    refine ⟨(hi r row hold).1, ?_⟩
    change ((db.participantCount r + 1 : Nat) : Int) ≤ row.participantLimit
    omega
  · -- a row that is there already: what keeps the cap and the kind keeps within them
    have hkept : ∀ {row : RoomRow}, db.room r = some row → row'.maxParticipants = row.maxParticipants →
        row'.roomType = row.roomType →
        CapInRange row' ∧ ((effect db req).participantCount r : Int) ≤ row'.participantLimit := by
      intro row hold hcap htype
      obtain ⟨hrange, hle⟩ := hi r row hold
      have hcount := participantCount_effect_le hold hj
      constructor
      · unfold CapInRange
        rw [hcap, htype]
        exact hrange
      · unfold Room.participantLimit at hle ⊢
        rw [hcap]
        omega
    cases row_effect h with
    | opened ho hrow =>
      subst hrow
      obtain ⟨hrange, hlimit⟩ := ho.spec.capacity ((effect db req).participantCount r)
      refine ⟨hrange, ?_⟩
      rw [hlimit, ho.effect_eq, participantCount_opened ho.spec hf, if_pos rfl]
      cases ho with
      | create hc => exact hk (by rw [hc]; rfl)
      | @direct a b name handle room hc =>
        rw [inputLimit_direct]
        exact (Int.ofNat_le.2 (guests_direct_le db _ b name handle)).trans (by decide)
    | channel id owner t hnew hrow hreq =>
      subst hrow
      obtain ⟨roles, rooms, rfl⟩ := hreq
      refine ⟨fun m hm => (by cases hm), ?_⟩
      have hzero : (effect db (.createCommunity id owner roles rooms)).participantCount r = 0 := by
        rw [← Nat.le_zero, ← not_lt, Db.participantCount_pos]
        rintro ⟨v, hv⟩
        cases entry_effect hv with
        | opened ho => cases ho
        | joined hreq => cases hreq
        | stayed hp =>
          obtain ⟨row, hrow⟩ := hf r v hp
          rw [hnew] at hrow
          cases hrow
      rw [hzero]
      change (0 : Int) ≤ mediaRoomMaxParticipants
      decide
    | updated hold hreq ha hrow =>
      rename_i row u input input'
      subst hreq hrow
      obtain ⟨name, row₀, rfl, hold', hpos⟩ := acceptedUpdate_some ha
      obtain rfl := Option.some.inj (hold.symm.trans hold')
      rcases Option.eq_none_or_eq_some input.maxParticipants with hcap | ⟨m, hcap⟩
      · refine hkept hold ?_ rfl
        change input.maxParticipants.or row.maxParticipants = _
        rw [hcap, Option.none_or]
      · obtain ⟨hmedia, hmax, hle⟩ := hk (by rw [ha]; rfl) row m hold hcap
        have hnew : (updateRow db.now { input with name } row).maxParticipants = some m := by
          change input.maxParticipants.or row.maxParticipants = _
          rw [hcap, Option.some_or]
        have hcount := participantCount_effect_le hold hj
        constructor
        · intro m' hm'
          rw [hnew] at hm'
          cases hm'
          exact ⟨hmedia, hpos m (by rw [hcap, Option.some_or]), hmax⟩
        · unfold Room.participantLimit
          rw [hnew, Option.getD_some]
          omega
    | expired hold _ _ hrow =>
      subst hrow
      exact hkept hold rfl rfl
    | reaped hold _ _ hrow =>
      subst hrow
      exact hkept hold rfl rfl
    | closed hold _ hrow =>
      subst hrow
      exact hkept hold rfl rfl
    | counted hold _ _ hrow =>
      subst hrow
      exact hkept hold rfl rfl
    | kept hold => exact hkept hold rfl rfl

theorem within_keepsCapacity {db : Db} {req : Request} (hf : NoStray db) (hi' : WithinCapacity (effect db req)) :
    KeepsCapacity db req := by
  cases req with
  | create id communityId u input =>
    intro hsome
    obtain ⟨room, hc⟩ := Option.isSome_iff_exists.1 hsome
    have ho : Opens db id (.create id communityId u input) communityId u input room := .create hc
    have hrow := (room_opened ho.spec).1
    rw [← ho.effect_eq] at hrow
    have hle := (hi' id _ hrow).2
    rw [(ho.spec.capacity _).2, ho.effect_eq, participantCount_opened ho.spec hf, if_pos rfl] at hle
    exact hle
  | join r u =>
    intro hvis hseat hp row hold
    have heff : effect db (.join r u) = seated r u (joinRole db r u) db := by simp only [effect, hvis, if_true]
    have hrow : (effect db (.join r u)).room r =
        some (recountRow db.now ((seated r u (joinRole db r u) db).participantCount r) row) := by
      rw [heff, room_seated, if_pos ⟨hseat, rfl⟩, hold, Option.map_some]
    have hle := (hi' r _ hrow).2
    rw [participantCount_joinsAnew hvis hseat hp] at hle
    change ((db.participantCount r + 1 : Nat) : Int) ≤ row.participantLimit at hle
    omega
  | update r u input =>
    intro hsome row m hold hcap
    obtain ⟨input', ha⟩ := Option.isSome_iff_exists.1 hsome
    obtain ⟨name, _, rfl, _⟩ := acceptedUpdate_some ha
    have heff : effect db (.update r u input) = withUpdate r { input with name } db := by simp only [effect, ha]
    have hrow : (effect db (.update r u input)).room r = some (updateRow db.now { input with name } row) := by
      rw [heff, room_withUpdate, if_pos rfl, hold, Option.map_some]
    obtain ⟨hrange, hle⟩ := hi' r _ hrow
    have hnew : (updateRow db.now { input with name } row).maxParticipants = some m := by
      change input.maxParticipants.or row.maxParticipants = _
      rw [hcap, Option.some_or]
    obtain ⟨hmedia, -, hmax⟩ := hrange m hnew
    unfold Room.participantLimit at hle
    rw [hnew, Option.getD_some, heff] at hle
    exact ⟨hmedia, hmax, hle⟩
  | _ => trivial

theorem withinCapacity_step (db : Db) (req : Request) : WithinCapacity (step db req) ↔ WithinCapacity (effect db req) := by
  unfold WithinCapacity
  simp only [room_step, participantCount_step]

theorem withinCapacity_empty (now : Timestamp) : WithinCapacity (Db.empty now) := by
  intro r row h
  cases h

/-! ## Runs -/

/-- Over every run: every cap stays in range and every room within its limit exactly when no step sets a cap out
of range or lets more in than the limit. -/
theorem within_capacity_iff (now : Timestamp) (reqs : List Request) :
    Always step WithinCapacity (Db.empty now) reqs ↔ Along step KeepsCapacity (Db.empty now) reqs := by
  refine always_iff_along noStray_step (fun db req hf hi => ?_) (noStray_empty now) (withinCapacity_empty now)
  rw [withinCapacity_step]
  exact ⟨within_keepsCapacity hf, keepsCapacity_within hf hi⟩

/-- A voice room for one, and a second person who joins it. -/
def fullRoomJoined : List Request :=
  [.register (account ⟨1⟩ "ana"), .register (account ⟨2⟩ "ben"),
    .create ⟨10⟩ none ⟨1⟩ { name := "booth", roomType := .voice, maxParticipants := some 1 }, .join ⟨10⟩ ⟨2⟩]

/-- Two people are in the room for one, and the second is given a media token as well. -/
theorem two_in_room_for_one :
    ¬ Always step WithinCapacity (Db.empty 0) fullRoomJoined ∧
      ((run step (Db.empty 0) fullRoomJoined).room ⟨10⟩).map (fun row => row.participantLimit) = some 1 ∧
      (run step (Db.empty 0) fullRoomJoined).participantCount ⟨10⟩ = 2 ∧
      succeeds (run step (Db.empty 0) fullRoomJoined) (.mediaJoin ⟨"key", "wss://media", 600⟩ ⟨10⟩ ⟨2⟩ "Ben") = true := by
  have hrow : ((run step (Db.empty 0) fullRoomJoined).room ⟨10⟩).map (fun row => row.participantLimit) = some 1 := by
    decide +kernel
  have hcount : (run step (Db.empty 0) fullRoomJoined).participantCount ⟨10⟩ = 2 := by decide +kernel
  refine ⟨fun h => ?_, hrow, hcount, by decide +kernel⟩
  obtain ⟨row, hr, hlimit⟩ := Option.map_eq_some_iff.1 hrow
  have := (h.last ⟨10⟩ row hr).2
  rw [hcount, hlimit] at this
  exact absurd this (by decide)

end Genzh.Room
