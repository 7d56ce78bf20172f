/-
What the rooms, the participants and their counts are after each effect: one equation for each reading.
The readings are the row of a room, whether a user participates in it, and how many participants it has.
-/
import Genzh.Room.Step

namespace Genzh.Room

open Genzh.Lib Genzh.Domain Genzh.Infrastructure Genzh.Community Genzh.Social Genzh.Admin

/-! ## A place given or given up -/

section Seat

variable (db : Db) (r r' : RoomId) (u u' : UserId) (role : RoomParticipantRole)

@[simp] theorem now_seated : (seated r u role db).now = db.now := by
  unfold seated; split <;> rfl

@[simp] theorem blocks_seated : (seated r u role db).blocks = db.blocks := by
  unfold seated; split <;> rfl

@[simp] theorem users_seated : (seated r u role db).users = db.users := by
  unfold seated; split <;> rfl

theorem participates_seated :
    (seated r u role db).participates r' u' = (db.participates r' u' || decide (seatable db r u = true ∧ r = r' ∧ u = u')) := by
  unfold seated
  by_cases h : seatable db r u
  · rw [if_pos h, participates_recount, participates_insertParticipant]
    simp [h]
  · rw [if_neg h]
    simp [h]

theorem participantCount_seated :
    (seated r u role db).participantCount r' =
      db.participantCount r' + if seatable db r u = true ∧ db.participates r u = false ∧ r = r' then 1 else 0 := by
  unfold seated
  by_cases h : seatable db r u
  · rw [if_pos h, participantCount_recount, participantCount_insertParticipant]
    simp [h]
  · rw [if_neg h]
    simp [h]

theorem room_seated :
    (seated r u role db).room r' =
      if seatable db r u = true ∧ r = r' then
        (db.room r').map (recountRow db.now ((seated r u role db).participantCount r))
      else db.room r' := by
  unfold seated
  by_cases h : seatable db r u
  · rw [if_pos h, room_recount]
    by_cases hr : r = r'
    · rw [if_pos hr, if_pos ⟨h, hr⟩]
      rfl
    · rw [if_neg hr, if_neg fun h' => hr h'.2]
      rfl
  · rw [if_neg h, if_neg fun h' => h h'.1]

theorem participates_unseated :
    (unseated r u db).participates r' u' = (db.participates r' u' && decide (¬ (r = r' ∧ u = u'))) :=
  participates_deleteParticipant db r r' u u'

theorem room_unseated :
    (unseated r u db).room r' =
      if r = r' then (db.room r').map (recountRow db.now ((unseated r u db).participantCount r)) else db.room r' :=
  room_recount (deleteParticipant r u db) r r'

end Seat

/-- Counting twice in a row is counting once. -/
theorem recountRow_recountRow (now : Timestamp) {m n : Nat} (hm : 0 < m) (hn : 0 < n) (row : RoomRow) :
    recountRow now n (recountRow now m row) = recountRow now n row := by
  simp [recountRow, hm, hn]

/-- A user who already has a place is counted, and so is one who is given it. -/
theorem participantCount_seated_pos {db : Db} {r : RoomId} {u : UserId} (h : seatable db r u = true) (role : RoomParticipantRole) :
    0 < (seated r u role db).participantCount r := by
  rw [Db.participantCount_pos]
  exact ⟨u, by rw [participates_seated]; simp [h]⟩

/-! ## A list of users seated -/

section SeatAll

variable {db : Db} {r : RoomId}

@[simp] theorem seatAll_nil : seatAll r [] db = db := rfl

@[simp] theorem seatAll_cons (u : UserId) (us : List UserId) :
    seatAll r (u :: us) db = seatAll r us (seated r u .participant db) := rfl

theorem roomExists_seated (r' : RoomId) (u : UserId) (role : RoomParticipantRole) :
    (seated r u role db).roomExists r' = db.roomExists r' := by
  have h : (seated r u role db).rooms.contains r' = ((seated r u role db).room r').isSome := rfl
  unfold Db.roomExists
  rw [h, room_seated]
  split
  · rw [Option.isSome_map]
    rfl
  · rfl

theorem userExists_seated (u v : UserId) (role : RoomParticipantRole) :
    (seated r u role db).userExists v = db.userExists v := by
  unfold Db.userExists
  rw [users_seated]

/-- In an existing room a list of users is seated as far as their accounts exist. -/
theorem participates_seatAll (us : List UserId) (hr : db.roomExists r = true) (r' : RoomId) (v : UserId) :
    (seatAll r us db).participates r' v =
      (db.participates r' v || decide (r = r' ∧ v ∈ us ∧ db.userExists v = true)) := by
  induction us generalizing db with
  | nil => simp
  | cons u us ih =>
    rw [seatAll_cons, ih (by rw [roomExists_seated, hr]), participates_seated, userExists_seated]
    rw [Bool.eq_iff_iff]
    simp only [seatable, hr, Bool.true_and, Bool.or_eq_true, decide_eq_true_eq, List.mem_cons]
    constructor
    · rintro ((h | ⟨h | h, rfl, rfl⟩) | ⟨rfl, h, he⟩)
      · exact .inl h
      · exact .inl h
      · exact .inr ⟨rfl, .inl rfl, h⟩
      · exact .inr ⟨rfl, .inr h, he⟩
    · rintro (h | ⟨rfl, rfl | h, he⟩)
      · exact .inl (.inl h)
      · exact .inl (.inr ⟨.inr he, rfl, rfl⟩)
      · exact .inr ⟨rfl, h, he⟩

theorem room_seatAll_of_ne (us : List UserId) {r' : RoomId} (h : r ≠ r') : (seatAll r us db).room r' = db.room r' := by
  induction us generalizing db with
  | nil => rfl
  | cons u us ih => rw [seatAll_cons, ih, room_seated, if_neg fun h' => h h'.2]

/-- The row of the room once a list of users is seated, when it was in line before. -/
theorem room_seatAll (us : List UserId) {row : RoomRow} (hpos : 0 < db.participantCount r)
    (h : db.room r = some (recountRow db.now (db.participantCount r) row)) :
    (seatAll r us db).room r = some (recountRow db.now ((seatAll r us db).participantCount r) row) ∧
      0 < (seatAll r us db).participantCount r := by
  induction us generalizing db with
  | nil => exact ⟨h, hpos⟩
  | cons u us ih =>
    rw [seatAll_cons]
    have hpos' : 0 < (seated r u .participant db).participantCount r := by
      rw [participantCount_seated]
      omega
    have h' : (seated r u .participant db).room r =
        some (recountRow (seated r u .participant db).now ((seated r u .participant db).participantCount r) row) := by
      rw [room_seated, now_seated]
      by_cases hs : seatable db r u
      · rw [if_pos ⟨hs, rfl⟩, h, Option.map_some, recountRow_recountRow _ hpos hpos']
      · rw [if_neg fun h' => hs h'.1, h]
        have : (seated r u .participant db).participantCount r = db.participantCount r := by
          rw [participantCount_seated]
          simp [hs]
        rw [this]
    have := ih hpos' h'
    rwa [now_seated] at this

end SeatAll

/-! ## A new room -/

theorem isConversation_iff {row : RoomRow} :
    isConversation row = true ↔ row.category = directCategory ∧ row.communityId = none := by
  unfold isConversation
  rw [Bool.and_eq_true, decide_eq_true_eq, Option.isNone_iff_eq_none]

theorem category_dm {category : Option String} : category.getD "random" = directCategory ↔ category = some directCategory := by
  cases category with
  | none => exact ⟨fun h => absurd h (by decide), fun h => by cases h⟩
  | some c => simp

/-- What is true of a room a creation inserts. -/
structure Created (db : Db) (id : RoomId) (communityId : Option CommunityId) (u : UserId) (input : CreateRoom)
    (room : Room) : Prop where
  fresh : db.roomExists id = false
  owner : db.userExists u = true
  id_eq : room.id = id
  community : room.communityId = communityId
  category : room.category = input.category.getD "random"
  roomType : room.roomType = input.roomType
  status : room.status = .active
  cap : room.maxParticipants = if input.roomType.isMedia then input.maxParticipants else none
  cap_range : ∀ m, input.maxParticipants = some m → 0 < m ∧ m ≤ mediaRoomMaxParticipants
  expiry : roomExpiry db.now (roomDuration communityId room.category input.durationMinutes) = .ok room.expiresAt

theorem newRoom_ok {db : Db} {id : RoomId} {communityId : Option CommunityId} {u : UserId} {input : CreateRoom}
    {room : Room} (h : newRoom db id communityId u input = .ok room) :
    ∃ name, liftDomain (validateCap input.maxParticipants) = .ok () ∧
      ∃ expiresAt, roomExpiry db.now (roomDuration communityId (input.category.getD "random") input.durationMinutes) =
          .ok expiresAt ∧
        room = { id, communityId, ownerId := some u, name, topic := input.topic, category := input.category.getD "random",
                 roomType := input.roomType, visibility := input.visibility.getD .public, status := .active,
                 isAnonymous := input.isAnonymous, position := input.position.getD 0,
                 maxParticipants := if input.roomType.isMedia then input.maxParticipants else none,
                 currentParticipants := 1, startedAt := some db.now, expiresAt, endedAt := none,
                 createdAt := db.now, updatedAt := db.now } := by
  unfold newRoom at h
  obtain ⟨_, -, h⟩ := Prog.bind_eq_ok h
  obtain ⟨name, -, h⟩ := Prog.bind_eq_ok h
  obtain ⟨_, hcap, h⟩ := Prog.bind_eq_ok h
  obtain ⟨expiresAt, hexp, h⟩ := Prog.bind_eq_ok h
  cases h
  exact ⟨name, hcap, expiresAt, hexp, rfl⟩

theorem created_some {db : Db} {id : RoomId} {communityId : Option CommunityId} {u : UserId} {input : CreateRoom}
    {room : Room} (h : created db id communityId u input = some room) : Created db id communityId u input room := by
  unfold created at h
  split at h
  · rename_i room' hn
    split at h
    · rename_i hi
      cases h
      obtain ⟨name, hcap, expiresAt, hexp, rfl⟩ := newRoom_ok hn
      simp only [insertable, Bool.and_eq_true, Bool.not_eq_true'] at hi
      refine ⟨hi.1.2, by simpa using hi.2.2, rfl, rfl, rfl, rfl, rfl, rfl, ?_, hexp⟩
      intro m hm
      rw [hm] at hcap
      unfold validateCap at hcap
      split at hcap
      · cases hcap
      · rename_i hc
        simp only [Option.any_some, Bool.or_eq_true, decide_eq_true_eq, not_or, not_le, not_lt] at hc
        exact hc
    · cases h
  · cases h

/-- Those a creation gives a place: the creator, and the invited as far as their accounts exist. -/
def guests (db : Db) (u : UserId) (input : CreateRoom) : List UserId :=
  (u :: (invited u input).filter db.userExists).dedup

/-- No participant row without its room. -/
def NoStray (db : Db) : Prop := ∀ r u, db.participates r u = true → ∃ row, db.room r = some row

section Opened

variable {db : Db} {id : RoomId} {communityId : Option CommunityId} {u : UserId} {input : CreateRoom} {room : Room}

theorem room_withRoom (h : db.roomExists room.id = false) (r : RoomId) :
    (withRoom room db).room r = if room.id = r then some (newRow db.now room) else db.room r := by
  have hf : db.rooms.find room.id = none := Table.contains_eq_false.1 h
  change (db.rooms.insert (newRow db.now room)).find r = _
  rw [Table.find_insert]
  change (db.rooms.find r).or (if room.id = r then _ else _) = _
  by_cases hr : room.id = r
  · subst hr
    simp [hf]
  · simp [hr, Db.room]

theorem room_opened_of_ne (hc : Created db id communityId u input room) {r : RoomId} (h : id ≠ r) :
    (opened u input room db).room r = db.room r := by
  have hid : room.id ≠ r := by rw [hc.id_eq]; exact h
  unfold opened
  rw [room_seatAll_of_ne _ hid, room_seated, if_neg fun h' => hid h'.2,
    room_withRoom (by rw [hc.id_eq]; exact hc.fresh), if_neg hid]

theorem roomExists_withRoom : (withRoom room db).roomExists room.id = true := by
  unfold Db.roomExists withRoom
  simp only
  rw [Table.contains_insert]
  simp [key, newRow]

theorem participates_opened (hc : Created db id communityId u input room) (r : RoomId) (v : UserId) :
    (opened u input room db).participates r v = true ↔ db.participates r v = true ∨ (r = id ∧ v ∈ guests db u input) := by
  have hs : seatable (withRoom room db) room.id u = true := by
    unfold seatable
    rw [roomExists_withRoom]
    simp [show (withRoom room db).userExists u = true from hc.owner]
  unfold opened guests
  rw [participates_seatAll _ (by rw [roomExists_seated, roomExists_withRoom]), participates_seated, userExists_seated,
    show (withRoom room db).participates r v = db.participates r v from rfl,
    show (withRoom room db).userExists v = db.userExists v from rfl]
  simp only [hs, Bool.or_eq_true, decide_eq_true_eq, true_and, List.mem_dedup, List.mem_cons, List.mem_filter]
  rw [hc.id_eq]
  constructor
  · rintro ((h | ⟨rfl, rfl⟩) | ⟨rfl, h, he⟩)
    · exact .inl h
    · exact .inr ⟨rfl, .inl rfl⟩
    · exact .inr ⟨rfl, .inr ⟨h, he⟩⟩
  · rintro (h | ⟨rfl, rfl | ⟨h, he⟩⟩)
    · exact .inl (.inl h)
    · exact .inl (.inr ⟨rfl, rfl⟩)
    · exact .inr ⟨rfl, h, he⟩

theorem room_opened (hc : Created db id communityId u input room) :
    (opened u input room db).room id =
        some (recountRow db.now ((opened u input room db).participantCount id) (newRow db.now room)) ∧
      0 < (opened u input room db).participantCount id := by
  have hs : seatable (withRoom room db) room.id u = true := by
    unfold seatable
    rw [roomExists_withRoom]
    simp [show (withRoom room db).userExists u = true from hc.owner]
  have hrow : (withRoom room db).room room.id = some (newRow db.now room) := by
    rw [room_withRoom (by rw [hc.id_eq]; exact hc.fresh), if_pos rfl]
  have hpos := participantCount_seated_pos hs .owner
  have hline : (seated room.id u .owner (withRoom room db)).room room.id =
      some (recountRow (seated room.id u .owner (withRoom room db)).now
        ((seated room.id u .owner (withRoom room db)).participantCount room.id) (newRow db.now room)) := by
    rw [room_seated, now_seated, if_pos ⟨hs, rfl⟩, hrow]
    rfl
  have h := room_seatAll (invited u input) hpos hline
  rw [hc.id_eq, now_seated] at h
  unfold opened
  rw [hc.id_eq]
  exact h

/-- Nobody is in a room that does not exist, so a new one holds exactly those the creation seats. -/
theorem participantCount_opened (hc : Created db id communityId u input room) (hf : NoStray db) (r : RoomId) :
    (opened u input room db).participantCount r = if r = id then (guests db u input).length else db.participantCount r := by
  rw [Db.participantCount_eq_length]
  by_cases hr : r = id
  · subst hr
    rw [if_pos rfl]
    refine List.Perm.length_eq ((List.perm_ext_iff_of_nodup (Db.nodup_participants _ _) (List.nodup_dedup _)).2 ?_)
    intro v
    rw [Db.mem_participants, participates_opened hc]
    constructor
    · rintro (h | ⟨-, h⟩)
      · obtain ⟨row, hrow⟩ := hf r v h
        have hnone : db.room r = none := Table.contains_eq_false.1 hc.fresh
        rw [hnone] at hrow
        cases hrow
      · exact h
    · exact fun h => .inr ⟨rfl, h⟩
  · rw [if_neg hr, Db.participantCount_eq_length]
    refine List.Perm.length_eq ((List.perm_ext_iff_of_nodup (Db.nodup_participants _ _) (Db.nodup_participants _ _)).2 ?_)
    intro v
    rw [Db.mem_participants, Db.mem_participants, participates_opened hc]
    simp [hr]

end Opened

/-- A conversation that is opened by creating it: its two ends were not blocked from each other. -/
theorem openedDirect_some {db : Db} {id : RoomId} {a b : UserId} {name handle : String} {room : Room}
    (h : openedDirect db id a b name handle = some room) :
    (a = b ∨ blockedEitherWay db a b = false) ∧ created db id none a (directInput b name handle) = some room := by
  unfold openedDirect at h
  split at h
  · rename_i hc
    rw [Bool.and_eq_true] at hc
    refine ⟨?_, h⟩
    rw [← ensureCanReach_ok]
    rcases he : ensureCanReach db a b with e | _
    · rw [he] at hc
      cases hc.1
    · rfl
  · cases h

/-! ## Updates and jobs -/

section Rows

variable (db : Db) (r r' : RoomId) (input : UpdateRoom) (p : RoomRow → Bool)

theorem room_withUpdate :
    (withUpdate r input db).room r' = if r = r' then (db.room r').map (updateRow db.now input) else db.room r' :=
  Table.find_update db.rooms r r' (updateRow db.now input) fun _ => rfl

theorem room_endRooms :
    (endRooms p db).room r' = (db.room r').map fun row => if p row then endRoom db.now row else row :=
  Table.find_updateWhere db.rooms p (endRoom db.now) (fun _ => rfl) r'

theorem room_closeRoom :
    (closeRoom r db).room r' =
      if r = r' then (db.room r').map fun row => { row with status := .ended, endedAt := some db.now }
      else db.room r' :=
  Table.find_update db.rooms r r' (fun row => { row with status := .ended, endedAt := some db.now }) fun _ => rfl

theorem room_deleteRoomRow : (deleteRoomRow r db).room r' = if r = r' then none else db.room r' :=
  Table.find_delete db.rooms r r'

end Rows

theorem acceptedUpdate_some {db : Db} {r : RoomId} {u : UserId} {input input' : UpdateRoom}
    (h : acceptedUpdate db r u input = some input') :
    ∃ name row, input' = { input with name } ∧ db.room r = some row ∧
      ∀ m, input.maxParticipants.or row.maxParticipants = some m → 0 < m := by
  unfold acceptedUpdate at h
  split at h
  · rename_i a name ha _
    split at h
    · rename_i hc
      cases h
      obtain ⟨row, hrow, hroom⟩ := access_room ha
      refine ⟨name, row, rfl, hrow, fun m hm => ?_⟩
      rw [hroom, hm] at hc
      simpa using (Bool.and_eq_true_iff.1 hc).2
    · cases h
  · cases h

/-! ## Participants deleted by room -/

/-- The participants of some rooms are deleted: nobody participates in these, and the others keep theirs. -/
theorem participates_deleteWhere (db db' : Db) (q : RoomId → Bool)
    (h : db'.roomParticipants = db.roomParticipants.deleteWhere fun p => q p.roomId) (r : RoomId) (u : UserId) :
    db'.participates r u = (db.participates r u && !q r) := by
  unfold Db.participates Table.contains
  rw [h, Table.find_deleteWhere]
  rcases hp : db.roomParticipants.find (r, u) with _ | p
  · rfl
  · have hr : p.roomId = r := congrArg Prod.fst (Table.find_key hp)
    by_cases hq : q r <;> simp [hr, hq]

theorem participantCount_deleteWhere (db db' : Db) (q : RoomId → Bool)
    (h : db'.roomParticipants = db.roomParticipants.deleteWhere fun p => q p.roomId) (r : RoomId) :
    db'.participantCount r = if q r then 0 else db.participantCount r := by
  unfold Db.participantCount
  rw [h, Table.count_deleteWhere]
  by_cases hq : q r
  · rw [if_pos hq, Table.count_eq_zero]
    intro p _
    by_cases hp : p.roomId = r
    · simp [hp, hq]
    · simp [hp]
  · rw [if_neg hq]
    congr 1
    funext p
    by_cases hp : p.roomId = r
    · simp [hp, hq]
    · simp [hp]

/-! ## A community's rooms -/

/-- From one database to another, only starter channels of a community are new. -/
structure Channels (id : CommunityId) (owner : UserId) (db db' : Db) : Prop where
  now : db'.now = db.now
  roomParticipants : db'.roomParticipants = db.roomParticipants
  blocks : db'.blocks = db.blocks
  rooms : ∀ r, db'.room r = db.room r ∨
    (db.room r = none ∧ ∃ t, db'.room r = some (templateRow db.now id owner r t))

theorem Channels.refl (id : CommunityId) (owner : UserId) (db : Db) : Channels id owner db db :=
  ⟨rfl, rfl, rfl, fun _ => .inl rfl⟩

theorem Channels.trans (id : CommunityId) (owner : UserId) (db db' db'' : Db) (h : Channels id owner db db')
    (h' : Channels id owner db' db'') : Channels id owner db db'' := by
  refine ⟨h'.now.trans h.now, h'.roomParticipants.trans h.roomParticipants, h'.blocks.trans h.blocks, fun r => ?_⟩
  rcases h.rooms r with h1 | ⟨h1, t, h2⟩
  · rcases h'.rooms r with h3 | ⟨h3, t, h4⟩
    · exact .inl (h3.trans h1)
    · exact .inr ⟨h1 ▸ h3, t, by rw [h4, h.now]⟩
  · rcases h'.rooms r with h3 | ⟨h3, _⟩
    · exact .inr ⟨h1, t, h3.trans h2⟩
    · rw [h2] at h3
      cases h3

theorem channels_check {id : CommunityId} {owner : UserId} (c : Db → Bool) (e : RepositoryError) :
    Prog.Leads (Channels id owner) (SqlM.check c e) := by
  intro db
  unfold SqlM.check
  rw [Prog.exec_read_bind, Prog.exec_ensure]
  exact .refl id owner db

theorem channels_insertRole (id : CommunityId) (owner : UserId) (role : RoleId × RoleTemplate) :
    Prog.Leads (Channels id owner) (insertRole id role) :=
  Prog.Leads.bind (Channels.trans id owner) (channels_check _ _) fun _ _ => ⟨rfl, rfl, rfl, fun _ => .inl rfl⟩

theorem channels_insertTemplateRoom (id : CommunityId) (owner : UserId) (room : RoomId × RoomTemplate) :
    Prog.Leads (Channels id owner) (insertTemplateRoom id owner room) := by
  intro db
  unfold insertTemplateRoom
  rw [SqlM.exec_check_bind]
  by_cases hr : db.roomExists room.1
  · simp only [hr, Bool.not_true, Bool.false_eq_true, if_false]
    exact Channels.refl id owner db
  · simp only [hr, Bool.not_false, if_true]
    refine ⟨rfl, rfl, rfl, fun r => ?_⟩
    have hf : db.rooms.find room.1 = none := Table.contains_eq_false.1 (Bool.eq_false_iff.2 hr)
    change (db.rooms.insert (templateRow db.now id owner room.1 room.2)).find r = db.rooms.find r ∨ _
    rw [Table.find_insert]
    by_cases hk : room.1 = r
    · subst hk
      refine .inr ⟨hf, room.2, ?_⟩
      change (db.rooms.insert (templateRow db.now id owner room.1 room.2)).find room.1 = _
      rw [Table.find_insert, hf]
      simp [key, templateRow]
    · refine .inl ?_
      simp [key, templateRow, hk]

theorem createCommunity_channels (id : CommunityId) (owner : UserId) (roles : List (RoleId × RoleTemplate))
    (rooms : List (RoomId × RoomTemplate)) : Prog.Leads (Channels id owner) (createCommunity id owner roles rooms) := by
  have hrefl := Channels.refl id owner
  have htrans := Channels.trans id owner
  refine Prog.Leads.transaction hrefl ?_
  refine Prog.Leads.bind htrans (channels_check _ _) fun _ => ?_
  refine Prog.Leads.bind htrans (channels_check _ _) fun _ => ?_
  refine Prog.Leads.bind htrans (fun db => ⟨rfl, rfl, rfl, fun _ => .inl rfl⟩) fun _ => ?_
  refine Prog.Leads.bind htrans (Prog.Leads.forEach hrefl htrans fun role _ => channels_insertRole id owner role) fun _ => ?_
  refine Prog.Leads.bind htrans
    (Prog.Leads.forEach hrefl htrans fun room _ => channels_insertTemplateRoom id owner room) fun _ db => ?_
  exact ⟨rfl, rfl, rfl, fun _ => .inl rfl⟩

/-! ## The readings after a step -/

section Step

variable (db : Db) (req : Request) (r : RoomId) (u v : UserId)

theorem now_step : (step db req).now = (effect db req).now := (tables_eq (tables_step db req)).1

theorem room_step : (step db req).room r = (effect db req).room r :=
  congrArg (fun t : Table RoomRow => t.find r) (tables_eq (tables_step db req)).2.1

theorem participates_step : (step db req).participates r u = (effect db req).participates r u :=
  congrArg (fun t : Table RoomParticipant => t.contains (r, u)) (tables_eq (tables_step db req)).2.2.1

theorem participantCount_step : (step db req).participantCount r = (effect db req).participantCount r :=
  congrArg (fun t : Table RoomParticipant => t.count fun p => p.roomId = r) (tables_eq (tables_step db req)).2.2.1

end Step

theorem participates_withPersona (db : Db) (r : RoomId) (u : UserId) (isAnonymous : Bool) (r' : RoomId) (v : UserId) :
    (withPersona r u isAnonymous db).participates r' v = db.participates r' v :=
  Table.contains_updateWhere db.roomParticipants _ (fun p => { p with isAnonymous, lastSeenAt := db.now })
    (fun _ => rfl) (r', v)

theorem participates_deleteCommunityRow (db : Db) (id : CommunityId) (r : RoomId) (u : UserId) :
    (deleteCommunityRow id db).participates r u = (db.participates r u && !roomOf db id r) :=
  participates_deleteWhere db (deleteCommunityRow id db) (roomOf db id) rfl r u

theorem room_deleteCommunityRow (db : Db) (id : CommunityId) (r : RoomId) :
    (deleteCommunityRow id db).room r = (db.room r).filter fun row => !decide (row.communityId = some id) :=
  Table.find_deleteWhere db.rooms (fun row => row.communityId = some id) r

/-- Has the room ended? -/
def hasEnded (db : Db) (r : RoomId) : Bool := (db.room r).any fun row => row.status = .ended

theorem participates_deleteParticipantsOfEnded (db : Db) (r : RoomId) (u : UserId) :
    (deleteParticipantsOfEnded db).participates r u = (db.participates r u && !hasEnded db r) :=
  participates_deleteWhere db (deleteParticipantsOfEnded db) (hasEnded db) rfl r u

/-- After the expiry job nobody participates in a room that has ended, if it ended any. -/
theorem participates_expired (db : Db) (r : RoomId) (u : UserId) :
    (expired db).participates r u =
      (db.participates r u && !(decide (0 < db.rooms.count (elapsed db.now)) && hasEnded (expired db) r)) := by
  unfold expired
  by_cases h : 0 < db.rooms.count (elapsed db.now)
  · rw [if_pos h, decide_eq_true h, Bool.true_and]
    exact participates_deleteParticipantsOfEnded (endRooms (elapsed db.now) db) r u
  · rw [if_neg h, decide_eq_false h]
    simp only [Bool.false_and, Bool.not_false, Bool.and_true]
    rfl

theorem room_expired (db : Db) (r : RoomId) :
    (expired db).room r = (db.room r).map fun row => if elapsed db.now row then endRoom db.now row else row := by
  unfold expired
  split <;> exact room_endRooms db r (elapsed db.now)

/-! ## Every participant row has its room -/

/-- Each room keeps a row, and nobody comes in. -/
theorem noStray_of_map {db db' : Db} {f : RoomId → RoomRow → RoomRow} (hf : NoStray db)
    (hpart : ∀ r u, db'.participates r u = true → db.participates r u = true)
    (hroom : ∀ r, db'.room r = (db.room r).map (f r)) : NoStray db' := by
  intro r u h
  obtain ⟨row, hrow⟩ := hf r u (hpart r u h)
  exact ⟨f r row, by rw [hroom, hrow, Option.map_some]⟩

/-- The row of one room is written over. -/
theorem noStray_of_row {db db' : Db} {r : RoomId} {f : RoomRow → RoomRow} (hf : NoStray db)
    (hpart : ∀ r' u, db'.participates r' u = true → db.participates r' u = true)
    (hroom : ∀ r', db'.room r' = if r = r' then (db.room r').map f else db.room r') : NoStray db' := by
  refine noStray_of_map (f := fun r' row => if r = r' then f row else row) hf hpart fun r' => ?_
  rw [hroom]
  split <;> simp

/-- Some rooms are deleted, with everybody who participates in them. -/
theorem noStray_of_deleted {db db' : Db} (gone : RoomId → Bool) (hf : NoStray db)
    (hpart : ∀ r u, db'.participates r u = (db.participates r u && !gone r))
    (hroom : ∀ r row, gone r = false → db.room r = some row → db'.room r = some row) : NoStray db' := by
  intro r u h
  rw [hpart, Bool.and_eq_true, Bool.not_eq_true'] at h
  obtain ⟨row, hrow⟩ := hf r u h.1
  exact ⟨row, hroom r row h.2 hrow⟩

theorem noStray_of_channels {db db' : Db} {id : CommunityId} {owner : UserId} (hf : NoStray db)
    (h : Channels id owner db db') : NoStray db' := by
  intro r u hin
  have hbefore : db.participates r u = true := by
    unfold Db.participates at hin ⊢
    rw [← h.roomParticipants]
    exact hin
  obtain ⟨row, hrow⟩ := hf r u hbefore
  rcases h.rooms r with hkept | ⟨-, t, hnew⟩
  · exact ⟨row, hkept.trans hrow⟩
  · exact ⟨_, hnew⟩

theorem noStray_seated {db : Db} (hf : NoStray db) (r : RoomId) (u : UserId) (role : RoomParticipantRole) :
    NoStray (seated r u role db) := by
  intro r' v h
  have hr : ∃ row, db.room r' = some row := by
    rw [participates_seated, Bool.or_eq_true, decide_eq_true_eq] at h
    rcases h with h | ⟨hs, rfl, rfl⟩
    · exact hf r' v h
    · unfold seatable at hs
      rw [Bool.or_eq_true, Bool.and_eq_true] at hs
      rcases hs with h | ⟨h, -⟩
      · exact hf r u h
      · exact Table.contains_iff.1 h
  obtain ⟨row, hrow⟩ := hr
  rw [room_seated, hrow]
  split
  · exact ⟨_, rfl⟩
  · exact ⟨_, rfl⟩

theorem noStray_opened {db : Db} {id : RoomId} {communityId : Option CommunityId} {u : UserId} {input : CreateRoom}
    {room : Room} (hf : NoStray db) (hc : Created db id communityId u input room) : NoStray (opened u input room db) := by
  intro r v h
  by_cases hr : r = id
  · subst hr
    exact ⟨_, (room_opened hc).1⟩
  · rw [room_opened_of_ne hc (Ne.symm hr)]
    rcases (participates_opened hc r v).1 h with h | ⟨rfl, -⟩
    · exact hf r v h
    · exact absurd rfl hr

theorem noStray_deleteCommunityRow {db : Db} (hf : NoStray db) (id : CommunityId) : NoStray (deleteCommunityRow id db) := by
  refine noStray_of_deleted (roomOf db id) hf (participates_deleteCommunityRow db id) fun r row hother hrow => ?_
  unfold roomOf at hother
  rw [hrow, Option.any_some] at hother
  rw [room_deleteCommunityRow, hrow]
  exact Option.filter_some_pos (by rw [hother]; rfl)

theorem noStray_deleteRoomRow {db : Db} (hf : NoStray db) (r : RoomId) : NoStray (deleteRoomRow r db) := by
  refine noStray_of_deleted (fun r' => r' = r) hf (participates_deleteWhere db (deleteRoomRow r db) _ rfl)
    fun r' row hother hrow => ?_
  rw [room_deleteRoomRow, if_neg (Ne.symm (of_decide_eq_false hother))]
  exact hrow

theorem noStray_unseated {db : Db} (hf : NoStray db) (r : RoomId) (u : UserId) : NoStray (unseated r u db) := by
  refine noStray_of_row hf (fun r' v h => ?_) (room_unseated db r · u)
  rw [participates_unseated, Bool.and_eq_true] at h
  exact h.1

theorem noStray_expired {db : Db} (hf : NoStray db) : NoStray (expired db) := by
  refine noStray_of_map hf (fun r u h => ?_) (room_expired db)
  rw [participates_expired, Bool.and_eq_true] at h
  exact h.1

theorem noStray_closed {db : Db} (hf : NoStray db) (r : RoomId) : NoStray (removeParticipants r (closeRoom r db)) := by
  refine noStray_of_row hf (fun r' v h => ?_) (room_closeRoom db r)
  rw [participates_deleteWhere (closeRoom r db) (removeParticipants r (closeRoom r db)) (fun r' => r' = r) rfl,
    Bool.and_eq_true] at h
  exact h.1

theorem noStray_effect (db : Db) (req : Request) (hf : NoStray db) : NoStray (effect db req) := by
  cases req with
  | register | govern | get | mediaJoin | post | history => exact hf
  | unblock => exact hf
  | clock => exact hf
  | createCommunity id owner roles rooms => exact noStray_of_channels hf (createCommunity_channels id owner roles rooms db)
  | deleteCommunity id u =>
    simp only [effect]
    split
    · exact noStray_deleteCommunityRow hf id
    · exact hf
  | block a b =>
    simp only [effect]
    split <;> exact hf
  | create id communityId u input =>
    simp only [effect]
    rcases hc : created db id communityId u input with _ | room
    · exact hf
    · exact noStray_opened hf (created_some hc)
  | openDirect id a b name handle =>
    simp only [effect]
    rcases hc : openedDirect db id a b name handle with _ | room
    · exact hf
    · exact noStray_opened hf (created_some (openedDirect_some hc).2)
  | join r u =>
    simp only [effect]
    split
    · exact noStray_seated hf r u _
    · exact hf
  | leave r u => exact noStray_unseated hf r u
  | setPersona r u isAnonymous =>
    simp only [effect]
    split
    · exact fun r' v h => hf r' v (by rwa [participates_withPersona] at h)
    · exact hf
  | update r u input =>
    simp only [effect]
    rcases acceptedUpdate db r u input with _ | input'
    · exact hf
    · exact noStray_of_row hf (fun _ _ h => h) fun r' => room_withUpdate db r r' input'
  | delete r u =>
    simp only [effect]
    split
    · exact noStray_deleteRoomRow hf r
    · exact hf
  | expire => exact noStray_expired hf
  | reap grace =>
    exact noStray_of_map hf (fun _ _ h => h) fun r => room_endRooms db r (abandoned db.now grace)
  | terminate r =>
    simp only [effect]
    split
    · exact noStray_closed hf r
    · exact hf

/-- In every state a run reaches, every participant row has its room. -/
theorem noStray_step (db : Db) (req : Request) (hf : NoStray db) : NoStray (step db req) := by
  intro r u h
  rw [participates_step] at h
  rw [room_step]
  exact noStray_effect db req hf r u h

theorem noStray_empty (now : Timestamp) : NoStray (Db.empty now) := by
  intro r u h
  cases h

end Genzh.Room
