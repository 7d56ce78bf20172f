/-
The two columns derived from the participant rows. A recount writes both from the rows, so whoever
ends with one leaves them in line. The expiry job and staff termination delete rows and do not
recount, and a community's starter channels are inserted empty with no date for it; what each of these
has to find for the columns to stay in line is said exactly.
-/
import Genzh.Room.Inversion

namespace Genzh.Room

open Genzh.Lib Genzh.Domain Genzh.Infrastructure Genzh.Community Genzh.Social Genzh.Admin

/-- The two columns of a row agree with a number of participants. -/
def Counted (row : RoomRow) (total : Nat) : Prop :=
  row.currentParticipants = total ∧ (row.emptiedAt = none ↔ 0 < total)

/-- Every room's columns agree with its participant rows. -/
def CountsInLine (db : Db) : Prop := ∀ r row, db.room r = some row → Counted row (db.participantCount r)

/-- What a request must find for the columns to stay in line: the expiry job, if it ends a room, nobody in
any room that has ended by then; staff, nobody in the room they terminate; and a community opens with no
starter channels. -/
def KeepsCounts (db : Db) : Request → Prop
  | .expire =>
    0 < db.rooms.count (elapsed db.now) →
      ∀ r row, db.room r = some row → (row.status = .ended ∨ elapsed db.now row = true) → db.participantCount r = 0
  | .terminate r => db.roomExists r = true → db.participantCount r = 0
  | .createCommunity id owner roles rooms => succeeds db (.createCommunity id owner roles rooms) = true → rooms = []
  | _ => True

theorem counted_recountRow (now : Timestamp) (total : Nat) (row : RoomRow) : Counted (recountRow now total row) total := by
  refine ⟨rfl, ?_⟩
  unfold recountRow
  by_cases h : 0 < total
  · simp [h]
  · simp only [h, if_false, iff_false]
    cases row.emptiedAt <;> simp

/-- Of an occupied room, only the number of its participants can put the columns out of line. -/
theorem Counted.zero_of {row : RoomRow} {total : Nat} (h : Counted row total) (h' : Counted row 0) : total = 0 := by
  have := h.1.symm.trans h'.1
  omega

/-! ## Steps that move nobody -/

/-- Rows that keep the two columns stay in line when every room keeps its number of participants. -/
theorem countsInLine_of_rows {db db' : Db} (hi : CountsInLine db) (hcount : ∀ r, db'.participantCount r = db.participantCount r)
    (hrow : ∀ r row', db'.room r = some row' →
      ∃ row, db.room r = some row ∧ row'.currentParticipants = row.currentParticipants ∧ row'.emptiedAt = row.emptiedAt) :
    CountsInLine db' := by
  intro r row' h
  obtain ⟨row, hold, hcur, hemp⟩ := hrow r row' h
  obtain ⟨h1, h2⟩ := hi r row hold
  rw [hcount]
  exact ⟨hcur.trans h1, by rw [hemp]; exact h2⟩

/-- A step that leaves the rooms and the number of participants of each alone keeps the columns in line. -/
theorem countsInLine_of_same {db db' : Db} (hi : CountsInLine db) (hroom : ∀ r, db'.room r = db.room r)
    (hcount : ∀ r, db'.participantCount r = db.participantCount r) : CountsInLine db' :=
  countsInLine_of_rows hi hcount fun r row' h => ⟨row', by rw [← hroom, h], rfl, rfl⟩

theorem participantCount_withPersona (db : Db) (r : RoomId) (u : UserId) (isAnonymous : Bool) (r' : RoomId) :
    (withPersona r u isAnonymous db).participantCount r' = db.participantCount r' :=
  Table.count_updateWhere db.roomParticipants _ (fun p => p.roomId = r')
    (fun p => { p with isAnonymous, lastSeenAt := db.now }) (fun _ => rfl) fun _ => rfl

/-! ## Joins, leaves and new rooms -/

theorem countsInLine_seated {db : Db} (hi : CountsInLine db) (r : RoomId) (u : UserId) (role : RoomParticipantRole) :
    CountsInLine (seated r u role db) := by
  intro r' row' h
  rw [room_seated] at h
  by_cases hs : seatable db r u = true ∧ r = r'
  · rw [if_pos hs] at h
    obtain ⟨-, rfl⟩ := hs
    obtain ⟨row, -, rfl⟩ := Option.map_eq_some_iff.1 h
    exact counted_recountRow ..
  · rw [if_neg hs] at h
    have hcount : (seated r u role db).participantCount r' = db.participantCount r' := by
      rw [participantCount_seated, if_neg fun h' => hs ⟨h'.1, h'.2.2⟩, Nat.add_zero]
    rw [hcount]
    exact hi r' row' h

theorem participantCount_unseated_of_ne (db : Db) (r : RoomId) (u : UserId) {r' : RoomId} (h : r ≠ r') :
    (unseated r u db).participantCount r' = db.participantCount r' := by
  change ((db.roomParticipants.delete (r, u)).count fun p => p.roomId = r') = _
  unfold Table.delete Db.participantCount
  rw [Table.count_deleteWhere]
  congr 1
  funext p
  by_cases hp : p.roomId = r'
  · have : key p ≠ (r, u) := fun hk => h ((congrArg Prod.fst hk).symm.trans hp)
    simp [hp, this]
  · simp [hp]

theorem countsInLine_unseated {db : Db} (hi : CountsInLine db) (r : RoomId) (u : UserId) : CountsInLine (unseated r u db) := by
  intro r' row' h
  rw [room_unseated] at h
  by_cases hr : r = r'
  · subst hr
    rw [if_pos rfl] at h
    obtain ⟨row, -, rfl⟩ := Option.map_eq_some_iff.1 h
    exact counted_recountRow ..
  · rw [if_neg hr] at h
    rw [participantCount_unseated_of_ne db r u hr]
    exact hi r' row' h

theorem countsInLine_opened {db : Db} {id : RoomId} {communityId : Option CommunityId} {u : UserId} {input : CreateRoom}
    {room : Room} (hf : NoStray db) (hi : CountsInLine db) (hc : Created db id communityId u input room) :
    CountsInLine (opened u input room db) := by
  intro r row' h
  by_cases hr : r = id
  · subst hr
    rw [(room_opened hc).1] at h
    cases h
    exact counted_recountRow ..
  · rw [room_opened_of_ne hc (Ne.symm hr)] at h
    rw [participantCount_opened hc hf, if_neg hr]
    exact hi r row' h

/-! ## Rooms that go with their participants -/

theorem countsInLine_deleteRoomRow {db : Db} (hi : CountsInLine db) (r : RoomId) : CountsInLine (deleteRoomRow r db) := by
  intro r' row h
  rw [room_deleteRoomRow] at h
  by_cases hr : r = r'
  · rw [if_pos hr] at h
    cases h
  · rw [if_neg hr] at h
    rw [participantCount_deleteWhere db (deleteRoomRow r db) (fun r' => r' = r) rfl, if_neg (by simpa using Ne.symm hr)]
    exact hi r' row h

theorem countsInLine_deleteCommunityRow {db : Db} (hi : CountsInLine db) (id : CommunityId) :
    CountsInLine (deleteCommunityRow id db) := by
  intro r row h
  rw [room_deleteCommunityRow, Option.filter_eq_some_iff] at h
  have hr : roomOf db id r = false := by
    unfold roomOf
    rw [h.1, Option.any_some]
    simpa using h.2
  rw [participantCount_deleteWhere db (deleteCommunityRow id db) (roomOf db id) rfl, hr]
  exact hi r row h.1

/-! ## The writers that do not recount -/

theorem countsInLine_endRooms {db : Db} (hi : CountsInLine db) (p : RoomRow → Bool) : CountsInLine (endRooms p db) := by
  refine countsInLine_of_rows hi (fun _ => rfl) fun r row' h => ?_
  rw [room_endRooms] at h
  obtain ⟨row, hold, rfl⟩ := Option.map_eq_some_iff.1 h
  refine ⟨row, hold, ?_, ?_⟩ <;> split <;> rfl

/-- Deleting the participants of some rooms, without a recount, keeps the columns in line exactly when nobody
is in these rooms. -/
theorem countsInLine_deleteWhere_iff (db db' : Db) (hi : CountsInLine db) (q : RoomId → Bool)
    (h : db'.roomParticipants = db.roomParticipants.deleteWhere fun p => q p.roomId) (hrooms : ∀ r, db'.room r = db.room r) :
    CountsInLine db' ↔ ∀ r row, db.room r = some row → q r = true → db.participantCount r = 0 := by
  have hcount := participantCount_deleteWhere db db' q h
  constructor
  · intro hi' r row hrow hq
    have := hi' r row ((hrooms r).trans hrow)
    rw [hcount, if_pos hq] at this
    exact (hi r row hrow).zero_of this
  · intro hz r row hrow
    rw [hrooms] at hrow
    rw [hcount]
    by_cases hq : q r
    · rw [if_pos hq, ← hz r row hrow hq]
      exact hi r row hrow
    · rw [if_neg hq]
      exact hi r row hrow

theorem countsInLine_expired_iff {db : Db} (hi : CountsInLine db) : CountsInLine (expired db) ↔ KeepsCounts db .expire := by
  have hi' : CountsInLine (endRooms (elapsed db.now) db) := countsInLine_endRooms hi _
  unfold expired
  simp only [KeepsCounts]
  by_cases hn : 0 < db.rooms.count (elapsed db.now)
  · have hiff := countsInLine_deleteWhere_iff _ (deleteParticipantsOfEnded (endRooms (elapsed db.now) db)) hi'
      (hasEnded (endRooms (elapsed db.now) db)) rfl fun _ => rfl
    rw [if_pos hn, hiff]
    -- a room has ended by then if it had before or its duration has elapsed
    have hended : ∀ r row, db.room r = some row →
        (hasEnded (endRooms (elapsed db.now) db) r = true ↔ row.status = .ended ∨ elapsed db.now row = true) := by
      intro r row hrow
      unfold hasEnded
      rw [room_endRooms, hrow, Option.map_some, Option.any_some, decide_eq_true_eq]
      by_cases he : elapsed db.now row
      · simp [he, endRoom]
      · simp [he]
    constructor
    · intro h _ r row hrow hr
      refine h r (if elapsed db.now row then endRoom db.now row else row) ?_ ((hended r row hrow).2 hr)
      rw [room_endRooms, hrow, Option.map_some]
    · intro h r row' hrow' hr
      rw [room_endRooms] at hrow'
      obtain ⟨row, hrow, -⟩ := Option.map_eq_some_iff.1 hrow'
      exact h hn r row hrow ((hended r row hrow).1 hr)
  · rw [if_neg hn]
    exact ⟨fun _ h => absurd h hn, fun _ => hi'⟩

/-- The row of one room is written over, but for its two columns. -/
theorem countsInLine_of_row {db db' : Db} {r : RoomId} {f : RoomRow → RoomRow} (hi : CountsInLine db)
    (hcount : ∀ r', db'.participantCount r' = db.participantCount r')
    (hroom : ∀ r', db'.room r' = if r = r' then (db.room r').map f else db.room r')
    (hcolumns : ∀ row, (f row).currentParticipants = row.currentParticipants ∧ (f row).emptiedAt = row.emptiedAt) :
    CountsInLine db' := by
  refine countsInLine_of_rows hi hcount fun r' row' h => ?_
  rw [hroom] at h
  by_cases hr : r = r'
  · rw [if_pos hr] at h
    obtain ⟨row, hold, rfl⟩ := Option.map_eq_some_iff.1 h
    exact ⟨row, hold, hcolumns row⟩
  · rw [if_neg hr] at h
    exact ⟨row', h, rfl, rfl⟩

theorem countsInLine_withUpdate {db : Db} (hi : CountsInLine db) (r : RoomId) (input : UpdateRoom) :
    CountsInLine (withUpdate r input db) :=
  countsInLine_of_row hi (fun _ => rfl) (fun r' => room_withUpdate db r r' input) fun _ => ⟨rfl, rfl⟩

theorem countsInLine_closeRoom {db : Db} (hi : CountsInLine db) (r : RoomId) : CountsInLine (closeRoom r db) :=
  countsInLine_of_row hi (fun _ => rfl) (room_closeRoom db r) fun _ => ⟨rfl, rfl⟩

theorem countsInLine_terminate_iff {db : Db} (hi : CountsInLine db) (r : RoomId) :
    CountsInLine (effect db (.terminate r)) ↔ KeepsCounts db (.terminate r) := by
  simp only [effect, KeepsCounts]
  by_cases hr : db.roomExists r
  · have hiff := countsInLine_deleteWhere_iff _ (removeParticipants r (closeRoom r db)) (countsInLine_closeRoom hi r)
      (fun r' => r' = r) rfl fun _ => rfl
    rw [if_pos hr, hiff]
    constructor
    · intro h _
      obtain ⟨row, hrow⟩ := Table.contains_iff.1 hr
      have hclosed := room_closeRoom db r r
      rw [if_pos rfl, show db.room r = some row from hrow, Option.map_some] at hclosed
      exact h r _ hclosed (decide_eq_true rfl)
    · intro h r' row' _ hq
      rw [of_decide_eq_true hq]
      exact h hr
  · rw [if_neg hr]
    exact ⟨fun _ h => absurd h hr, fun _ => hi⟩

/-! ## A community's starter channels -/

theorem exec_insertTemplateRoom_ok {id : CommunityId} {owner : UserId} {room : RoomId × RoomTemplate} {db db' : Db}
    (h : (insertTemplateRoom id owner room).exec db = (.ok (), db')) :
    db.room room.1 = none ∧ db'.room room.1 = some (templateRow db.now id owner room.1 room.2) := by
  unfold insertTemplateRoom at h
  rw [SqlM.exec_check_bind] at h
  by_cases hr : db.roomExists room.1
  · simp [hr] at h
  · have hnone : db.rooms.find room.1 = none := Table.contains_eq_false.1 (Bool.eq_false_iff.2 hr)
    simp only [hr, Bool.not_false, if_true, Prog.exec_modify, Prod.mk.injEq, true_and] at h
    subst h
    refine ⟨hnone, ?_⟩
    change (db.rooms.insert (templateRow db.now id owner room.1 room.2)).find room.1 = _
    rw [Table.find_insert, hnone]
    simp [key, templateRow]

/-- A community that opens with channels: the first of them is new, and is there afterwards. -/
theorem createCommunity_channel {id : CommunityId} {owner : UserId} {roles : List (RoleId × RoleTemplate)}
    {room : RoomId × RoomTemplate} {rooms : List (RoomId × RoomTemplate)} {db db' : Db}
    (h : (createCommunity id owner roles (room :: rooms)).exec db = (.ok (), db')) :
    db.room room.1 = none ∧ db'.room room.1 = some (templateRow db.now id owner room.1 room.2) := by
  have hrefl := Channels.refl id owner
  have htrans := Channels.trans id owner
  unfold createCommunity at h
  obtain ⟨_, db₁, h₁, h⟩ := Prog.bind_ok (Prog.transaction_ok h)
  obtain ⟨_, db₂, h₂, h⟩ := Prog.bind_ok h
  obtain ⟨_, db₃, h₃, h⟩ := Prog.bind_ok h
  obtain ⟨_, db₄, h₄, h⟩ := Prog.bind_ok h
  obtain ⟨_, db₅, h₅, h₆⟩ := Prog.bind_ok h
  unfold Prog.forEach at h₅
  obtain ⟨_, db', h', h₅⟩ := Prog.bind_ok h₅
  -- up to the first channel, and from it on, only channels are new
  have hbefore : Channels id owner db db₄ := by
    refine htrans _ _ _ ((channels_check _ _).exec h₁) (htrans _ _ _ ((channels_check _ _).exec h₂) (htrans _ db₃ _ ?_ ?_))
    · cases h₃
      exact ⟨rfl, rfl, rfl, fun _ => .inl rfl⟩
    · exact (Prog.Leads.forEach hrefl htrans fun role _ => channels_insertRole id owner role).exec h₄
  have hafter : Channels id owner db' db₅ :=
    (Prog.Leads.forEach hrefl htrans fun room _ => channels_insertTemplateRoom id owner room).exec h₅
  obtain ⟨hnone, hsome⟩ := exec_insertTemplateRoom_ok h'
  constructor
  · rcases hbefore.rooms room.1 with hr | ⟨hr, -⟩
    · rw [← hr, hnone]
    · exact hr
  · cases h₆
    rcases hafter.rooms room.1 with hr | ⟨hr, -⟩
    · exact hr.trans (by rw [hsome, hbefore.now])
    · rw [hr] at hsome
      cases hsome

/-- A community that opens without channels leaves the rooms and their participants alone. -/
theorem frames_createCommunity_nil (id : CommunityId) (owner : UserId) (roles : List (RoleId × RoleTemplate)) :
    Prog.Frames (fun db : Db => (db.rooms, db.roomParticipants)) (createCommunity id owner roles []) := by
  refine Prog.Frames.transaction ((SqlM.frames_check _ _).bind fun _ => (SqlM.frames_check _ _).bind fun _ => ?_)
  refine Prog.Frames.bind (Prog.Frames.modify fun _ => rfl) fun _ => ?_
  refine Prog.Frames.bind (Prog.Frames.forEach fun role _ => ?_) fun _ => ?_
  · exact (SqlM.frames_check _ _).bind fun _ => Prog.Frames.modify fun _ => rfl
  · exact (Prog.Frames.pure ()).bind fun _ => Prog.Frames.modify fun _ => rfl

theorem countsInLine_createCommunity_iff {db : Db} (hf : NoStray db) (hi : CountsInLine db) (id : CommunityId)
    (owner : UserId) (roles : List (RoleId × RoleTemplate)) (rooms : List (RoomId × RoomTemplate)) :
    CountsInLine (effect db (.createCommunity id owner roles rooms)) ↔
      KeepsCounts db (.createCommunity id owner roles rooms) := by
  simp only [effect, KeepsCounts, succeeds, handle]
  rcases hx : (createCommunity id owner roles rooms).exec db with ⟨e | _, db'⟩
  · -- a refused creation is taken back
    have hback : db' = db := by
      unfold createCommunity at hx
      rw [Prog.exec_transaction] at hx
      split at hx <;> cases hx
      rfl
    subst hback
    exact ⟨fun _ h => absurd h (by simp [Except.isOk, Except.toBool]), fun _ => hi⟩
  · simp only [Except.isOk, Except.toBool, forall_const]
    constructor
    · intro hi'
      cases rooms with
      | nil => rfl
      | cons room rooms =>
        obtain ⟨hnone, hsome⟩ := createCommunity_channel hx
        have hzero : ¬ 0 < db'.participantCount room.1 := by
          have hparts := (createCommunity_channels id owner roles (room :: rooms)).exec hx |>.roomParticipants
          rw [Db.participantCount_pos]
          rintro ⟨u, hu⟩
          unfold Db.participates at hu
          rw [hparts] at hu
          obtain ⟨row, hrow⟩ := hf room.1 u hu
          rw [hnone] at hrow
          cases hrow
        exact absurd ((hi' room.1 _ hsome).2.1 rfl) hzero
    · rintro rfl
      have hsame := (frames_createCommunity_nil id owner roles).exec hx
      simp only [Prod.mk.injEq] at hsame
      refine countsInLine_of_same hi (fun r => ?_) fun r => ?_
      · exact congrArg (fun t : Table RoomRow => t.find r) hsame.1
      · exact congrArg (fun t : Table RoomParticipant => t.count fun p => p.roomId = r) hsame.2

/-! ## Runs -/

theorem countsInLine_step (db : Db) (req : Request) : CountsInLine (step db req) ↔ CountsInLine (effect db req) := by
  unfold CountsInLine
  simp only [room_step, participantCount_step]

theorem countsInLine_step_iff (db : Db) (req : Request) (hf : NoStray db) (hi : CountsInLine db) :
    CountsInLine (step db req) ↔ KeepsCounts db req := by
  rw [countsInLine_step]
  cases req with
  -- the three that can leave the columns behind come first
  | expire => exact countsInLine_expired_iff hi
  | terminate r => exact countsInLine_terminate_iff hi r
  | createCommunity id owner roles rooms => exact countsInLine_createCommunity_iff hf hi id owner roles rooms
  | register | govern | get | mediaJoin | post | history => exact iff_of_true hi trivial
  | unblock => exact iff_of_true hi trivial
  | clock => exact iff_of_true hi trivial
  | deleteCommunity id u =>
    refine iff_of_true ?_ trivial
    simp only [effect]
    split
    · exact countsInLine_deleteCommunityRow hi id
    · exact hi
  | block a b =>
    refine iff_of_true ?_ trivial
    simp only [effect]
    split <;> exact hi
  | create id communityId u input =>
    refine iff_of_true ?_ trivial
    rcases hc : created db id communityId u input with _ | room
    · simp only [effect, hc]
      exact hi
    · have ho : Opens db id (.create id communityId u input) communityId u input room := .create hc
      rw [ho.effect_eq]
      exact countsInLine_opened hf hi ho.spec
  | openDirect id a b name handle =>
    refine iff_of_true ?_ trivial
    rcases hc : openedDirect db id a b name handle with _ | room
    · simp only [effect, hc]
      exact hi
    · have ho : Opens db id (.openDirect id a b name handle) none a (directInput b name handle) room := .direct hc
      rw [ho.effect_eq]
      exact countsInLine_opened hf hi ho.spec
  | join r u =>
    refine iff_of_true ?_ trivial
    simp only [effect]
    split
    · exact countsInLine_seated hi r u _
    · exact hi
  | leave r u => exact iff_of_true (countsInLine_unseated hi r u) trivial
  | setPersona r u isAnonymous =>
    refine iff_of_true ?_ trivial
    simp only [effect]
    split
    · exact countsInLine_of_same hi (fun _ => rfl) fun r' => participantCount_withPersona db r u isAnonymous r'
    · exact hi
  | update r u input =>
    refine iff_of_true ?_ trivial
    simp only [effect]
    rcases acceptedUpdate db r u input with _ | input'
    · exact hi
    · exact countsInLine_withUpdate hi r input'
  | delete r u =>
    refine iff_of_true ?_ trivial
    simp only [effect]
    split
    · exact countsInLine_deleteRoomRow hi r
    · exact hi
  | reap grace => exact iff_of_true (countsInLine_endRooms hi _) trivial

theorem countsInLine_empty (now : Timestamp) : CountsInLine (Db.empty now) := by
  intro r row h
  cases h

/-- Over every run: the columns are in line in every state exactly when no step deletes a participant that it
does not recount and no community opens with channels. -/
theorem counts_in_line_iff (now : Timestamp) (reqs : List Request) :
    Always step CountsInLine (Db.empty now) reqs ↔ Along step KeepsCounts (Db.empty now) reqs :=
  always_iff_along noStray_step (fun db req hf hi => countsInLine_step_iff db req hf hi) (noStray_empty now)
    (countsInLine_empty now)

/-- An account opens a room for a minute, and the expiry job runs two minutes later. -/
def expiredWithOwner : List Request :=
  [.register (account ⟨1⟩ "ana"),
    .create ⟨10⟩ none ⟨1⟩ { name := "late", roomType := .text, durationMinutes := some 1 },
    .clock 120000000, .expire]

/-- The room has ended and nobody is in it, and its row still counts its owner and has no date for when it
became empty. -/
theorem expired_room_counts_owner :
    ¬ Always step CountsInLine (Db.empty 0) expiredWithOwner ∧
      ((run step (Db.empty 0) expiredWithOwner).room ⟨10⟩).map
        (fun row => (row.status, row.currentParticipants, row.emptiedAt)) = some (.ended, 1, none) ∧
      (run step (Db.empty 0) expiredWithOwner).participantCount ⟨10⟩ = 0 := by
  have hrow : ((run step (Db.empty 0) expiredWithOwner).room ⟨10⟩).map
      (fun row => (row.status, row.currentParticipants, row.emptiedAt)) = some (.ended, 1, none) := by decide +kernel
  have hcount : (run step (Db.empty 0) expiredWithOwner).participantCount ⟨10⟩ = 0 := by decide +kernel
  refine ⟨fun h => ?_, hrow, hcount⟩
  obtain ⟨row, hr, hcols⟩ := Option.map_eq_some_iff.1 hrow
  have := (h.last ⟨10⟩ row hr).1
  rw [hcount, (Prod.mk.inj (Prod.mk.inj hcols).2).1] at this
  cases this

end Genzh.Room
