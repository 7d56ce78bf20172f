/-
What the statements and the calls of the room services leave in the tables, in closed form: whether a
call is accepted is a predicate on the state before it, and what it writes then is a composition of
statements. The anonymous identities and the messages are left out of the picture (`core`): no check
on rooms and participants reads them.
-/
import Genzh.Room.Directs
import Genzh.Admin.Live

namespace Genzh.Room

open Genzh.Lib Genzh.Domain Genzh.Infrastructure Genzh.Community Genzh.Social Genzh.Admin

/-- The database without what nobody's access or place in a room depends on. -/
def core (db : Db) : Db := { db with roomAnonymousIdentities := .empty, messages := .empty }

/-! ## What a statement does to a room and to its participants -/

section Statements

variable (db : Db) (r r' : RoomId) (u u' : UserId) (role : RoomParticipantRole)

theorem room_recount :
    (recountParticipants r db).room r' =
      if r = r' then (db.room r').map (recountRow db.now (db.participantCount r)) else db.room r' :=
  Table.find_update db.rooms r r' (recountRow db.now (db.participantCount r)) fun _ => rfl

@[simp] theorem participates_recount : (recountParticipants r db).participates r' u' = db.participates r' u' := rfl

@[simp] theorem participantCount_recount :
    (recountParticipants r db).participantCount r' = db.participantCount r' := rfl

theorem participates_insertParticipant :
    (insertParticipant r u role db).participates r' u' = (db.participates r' u' || decide (r = r' ∧ u = u')) := by
  unfold Db.participates insertParticipant
  simp only [Table.contains_upsert]
  congr 1
  simp [key]

theorem participantCount_insertParticipant :
    (insertParticipant r u role db).participantCount r' =
      db.participantCount r' + if db.participates r u = false ∧ r = r' then 1 else 0 := by
  unfold Db.participantCount insertParticipant Db.participates
  simp only
  rw [Table.count_upsert]
  · simp only [key, decide_eq_true_eq]
  · intro p
    rfl

theorem participates_deleteParticipant :
    (deleteParticipant r u db).participates r' u' = (db.participates r' u' && decide (¬ (r = r' ∧ u = u'))) := by
  unfold Db.participates deleteParticipant
  simp only [Table.contains_delete]
  congr 1
  simp

end Statements

/-! ## A place in a room -/

/-- Can the user be given a place in the room, or refreshed in it? -/
def seatable (db : Db) (r : RoomId) (u : UserId) : Bool :=
  db.participates r u || (db.roomExists r && db.userExists u)

/-- A committed `joinRoom`, or nothing where it is refused. -/
def seated (r : RoomId) (u : UserId) (role : RoomParticipantRole) (db : Db) : Db :=
  if seatable db r u then recountParticipants r (insertParticipant r u role db) else db

/-- A committed `leaveRoom`. -/
def unseated (r : RoomId) (u : UserId) (db : Db) : Db := recountParticipants r (deleteParticipant r u db)

theorem exec_joinRoom (r : RoomId) (u : UserId) (role : RoomParticipantRole) (db : Db) :
    (joinRoom r u role).exec db =
      (if seatable db r u then .ok ((insertParticipant r u role db).roomParticipants.find (r, u))
        else .error (.repository .foreignKey), seated r u role db) := by
  unfold joinRoom seated
  rw [Prog.exec_transaction, SqlM.exec_check_bind]
  by_cases h : seatable db r u
  · rw [if_pos h, if_pos h, if_pos (show (db.participates r u || (db.roomExists r && db.userExists u)) = true from h)]
    rfl
  · rw [if_neg h, if_neg h, if_neg (show ¬ (db.participates r u || (db.roomExists r && db.userExists u)) = true from h)]

theorem exec_leaveRoom (r : RoomId) (u : UserId) (db : Db) :
    (leaveRoom r u).exec db = (.ok (db.participates r u), unseated r u db) := rfl

/-- Minting an identity writes nothing but identities. -/
theorem frames_identity {γ : Type} {obs : Db → γ}
    (h : ∀ db identities, obs { db with roomAnonymousIdentities := identities } = obs db) (r : RoomId) (u : UserId) :
    Prog.Frames obs (getOrCreateAnonymousIdentity r u) := by
  unfold getOrCreateAnonymousIdentity
  refine (Prog.Frames.read _).bind fun existing => ?_
  cases existing with
  | some identity => exact Prog.Frames.pure _
  | none =>
    refine Prog.Frames.bind (SqlM.frames_check _ _) fun _ => ?_
    refine Prog.Frames.bind (SqlM.frames_check _ _) fun _ => ?_
    refine (Prog.Frames.read _).bind fun _ => ?_
    exact Prog.Frames.bind (Prog.Frames.modify fun db => h db _) fun _ => Prog.Frames.pure _

theorem core_seated (r : RoomId) (u : UserId) (role : RoomParticipantRole) (db : Db) :
    core (seated r u role db) = seated r u role (core db) := by
  unfold seated
  rw [apply_ite core]
  rfl

theorem exec_seat (room : Room) (u : UserId) (role : RoomParticipantRole) (db : Db) :
    ∃ db', (seat room u role).exec db = (.ok (), db') ∧ core db' = core (seated room.id u role db) := by
  unfold seat
  rw [Prog.exec_attempt_bind, exec_joinRoom]
  by_cases ha : room.isAnonymous
  · rw [if_pos ha, Prog.exec_attempt]
    exact ⟨_, rfl, frames_identity (fun _ _ => rfl) room.id u _⟩
  · rw [if_neg ha]
    exact ⟨_, rfl, rfl⟩

/-- A list of users given a place one after the other. -/
def seatAll (r : RoomId) (us : List UserId) (db : Db) : Db := us.foldl (fun db u => seated r u .participant db) db

theorem core_seatAll (r : RoomId) (us : List UserId) (db : Db) : core (seatAll r us db) = seatAll r us (core db) := by
  induction us generalizing db with
  | nil => rfl
  | cons u us ih =>
    simp only [seatAll, List.foldl_cons] at ih ⊢
    rw [ih, core_seated]

theorem exec_forEach_seat (room : Room) (us : List UserId) (db : Db) :
    ∃ db', (Prog.forEach us fun pid => seat room pid .participant).exec db = (.ok (), db') ∧
      core db' = core (seatAll room.id us db) := by
  induction us generalizing db with
  | nil => exact ⟨db, rfl, rfl⟩
  | cons u us ih =>
    obtain ⟨db₁, h₁, hc₁⟩ := exec_seat room u .participant db
    obtain ⟨db₂, h₂, hc₂⟩ := ih db₁
    refine ⟨db₂, ?_, ?_⟩
    · unfold Prog.forEach
      rw [Prog.exec_bind_ok h₁, h₂]
    · rw [hc₂, core_seatAll, hc₁, ← core_seatAll]
      rfl

/-! ## A new room -/

/-- The row a new room gets. -/
def newRow (now : Timestamp) (room : Room) : RoomRow where
  toRoom := { room with createdAt := now, updatedAt := now }
  emptiedAt := none

/-- Does the database take the row of a new room? -/
def insertable (db : Db) (room : Room) : Bool :=
  (capPositive room && room.expiresAt.all Timestamp.storable) && !db.roomExists room.id &&
    (room.communityId.all db.communityExists && room.ownerId.all db.userExists)

/-- The rooms with a new one. -/
def withRoom (room : Room) (db : Db) : Db := { db with rooms := db.rooms.insert (newRow db.now room) }

theorem exec_insertRoom (room : Room) (db : Db) :
    (insertable db room = true ∧
      (insertRoom room).exec db = (.ok { room with createdAt := db.now, updatedAt := db.now }, withRoom room db)) ∨
    (insertable db room = false ∧ ∃ e, (insertRoom room).exec db = (.error e, db)) := by
  unfold insertRoom insertable
  simp only [SqlM.exec_check_bind]
  by_cases h1 : (capPositive room && room.expiresAt.all Timestamp.storable) = true
  · by_cases h2 : (!db.roomExists room.id) = true
    · by_cases h3 : (room.communityId.all db.communityExists && room.ownerId.all db.userExists) = true
      · left
        rw [if_pos h1, if_pos h2, if_pos h3]
        exact ⟨by rw [h1, h2, h3]; rfl, rfl⟩
      · right
        rw [if_pos h1, if_pos h2, if_neg h3]
        exact ⟨by simp [Bool.eq_false_iff.2 h3], _, rfl⟩
    · right
      rw [if_pos h1, if_neg h2]
      exact ⟨by simp [Bool.eq_false_iff.2 h2], _, rfl⟩
  · right
    rw [if_neg h1]
    exact ⟨by simp [Bool.eq_false_iff.2 h1], _, rfl⟩

/-- The room a creation inserts, if it is accepted. -/
def created (db : Db) (id : RoomId) (communityId : Option CommunityId) (u : UserId) (input : CreateRoom) : Option Room :=
  match newRoom db id communityId u input with
  | .ok room => if insertable db room then some room else none
  | .error _ => none

/-- The rooms with a new one, and its creator and invited participants in it. -/
def opened (u : UserId) (input : CreateRoom) (room : Room) (db : Db) : Db :=
  seatAll room.id (invited u input) (seated room.id u .owner (withRoom room db))

theorem exec_create (id : RoomId) (communityId : Option CommunityId) (u : UserId) (input : CreateRoom) (db : Db) :
    (∃ room db', created db id communityId u input = some room ∧ (create id communityId u input).exec db =
        (.ok { room with createdAt := db.now, updatedAt := db.now }, db') ∧ core db' = core (opened u input room db)) ∨
    (created db id communityId u input = none ∧ ∃ e, (create id communityId u input).exec db = (.error e, db)) := by
  unfold created create
  rw [Prog.exec_query_bind]
  rcases newRoom db id communityId u input with e | room
  · exact .inr ⟨rfl, e, rfl⟩
  · simp only
    rcases exec_insertRoom room db with ⟨hi, h⟩ | ⟨hi, e, h⟩
    · rw [if_pos hi, Prog.exec_bind_ok h]
      obtain ⟨db₁, h₁, hc₁⟩ := exec_seat { room with createdAt := db.now, updatedAt := db.now } u .owner (withRoom room db)
      obtain ⟨db₂, h₂, hc₂⟩ := exec_forEach_seat { room with createdAt := db.now, updatedAt := db.now } (invited u input) db₁
      refine .inl ⟨room, db₂, rfl, ?_, ?_⟩
      · rw [Prog.exec_bind_ok h₁, Prog.exec_bind_ok h₂]
        rfl
      · rw [hc₂, core_seatAll, hc₁, ← core_seatAll]
        rfl
    · rw [if_neg (by simp [hi]), Prog.exec_bind_error h]
      exact .inr ⟨rfl, e, rfl⟩

theorem core_create (id : RoomId) (communityId : Option CommunityId) (u : UserId) (input : CreateRoom) (db : Db) :
    core ((create id communityId u input).exec db).2 =
      core (match created db id communityId u input with
        | some room => opened u input room db
        | none => db) := by
  rcases exec_create id communityId u input db with ⟨room, db', hc, h, hcore⟩ | ⟨hc, e, h⟩
  · rw [hc, h]
    exact hcore
  · rw [hc, h]

/-! ## Opening a conversation, joining, updating, deleting -/

/-- The room that opening a direct conversation creates, if it creates one. -/
def openedDirect (db : Db) (id : RoomId) (a b : UserId) (name handle : String) : Option Room :=
  if (ensureCanReach db a b).isOk && (findDirectRoom db a b).isNone then created db id none a (directInput b name handle)
  else none

theorem core_openDirect (id : RoomId) (a b : UserId) (name handle : String) (db : Db) :
    core ((openDirect id a b name handle).exec db).2 =
      core (match openedDirect db id a b name handle with
        | some room => opened a (directInput b name handle) room db
        | none => db) := by
  unfold openDirect openedDirect
  generalize directInput b name handle = input
  rw [Prog.exec_query_bind]
  rcases ensureCanReach db a b with e | _
  · rfl
  · simp only [Prog.exec_read_bind]
    rcases findDirectRoom db a b with _ | room
    · have hnew : ((Except.ok () : Except ServiceError Unit).isOk && (none : Option Room).isNone) = true := rfl
      rw [if_pos hnew, ← core_create]
      simp only
      rw [Prog.exec_bind]
      rcases (create id none a input).exec db with ⟨_ | room, db'⟩ <;> rfl
    · rfl

/-- The role a joiner gets. -/
def joinRole (db : Db) (r : RoomId) (u : UserId) : RoomParticipantRole :=
  if (db.room r).any fun row => row.ownerId = some u then .owner else .participant

theorem access_room {db : Db} {r : RoomId} {u : UserId} {a : RoomAccess} (h : access db r u = .ok a) :
    ∃ row, db.room r = some row ∧ a.room = row.toRoom := by
  unfold access at h
  rcases hr : db.room r with _ | row
  · rw [hr] at h
    cases h
  · rw [hr] at h
    simp only at h
    split at h
    · rename_i c hc
      rcases hm : memberContext db c u with e | m
      · rw [hm] at h
        cases h
      · rw [hm] at h
        cases h
        exact ⟨row, rfl, rfl⟩
    · cases h
      exact ⟨row, rfl, rfl⟩

/-- Visible access is access with the permission to view, and no block between the caller and the peer
of a direct room. -/
theorem visibleAccess_ok {db : Db} {r : RoomId} {u : UserId} {a : RoomAccess} :
    visibleAccess db r u = .ok a ↔
      access db r u = .ok a ∧ a.permissions.allows .viewRoom = true ∧ ensurePeer db a.room r u = .ok () := by
  unfold visibleAccess
  rcases access db r u with e | b
  · simp [bind, Except.bind]
  · simp only [bind, Except.bind, RoomAccess.require, Except.ok.injEq]
    by_cases hv : b.permissions.allows .viewRoom
    · rw [if_pos hv]
      simp only
      rcases hp : ensurePeer db b.room r u with e | _
      · simp only [reduceCtorEq, false_iff, not_and]
        rintro rfl - h
        rw [hp] at h
        cases h
      · simp only [Except.ok.injEq]
        constructor
        · rintro rfl
          exact ⟨rfl, hv, hp⟩
        · exact fun h => h.1
    · rw [if_neg hv]
      simp only [reduceCtorEq, false_iff, not_and]
      rintro rfl h
      exact absurd h hv

theorem frames_joinIdentity (room : Room) (r : RoomId) (u : UserId) : Prog.Frames core (joinIdentity room r u) := by
  unfold joinIdentity
  split
  · exact (frames_identity (fun _ _ => rfl) r u).bind fun _ => Prog.Frames.pure _
  · exact Prog.Frames.pure _

theorem core_join (r : RoomId) (u : UserId) (db : Db) :
    core ((join r u).exec db).2 =
      core (if (visibleAccess db r u).isOk then seated r u (joinRole db r u) db else db) := by
  unfold join
  rw [Prog.exec_query_bind]
  rcases h : visibleAccess db r u with e | a
  · rfl
  · obtain ⟨row, hrow, hroom⟩ := access_room (visibleAccess_ok.1 h).1
    have hrole : (if a.room.ownerId = some u then RoomParticipantRole.owner else .participant) = joinRole db r u := by
      unfold joinRole
      rw [hrow, hroom]
      simp
    have hok : (Except.ok a : Except ServiceError RoomAccess).isOk = true := rfl
    rw [if_pos hok]
    simp only [hrole]
    rw [Prog.exec_bind, exec_joinRoom]
    by_cases hs : seatable db r u
    · rw [if_pos hs]
      -- the identity is minted after the place is committed, and is all that is written from here
      exact ((frames_joinIdentity a.room r u).bind fun _ => (Prog.Frames.read _).bind fun _ => Prog.Frames.pure _) _
    · rw [if_neg hs]

/-- What an accepted update writes: the columns it names, with the name normalised. -/
def acceptedUpdate (db : Db) (r : RoomId) (u : UserId) (input : UpdateRoom) : Option UpdateRoom :=
  match access db r u, input.name.mapM validateRoomName with
  | .ok a, .ok name =>
    if a.permissions.allows .manageRoom && (input.maxParticipants.or a.room.maxParticipants).all fun m => 0 < m then
      some { input with name }
    else none
  | _, _ => none

/-- `UPDATE rooms` of one room. -/
def withUpdate (r : RoomId) (input : UpdateRoom) (db : Db) : Db :=
  { db with rooms := db.rooms.update r (updateRow db.now input) fun _ => rfl }

theorem exec_updateRoom {r : RoomId} {input : UpdateRoom} {db : Db} {row : RoomRow} (h : db.room r = some row) :
    (updateRoom r input).exec db =
      if capPositive (updateRow db.now input row).toRoom then
        (.ok (updateRow db.now input row).toRoom, withUpdate r input db)
      else (.error (.repository .database), db) := by
  unfold updateRoom
  rw [Prog.exec_read_bind, Prog.exec_read_bind, h]
  dsimp only
  rw [SqlM.exec_check_bind]
  rfl

theorem exec_update (r : RoomId) (u : UserId) (input : UpdateRoom) (db : Db) :
    match acceptedUpdate db r u input with
    | some input' => ∃ room, (update r u input).exec db = (.ok room, withUpdate r input' db)
    | none => ∃ e, (update r u input).exec db = (.error e, db) := by
  unfold acceptedUpdate update
  rw [Prog.exec_query_bind]
  rcases ha : access db r u with e | a
  · exact ⟨e, rfl⟩
  · obtain ⟨row, hrow, hroom⟩ := access_room ha
    simp only [Prog.exec_lift_bind, RoomAccess.require]
    by_cases hm : a.permissions.allows .manageRoom
    · rw [if_pos hm]
      rcases hn : input.name.mapM validateRoomName with e | name
      · exact ⟨_, rfl⟩
      · simp only [liftDomain]
        rw [exec_updateRoom hrow, hm, Bool.true_and, hroom]
        by_cases hc : ((input.maxParticipants.or row.maxParticipants).all fun m => decide (0 < m)) = true
        · rw [if_pos hc, if_pos (show capPositive (updateRow db.now { input with name } row).toRoom = true from hc)]
          exact ⟨_, rfl⟩
        · rw [if_neg hc, if_neg (show ¬ capPositive (updateRow db.now { input with name } row).toRoom = true from hc)]
          exact ⟨_, rfl⟩
    · rw [if_neg hm]
      rcases input.name.mapM validateRoomName with e | name
      · exact ⟨_, rfl⟩
      · simp only [Bool.eq_false_iff.2 hm, Bool.false_and, Bool.false_eq_true, if_false]
        exact ⟨_, rfl⟩

theorem state_update (r : RoomId) (u : UserId) (input : UpdateRoom) (db : Db) :
    ((update r u input).exec db).2 =
      match acceptedUpdate db r u input with
      | some input' => withUpdate r input' db
      | none => db := by
  have h := exec_update r u input db
  rcases ha : acceptedUpdate db r u input with _ | input'
  · rw [ha] at h
    obtain ⟨e, h⟩ := h
    rw [h]
  · rw [ha] at h
    obtain ⟨room, h⟩ := h
    rw [h]

/-- May the caller delete the room? -/
def deletable (db : Db) (r : RoomId) (u : UserId) : Bool :=
  match access db r u with
  | .ok a => a.permissions.allows .manageRoom
  | .error _ => false

theorem exec_delete (r : RoomId) (u : UserId) (db : Db) :
    ((delete r u).exec db).2 = if deletable db r u then deleteRoomRow r db else db := by
  unfold deletable delete
  rw [Prog.exec_query_bind]
  rcases ha : access db r u with e | a
  · rfl
  · simp only [Prog.exec_lift_bind, RoomAccess.require]
    by_cases hm : a.permissions.allows .manageRoom
    · rw [if_pos hm, if_pos hm]
      unfold deleteRoom
      rw [Prog.exec_bind]
      simp only [Prog.exec_read_bind, Prog.exec_modify_bind, Prog.exec_pure]
      rw [Prog.exec_ensure]
    · rw [if_neg hm, if_neg hm]

/-! ## Jobs and staff -/

/-- A committed run of the expiry job. -/
def expired (db : Db) : Db :=
  if 0 < db.rooms.count (elapsed db.now) then deleteParticipantsOfEnded (endRooms (elapsed db.now) db)
  else endRooms (elapsed db.now) db

theorem exec_expire (db : Db) :
    expireEphemeralRooms.exec db = (.ok (db.rooms.count (elapsed db.now)), expired db) := by
  unfold expireEphemeralRooms expired
  rw [Prog.exec_transaction]
  simp only [Prog.exec_read_bind, Prog.exec_modify_bind]
  by_cases h : 0 < db.rooms.count (elapsed db.now)
  · rw [if_pos h, if_pos h]
    rfl
  · rw [if_neg h, if_neg h]
    rfl

theorem exec_reap (grace : Duration) (db : Db) :
    (endEmptyPlaygroundRooms grace).exec db =
      (.ok (db.rooms.count (abandoned db.now grace)), endRooms (abandoned db.now grace) db) := rfl

theorem exec_terminate (r : RoomId) (db : Db) :
    ((terminateSession r).exec db).2 = if db.roomExists r then removeParticipants r (closeRoom r db) else db := by
  unfold terminateSession
  rw [Prog.exec_read_bind, SqlM.exec_found_bind]
  unfold Db.roomExists Table.contains Db.room
  rcases db.rooms.find r with _ | row <;> rfl

end Genzh.Room
