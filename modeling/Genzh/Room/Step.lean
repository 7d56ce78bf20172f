/-
The step of a request in closed form, on the four tables the rooms' invariants speak of: the clock, the
rooms, the participants and the blocks. `effect` has one line for each request that writes one of
them, and `tables_step` is the one place where the calls are executed.
-/
import Genzh.Room.Request

namespace Genzh.Room

open Genzh.Lib Genzh.Domain Genzh.Infrastructure Genzh.Community Genzh.Social Genzh.Messaging Genzh.Admin

/-- What the invariants of rooms speak of. -/
def tables (db : Db) : Timestamp × Table RoomRow × Table RoomParticipant × Table Block :=
  (db.now, db.rooms, db.roomParticipants, db.blocks)

/-- A database that agrees on these tables agrees on every reading of them. -/
theorem tables_eq {db db' : Db} (h : tables db = tables db') :
    db.now = db'.now ∧ db.rooms = db'.rooms ∧ db.roomParticipants = db'.roomParticipants ∧ db.blocks = db'.blocks := by
  unfold tables at h
  simpa [Prod.mk.injEq] using h

theorem tables_of_core {db db' : Db} (h : core db = core db') : tables db = tables db' := by
  change tables (core db) = tables (core db')
  rw [h]

/-! ## What the other calls write -/

/-- A block that is accepted. -/
def blocked (a b : UserId) (db : Db) : Db :=
  { db with blocks := db.blocks.insert { blockerId := a, blockedId := b, createdAt := db.now } }

/-- The persona of one participant. -/
def withPersona (r : RoomId) (u : UserId) (isAnonymous : Bool) (db : Db) : Db :=
  let set := fun p : RoomParticipant => { p with isAnonymous, lastSeenAt := db.now }
  { db with roomParticipants := db.roomParticipants.update (r, u) set fun _ => rfl }

/-- May the two be blocked from each other? -/
def blockable (db : Db) (a b : UserId) : Bool := a ≠ b && (db.userExists a && db.userExists b)

/-- May the caller delete the community? -/
def ownsCommunity (db : Db) (id : CommunityId) (u : UserId) : Bool :=
  match memberContext db id u with
  | .ok m => m.isOwner
  | .error _ => false

theorem tables_block (a b : UserId) (db : Db) :
    tables ((block a b).exec db).2 = tables (if blockable db a b then blocked a b db else db) := by
  unfold block blockable ensureDistinctUsers
  rw [Prog.exec_lift_bind]
  by_cases hab : a = b
  · simp [hab, liftDomain]
  · simp only [hab, if_false, liftDomain, SqlM.exec_check_bind, ne_eq, not_false_eq_true, decide_true, Bool.true_and]
    split <;> rfl

theorem tables_setPersona (r : RoomId) (u : UserId) (isAnonymous : Bool) (db : Db) :
    tables ((setPersona r u isAnonymous).exec db).2 =
      tables (if (visibleAccess db r u).isOk then withPersona r u isAnonymous db else db) := by
  unfold setPersona
  rw [Prog.exec_query_bind]
  rcases visibleAccess db r u with e | a
  · rfl
  · simp only
    unfold setParticipantPersona SqlM.found
    rw [Prog.exec_bind]
    simp only [Prog.exec_read_bind, Prog.exec_modify_bind, Prog.exec_read]
    split <;> rfl

theorem tables_deleteCommunity (id : CommunityId) (u : UserId) (db : Db) :
    tables ((deleteCommunity id u).exec db).2 =
      tables (if ownsCommunity db id u then deleteCommunityRow id db else db) := by
  unfold deleteCommunity ownsCommunity
  rw [Prog.exec_query_bind]
  rcases memberContext db id u with e | m
  · rfl
  · simp only
    rw [Prog.exec_ensure_bind]
    by_cases h : m.isOwner
    · rw [if_pos h, if_pos h]
      rfl
    · rw [if_neg h, if_neg h]

/-! ## The step -/

/-- The tables a request leaves. -/
def effect (db : Db) : Request → Db
  | .createCommunity id owner roles rooms => ((createCommunity id owner roles rooms).exec db).2
  | .deleteCommunity id u => if ownsCommunity db id u then deleteCommunityRow id db else db
  | .block a b => if blockable db a b then blocked a b db else db
  | .unblock a b => { db with blocks := db.blocks.delete (a, b) }
  | .create id communityId u input =>
    match created db id communityId u input with
    | some room => opened u input room db
    | none => db
  | .openDirect id a b name handle =>
    match openedDirect db id a b name handle with
    | some room => opened a (directInput b name handle) room db
    | none => db
  | .join r u => if (visibleAccess db r u).isOk then seated r u (joinRole db r u) db else db
  | .leave r u => unseated r u db
  | .setPersona r u isAnonymous =>
    if (visibleAccess db r u).isOk then withPersona r u isAnonymous db else db
  | .update r u input =>
    match acceptedUpdate db r u input with
    | some input' => withUpdate r input' db
    | none => db
  | .delete r u => if deletable db r u then deleteRoomRow r db else db
  | .expire => expired db
  | .reap grace => endRooms (abandoned db.now grace) db
  | .terminate r => if db.roomExists r then removeParticipants r (closeRoom r db) else db
  | .clock now => { db with now }
  | .register _ | .govern _ | .get .. | .mediaJoin .. | .post .. | .history .. => db

theorem exec_void {α : Type} (m : SqlM α) (db : Db) :
    ((void m).exec db).2 = (m.exec db).2 ∧ ((void m).exec db).1.isOk = (m.exec db).1.isOk := by
  unfold void
  rw [Prog.exec_bind]
  rcases m.exec db with ⟨_ | a, db'⟩ <;> exact ⟨rfl, rfl⟩

/-- Reading a room, a token or its history writes nothing, and a post writes a message only. -/
theorem frames_quiet :
    (∀ r u, Prog.Frames tables (get r u)) ∧
    (∀ config r u name, Prog.Frames tables (mediaJoin config r u name)) ∧
    (∀ id r u content isAnonymous verdict replyTo,
      Prog.Frames tables (post id r u content isAnonymous verdict replyTo)) ∧
    (∀ r u before beforeId limit, Prog.Frames tables (history r u before beforeId limit)) := by
  refine ⟨fun r u => ?_, fun config r u name => ?_, fun id r u content isAnonymous verdict replyTo => ?_,
    fun r u before beforeId limit => ?_⟩
  · exact (Prog.Frames.query _).bind fun _ => Prog.Frames.pure _
  · refine (Prog.Frames.query _).bind fun _ => (Prog.Frames.lift _).bind fun _ => ?_
    exact (Prog.Frames.ensure _ _).bind fun _ => (Prog.Frames.read _).bind fun _ => Prog.Frames.pure _
  · refine (Prog.Frames.query _).bind fun _ => (Prog.Frames.read _).bind fun _ => ?_
    unfold insertMessage
    refine Prog.Frames.bind (SqlM.frames_check _ _) fun _ => ?_
    refine Prog.Frames.bind (SqlM.frames_check _ _) fun _ => ?_
    refine (Prog.Frames.read _).bind fun _ => ?_
    exact Prog.Frames.bind (Prog.Frames.modify fun _ => rfl) fun _ => Prog.Frames.pure _
  · exact (Prog.Frames.query _).bind fun _ => Prog.Frames.read _

theorem frames_register (user : User) : Prog.Frames tables (register user) := by
  unfold register
  refine Prog.Frames.bind (SqlM.frames_check _ _) fun _ => ?_
  exact Prog.Frames.modify fun _ => rfl

theorem tables_step (db : Db) (req : Request) : tables (step db req) = tables (effect db req) := by
  unfold step
  cases req with
  | register user => exact frames_register user db
  | createCommunity id owner roles rooms => rfl
  | deleteCommunity id u => exact tables_deleteCommunity id u db
  | govern g => rfl
  | block a b => exact tables_block a b db
  | unblock a b =>
    unfold handle unblock effect
    simp only [Prog.exec_read_bind, Prog.exec_modify_bind]
    rw [Prog.exec_ensure]
  | create id communityId u input =>
    unfold handle effect
    rw [(exec_void _ _).1]
    exact tables_of_core (core_create id communityId u input db)
  | openDirect id a b name handle =>
    unfold Room.handle effect
    rw [(exec_void _ _).1]
    exact tables_of_core (core_openDirect id a b name handle db)
  | get r u => unfold handle; rw [(exec_void _ _).1]; exact frames_quiet.1 r u db
  | join r u =>
    unfold handle effect
    rw [(exec_void _ _).1]
    exact tables_of_core (core_join r u db)
  | leave r u => rfl
  | setPersona r u isAnonymous =>
    unfold handle effect
    rw [(exec_void _ _).1]
    exact tables_setPersona r u isAnonymous db
  | update r u input =>
    unfold handle effect
    rw [(exec_void _ _).1]
    exact congrArg tables (state_update r u input db)
  | delete r u => exact congrArg tables (exec_delete r u db)
  | mediaJoin config r u name =>
    unfold handle
    rw [(exec_void _ _).1]
    exact frames_quiet.2.1 config r u name db
  | post id r u content isAnonymous verdict replyTo =>
    unfold handle
    rw [(exec_void _ _).1]
    exact frames_quiet.2.2.1 id r u content isAnonymous verdict replyTo db
  | history r u before beforeId limit =>
    unfold handle
    rw [(exec_void _ _).1]
    exact frames_quiet.2.2.2 r u before beforeId limit db
  | expire =>
    unfold handle effect
    rw [(exec_void _ _).1, exec_expire]
  | reap grace => rfl
  | terminate r => exact congrArg tables (exec_terminate r db)
  | clock now => rfl

end Genzh.Room
