/-
One request after another: everything a client, the scheduler or staff can ask of the rooms and of what
decides about them, as labels of a run. `handle` calls the service of a request and `step` is the
database it leaves; `effect` says the same in closed form, up to the tables no check reads.

Requests whose subject is elsewhere (an account registers, the roles of a community change, a message
is posted) are there too, since a run mixes them with the others. `govern` stands for every write of the
community services to memberships, roles and overrides: it puts any tables in their place.
-/
import Genzh.Lib.Run
import Genzh.Room.Effect
import Genzh.Room.Media
import Genzh.Messaging.Service
import Genzh.Community.Service

namespace Genzh.Room

open Genzh.Lib Genzh.Domain Genzh.Infrastructure Genzh.Community Genzh.Social Genzh.Messaging Genzh.Admin

/-- An active account under a handle. -/
def account (id : UserId) (handle : String) : User :=
  { id, handle, email := handle ++ "@genzh.test", isActive := true }

/-- The tables that say who holds which role where. -/
structure Governance where
  communityMembers : Table CommunityMember
  roles : Table Role
  memberRoles : Table MemberRole
  rolePermissions : Table RolePermission
  roomPermissions : Table RoomPermission

inductive Request where
  | register (user : User)
  | createCommunity (id : CommunityId) (owner : UserId) (roles : List (RoleId × RoleTemplate))
      (rooms : List (RoomId × RoomTemplate))
  | deleteCommunity (id : CommunityId) (u : UserId)
  | govern (g : Governance)
  | block (a b : UserId)
  | unblock (a b : UserId)
  | create (id : RoomId) (communityId : Option CommunityId) (u : UserId) (input : CreateRoom)
  | openDirect (id : RoomId) (a b : UserId) (targetName targetHandle : String)
  | get (r : RoomId) (u : UserId)
  | join (r : RoomId) (u : UserId)
  | leave (r : RoomId) (u : UserId)
  | setPersona (r : RoomId) (u : UserId) (isAnonymous : Bool)
  | update (r : RoomId) (u : UserId) (input : UpdateRoom)
  | delete (r : RoomId) (u : UserId)
  | mediaJoin (config : MediaConfig) (r : RoomId) (u : UserId) (displayName : String)
  | post (id : MessageId) (r : RoomId) (u : UserId) (content : String) (isAnonymous : Bool)
      (verdict : Option FloodVerdict) (replyTo : Option MessageId)
  | history (r : RoomId) (u : UserId) (before : Option Timestamp) (beforeId : Option MessageId) (limit : Option Int)
  | expire
  | reap (grace : Duration)
  | terminate (r : RoomId)
  | clock (now : Timestamp)

/-- An account appears: the row of `users`, under its unique handle and email. -/
def register (user : User) : SqlM Unit := do
  SqlM.check (fun db => db.users.rows.all fun u => u.id ≠ user.id && u.handle ≠ user.handle && u.email ≠ user.email)
    (.conflict "users")
  Prog.modify fun db => { db with users := db.users.insert user }

def govern (g : Governance) : SqlM Unit :=
  Prog.modify fun db =>
    { db with communityMembers := g.communityMembers, roles := g.roles, memberRoles := g.memberRoles,
              rolePermissions := g.rolePermissions, roomPermissions := g.roomPermissions }

/-- Drop what a call returns. -/
def void {α : Type} (m : SqlM α) : SqlM Unit := do
  let _ ← m
  pure ()

/-- The call a request makes. -/
def handle : Request → SqlM Unit
  | .register user => register user
  | .createCommunity id owner roles rooms => createCommunity id owner roles rooms
  | .deleteCommunity id u => deleteCommunity id u
  | .govern g => govern g
  | .block a b => block a b
  | .unblock a b => unblock a b
  | .create id communityId u input => void (create id communityId u input)
  | .openDirect id a b name handle => void (openDirect id a b name handle)
  | .get r u => void (get r u)
  | .join r u => void (join r u)
  | .leave r u => void (leave r u)
  | .setPersona r u isAnonymous => void (setPersona r u isAnonymous)
  | .update r u input => void (update r u input)
  | .delete r u => delete r u
  | .mediaJoin config r u name => void (mediaJoin config r u name)
  | .post id r u content isAnonymous verdict replyTo => void (post id r u content isAnonymous verdict replyTo)
  | .history r u before beforeId limit => void (history r u before beforeId limit)
  | .expire => void expireEphemeralRooms
  | .reap grace => void (endEmptyPlaygroundRooms grace)
  | .terminate r => terminateSession r
  | .clock now => Prog.modify fun db => { db with now }

/-- The database a request leaves, whatever its outcome. -/
def step (db : Db) (req : Request) : Db := ((handle req).exec db).2

/-- Did the request succeed? -/
def succeeds (db : Db) (req : Request) : Bool := ((handle req).exec db).1.isOk

end Genzh.Room

namespace Genzh.Room

open Genzh.Lib Genzh.Domain Genzh.Infrastructure Genzh.Community Genzh.Social Genzh.Messaging Genzh.Admin

/-! ## What the calls of the rooms leave alone

What the calls of the rooms leave alone: everything outside the tables the rooms, their participants and the aliases of
these are kept in. An observation that ignores the three tables is the same after any such call, whatever its outcome.
-/

/-- The observation reads nothing of the rooms, of who is in them, and under which alias. -/
def IgnoresRooms {γ : Type} (obs : Db → γ) : Prop := ∀ db rooms participants identities,
  obs { db with rooms, roomParticipants := participants, roomAnonymousIdentities := identities } = obs db

section Frames

variable {γ : Type} {obs : Db → γ} (h : IgnoresRooms obs)

include h

theorem frames_insertRoom (room : Room) : Prog.Frames obs (insertRoom room) := by
  refine (SqlM.frames_check _ _).bind fun _ => (SqlM.frames_check _ _).bind fun _ => (SqlM.frames_check _ _).bind fun _ => ?_
  refine (Prog.Frames.read _).bind fun _ => Prog.Frames.bind (Prog.Frames.modify fun db => ?_) fun _ => Prog.Frames.pure _
  exact h db _ db.roomParticipants db.roomAnonymousIdentities

theorem frames_updateRoom (r : RoomId) (input : UpdateRoom) : Prog.Frames obs (updateRoom r input) := by
  refine (Prog.Frames.read _).bind fun _ => (Prog.Frames.read _).bind fun row => ?_
  cases row with
  | none => exact Prog.Frames.lift _
  | some row =>
    refine (SqlM.frames_check _ _).bind fun _ => Prog.Frames.bind (Prog.Frames.modify fun db => ?_) fun _ => Prog.Frames.pure _
    exact h db _ db.roomParticipants db.roomAnonymousIdentities

theorem frames_recount (r : RoomId) : Prog.Frames obs (Prog.modify (recountParticipants r) : SqlM Unit) :=
  Prog.Frames.modify fun db => h db _ db.roomParticipants db.roomAnonymousIdentities

theorem frames_joinRoom (r : RoomId) (u : UserId) (role : RoomParticipantRole) : Prog.Frames obs (joinRoom r u role) := by
  refine Prog.Frames.transaction ((SqlM.frames_check _ _).bind fun _ => ?_)
  refine Prog.Frames.bind (Prog.Frames.modify fun db => h db db.rooms _ db.roomAnonymousIdentities) fun _ => ?_
  exact (Prog.Frames.read _).bind fun _ => (frames_recount h r).bind fun _ => Prog.Frames.pure _

theorem frames_leaveRoom (r : RoomId) (u : UserId) : Prog.Frames obs (leaveRoom r u) := by
  refine Prog.Frames.transaction ((Prog.Frames.read _).bind fun _ => ?_)
  refine Prog.Frames.bind (Prog.Frames.modify fun db => h db db.rooms _ db.roomAnonymousIdentities) fun _ => ?_
  exact (frames_recount h r).bind fun _ => Prog.Frames.pure _

theorem frames_alias (r : RoomId) (u : UserId) : Prog.Frames obs (getOrCreateAnonymousIdentity r u) :=
  frames_identity (fun db identities => h db db.rooms db.roomParticipants identities) r u

theorem frames_seat (room : Room) (u : UserId) (role : RoomParticipantRole) : Prog.Frames obs (seat room u role) := by
  refine Prog.Frames.bind (frames_joinRoom h room.id u role).attempt fun _ => ?_
  split
  · exact (frames_alias h room.id u).attempt
  · exact Prog.Frames.pure _

theorem frames_create (id : RoomId) (communityId : Option CommunityId) (u : UserId) (input : CreateRoom) :
    Prog.Frames obs (create id communityId u input) := by
  refine (Prog.Frames.query _).bind fun candidate => (frames_insertRoom h candidate).bind fun created => ?_
  refine (frames_seat h created u .owner).bind fun _ => ?_
  exact (Prog.Frames.forEach fun pid _ => frames_seat h created pid .participant).bind fun _ => Prog.Frames.pure _

theorem frames_openDirect (id : RoomId) (a b : UserId) (name handle : String) :
    Prog.Frames obs (openDirect id a b name handle) := by
  refine (Prog.Frames.query _).bind fun _ => (Prog.Frames.read _).bind fun existing => ?_
  cases existing with
  | some room => exact Prog.Frames.pure _
  | none => exact (frames_create h _ _ _ _).bind fun _ => Prog.Frames.pure _

theorem frames_join (r : RoomId) (u : UserId) : Prog.Frames obs (join r u) := by
  refine (Prog.Frames.query _).bind fun a => (frames_joinRoom h _ _ _).bind fun _ => ?_
  refine Prog.Frames.bind ?_ fun _ => (Prog.Frames.read _).bind fun _ => Prog.Frames.pure _
  unfold joinIdentity
  split
  · exact (frames_alias h r u).bind fun _ => Prog.Frames.pure _
  · exact Prog.Frames.pure _

theorem frames_setPersona (r : RoomId) (u : UserId) (isAnonymous : Bool) : Prog.Frames obs (setPersona r u isAnonymous) := by
  refine (Prog.Frames.query _).bind fun _ => Prog.Frames.bind ?_ fun row => ?_
  · refine (Prog.Frames.read _).bind fun _ => Prog.Frames.bind (Prog.Frames.modify fun db => ?_) fun _ => Prog.Frames.read _
    exact h db db.rooms _ db.roomAnonymousIdentities
  · cases row with
    | some p => exact Prog.Frames.pure _
    | none => exact Prog.Frames.lift _

theorem frames_update (r : RoomId) (u : UserId) (input : UpdateRoom) : Prog.Frames obs (update r u input) :=
  (Prog.Frames.query _).bind fun _ => (Prog.Frames.lift _).bind fun _ => (Prog.Frames.lift _).bind fun _ =>
    frames_updateRoom h _ _

theorem frames_terminate (r : RoomId) : Prog.Frames obs (terminateSession r) := by
  refine (Prog.Frames.read _).bind fun row => Prog.Frames.bind ?_ fun _ => ?_
  · cases row with
    | some row => exact Prog.Frames.pure _
    | none => exact Prog.Frames.lift _
  · refine Prog.Frames.bind (Prog.Frames.modify fun db => ?_) fun _ => Prog.Frames.modify fun db => ?_
    · exact h db _ db.roomParticipants db.roomAnonymousIdentities
    · exact h db db.rooms _ db.roomAnonymousIdentities

theorem frames_endRooms (p : RoomRow → Bool) : Prog.Frames obs (Prog.modify (endRooms p) : SqlM Unit) :=
  Prog.Frames.modify fun db => h db _ db.roomParticipants db.roomAnonymousIdentities

theorem frames_expire : Prog.Frames obs expireEphemeralRooms := by
  refine Prog.Frames.transaction ((Prog.Frames.read _).bind fun _ => (Prog.Frames.read _).bind fun _ => ?_)
  refine (frames_endRooms h _).bind fun _ => ?_
  split
  · exact Prog.Frames.bind (Prog.Frames.modify fun db => h db db.rooms _ db.roomAnonymousIdentities) fun _ => Prog.Frames.pure _
  · exact Prog.Frames.pure _

theorem frames_reap (grace : Duration) : Prog.Frames obs (endEmptyPlaygroundRooms grace) := by
  refine Prog.Frames.transaction ((Prog.Frames.read _).bind fun _ => (Prog.Frames.read _).bind fun _ => ?_)
  exact (frames_endRooms h _).bind fun _ => Prog.Frames.pure _

omit h

theorem frames_void {α : Type} {m : SqlM α} (hm : Prog.Frames obs m) : Prog.Frames obs (void m) :=
  hm.bind fun _ => Prog.Frames.pure _

theorem frames_mediaJoin (config : MediaConfig) (r : RoomId) (u : UserId) (name : String) :
    Prog.Frames obs (mediaJoin config r u name) := by
  refine (Prog.Frames.query _).bind fun _ => (Prog.Frames.lift _).bind fun _ => ?_
  exact (Prog.Frames.ensure _ _).bind fun _ => (Prog.Frames.read _).bind fun _ => Prog.Frames.pure _

theorem frames_blocking (h : ∀ db blocks friendships, obs { db with blocks, friendships } = obs db) (a b : UserId) :
    Prog.Frames obs (block a b) := by
  refine (Prog.Frames.lift _).bind fun _ => (SqlM.frames_check _ _).bind fun _ => ?_
  exact Prog.Frames.bind (Prog.Frames.modify fun db => h db _ db.friendships) fun _ =>
    Prog.Frames.modify fun db => h db db.blocks _

theorem frames_unblocking (h : ∀ db blocks, obs { db with blocks } = obs db) (a b : UserId) : Prog.Frames obs (unblock a b) := by
  refine (Prog.Frames.read _).bind fun _ => ?_
  exact Prog.Frames.bind (Prog.Frames.modify fun db => h db _) fun _ => Prog.Frames.ensure _ _

theorem frames_founding (h : ∀ db communities communityMembers roles rolePermissions rooms,
      obs { db with communities, communityMembers, roles, rolePermissions, rooms } = obs db)
    (id : CommunityId) (owner : UserId) (roles : List (RoleId × RoleTemplate)) (rooms : List (RoomId × RoomTemplate)) :
    Prog.Frames obs (createCommunity id owner roles rooms) := by
  refine Prog.Frames.transaction ((SqlM.frames_check _ _).bind fun _ => (SqlM.frames_check _ _).bind fun _ => ?_)
  refine Prog.Frames.bind (Prog.Frames.modify fun db => h db _ db.communityMembers db.roles db.rolePermissions db.rooms) fun _ => ?_
  refine Prog.Frames.bind (Prog.Frames.forEach fun role _ => (SqlM.frames_check _ _).bind fun _ => ?_) fun _ => ?_
  · exact Prog.Frames.modify fun db => h db db.communities db.communityMembers _ _ db.rooms
  · refine Prog.Frames.bind (Prog.Frames.forEach fun room _ => (SqlM.frames_check _ _).bind fun _ => ?_) fun _ => ?_
    · exact Prog.Frames.modify fun db => h db db.communities db.communityMembers db.roles db.rolePermissions _
    · exact Prog.Frames.modify fun db => h db db.communities _ db.roles db.rolePermissions db.rooms

theorem frames_registering (h : ∀ db users, obs { db with users } = obs db) (user : User) : Prog.Frames obs (register user) :=
  (SqlM.frames_check _ _).bind fun _ => Prog.Frames.modify fun db => h db _

end Frames

/-- Is the request about the rooms alone: who opens, enters, changes or ends them? -/
def Request.isAboutRooms : Request → Bool
  | .create .. | .openDirect .. | .get .. | .join .. | .leave .. | .setPersona .. | .update .. | .mediaJoin .. | .history ..
  | .expire | .reap _ | .terminate _ => true
  | _ => false

theorem frames_handle {γ : Type} {obs : Db → γ} (h : IgnoresRooms obs) {req : Request} (hreq : req.isAboutRooms = true) :
    Prog.Frames obs (handle req) := by
  cases req with
  | create id communityId u input => exact frames_void (frames_create h id communityId u input)
  | openDirect id a b name handle => exact frames_void (frames_openDirect h id a b name handle)
  | get r u => exact frames_void ((Prog.Frames.query _).bind fun _ => Prog.Frames.pure _)
  | join r u => exact frames_void (frames_join h r u)
  | leave r u => exact frames_void (frames_leaveRoom h r u)
  | setPersona r u isAnonymous => exact frames_void (frames_setPersona h r u isAnonymous)
  | update r u input => exact frames_void (frames_update h r u input)
  | mediaJoin config r u name => exact frames_void (frames_mediaJoin config r u name)
  | history r u before beforeId limit => exact frames_void ((Prog.Frames.query _).bind fun _ => Prog.Frames.read _)
  | expire => exact frames_void (frames_expire h)
  | reap grace => exact frames_void (frames_reap h grace)
  | terminate r => exact frames_terminate h r
  | _ => cases hreq

end Genzh.Room
