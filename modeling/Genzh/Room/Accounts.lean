/-
No call about rooms, blocks or communities writes an account: each leaves the table of users alone,
whatever its outcome.
-/
import Genzh.Room.Request

namespace Genzh.Room

open Genzh.Lib Genzh.Domain Genzh.Infrastructure Genzh.Community Genzh.Social Genzh.Messaging Genzh.Admin

/-! ## Repository calls -/

theorem users_insertRoom (room : Room) : Prog.Frames Db.users (insertRoom room) := by
  refine Prog.Frames.bind (SqlM.frames_check _ _) fun _ => ?_
  refine Prog.Frames.bind (SqlM.frames_check _ _) fun _ => ?_
  refine Prog.Frames.bind (SqlM.frames_check _ _) fun _ => ?_
  refine (Prog.Frames.read _).bind fun _ => ?_
  exact Prog.Frames.bind (Prog.Frames.modify fun _ => rfl) fun _ => Prog.Frames.pure _

theorem users_updateRoom (r : RoomId) (input : UpdateRoom) : Prog.Frames Db.users (updateRoom r input) := by
  refine (Prog.Frames.read _).bind fun _ => (Prog.Frames.read _).bind fun row => ?_
  cases row with
  | none => exact Prog.Frames.lift _
  | some row =>
    refine Prog.Frames.bind (SqlM.frames_check _ _) fun _ => ?_
    exact Prog.Frames.bind (Prog.Frames.modify fun _ => rfl) fun _ => Prog.Frames.pure _

theorem users_joinRoom (r : RoomId) (u : UserId) (role : RoomParticipantRole) :
    Prog.Frames Db.users (joinRoom r u role) := by
  refine Prog.Frames.transaction ((SqlM.frames_check _ _).bind fun _ => ?_)
  refine Prog.Frames.bind (Prog.Frames.modify fun _ => rfl) fun _ => ?_
  refine (Prog.Frames.read _).bind fun _ => ?_
  exact Prog.Frames.bind (Prog.Frames.modify fun _ => rfl) fun _ => Prog.Frames.pure _

theorem users_leaveRoom (r : RoomId) (u : UserId) : Prog.Frames Db.users (leaveRoom r u) := by
  refine Prog.Frames.transaction ((Prog.Frames.read _).bind fun _ => ?_)
  refine Prog.Frames.bind (Prog.Frames.modify fun _ => rfl) fun _ => ?_
  exact Prog.Frames.bind (Prog.Frames.modify fun _ => rfl) fun _ => Prog.Frames.pure _

/-! ## Services -/

theorem users_seat (room : Room) (u : UserId) (role : RoomParticipantRole) : Prog.Frames Db.users (seat room u role) := by
  refine Prog.Frames.bind (users_joinRoom room.id u role).attempt fun _ => ?_
  split
  · exact (frames_identity (fun _ _ => rfl) room.id u).attempt
  · exact Prog.Frames.pure _

theorem users_create (id : RoomId) (communityId : Option CommunityId) (u : UserId) (input : CreateRoom) :
    Prog.Frames Db.users (create id communityId u input) := by
  refine (Prog.Frames.query _).bind fun candidate => (users_insertRoom candidate).bind fun created => ?_
  refine (users_seat created u .owner).bind fun _ => ?_
  exact (Prog.Frames.forEach fun pid _ => users_seat created pid .participant).bind fun _ => Prog.Frames.pure _

theorem users_openDirect (id : RoomId) (a b : UserId) (name handle : String) :
    Prog.Frames Db.users (openDirect id a b name handle) := by
  refine (Prog.Frames.query _).bind fun _ => (Prog.Frames.read _).bind fun existing => ?_
  cases existing with
  | some room => exact Prog.Frames.pure _
  | none => exact (users_create _ _ _ _).bind fun _ => Prog.Frames.pure _

theorem users_join (r : RoomId) (u : UserId) : Prog.Frames Db.users (join r u) := by
  refine (Prog.Frames.query _).bind fun a => (users_joinRoom _ _ _).bind fun _ => ?_
  refine Prog.Frames.bind ?_ fun _ => (Prog.Frames.read _).bind fun _ => Prog.Frames.pure _
  unfold joinIdentity
  split
  · exact (frames_identity (fun _ _ => rfl) r u).bind fun _ => Prog.Frames.pure _
  · exact Prog.Frames.pure _

theorem users_setPersona (r : RoomId) (u : UserId) (isAnonymous : Bool) :
    Prog.Frames Db.users (setPersona r u isAnonymous) := by
  refine (Prog.Frames.query _).bind fun _ => Prog.Frames.bind ?_ fun row => ?_
  · refine (Prog.Frames.read _).bind fun _ => ?_
    exact Prog.Frames.bind (Prog.Frames.modify fun _ => rfl) fun _ => Prog.Frames.read _
  · cases row with
    | some p => exact Prog.Frames.pure _
    | none => exact Prog.Frames.lift _

theorem users_update (r : RoomId) (u : UserId) (input : UpdateRoom) : Prog.Frames Db.users (update r u input) := by
  refine (Prog.Frames.query _).bind fun _ => (Prog.Frames.lift _).bind fun _ => (Prog.Frames.lift _).bind fun _ => ?_
  exact users_updateRoom _ _

theorem users_delete (r : RoomId) (u : UserId) : Prog.Frames Db.users (delete r u) := by
  refine (Prog.Frames.query _).bind fun _ => (Prog.Frames.lift _).bind fun _ => Prog.Frames.bind ?_ fun _ => ?_
  · refine (Prog.Frames.read _).bind fun _ => ?_
    exact Prog.Frames.bind (Prog.Frames.modify fun _ => rfl) fun _ => Prog.Frames.pure _
  · exact Prog.Frames.ensure _ _

theorem users_post (id : MessageId) (r : RoomId) (u : UserId) (content : String) (isAnonymous : Bool)
    (verdict : Option FloodVerdict) (replyTo : Option MessageId) :
    Prog.Frames Db.users (post id r u content isAnonymous verdict replyTo) := by
  refine (Prog.Frames.query _).bind fun _ => (Prog.Frames.read _).bind fun _ => ?_
  refine Prog.Frames.bind (SqlM.frames_check _ _) fun _ => ?_
  refine Prog.Frames.bind (SqlM.frames_check _ _) fun _ => ?_
  refine (Prog.Frames.read _).bind fun _ => ?_
  exact Prog.Frames.bind (Prog.Frames.modify fun _ => rfl) fun _ => Prog.Frames.pure _

theorem users_mediaJoin (config : MediaConfig) (r : RoomId) (u : UserId) (name : String) :
    Prog.Frames Db.users (mediaJoin config r u name) := by
  refine (Prog.Frames.query _).bind fun _ => (Prog.Frames.lift _).bind fun _ => ?_
  exact (Prog.Frames.ensure _ _).bind fun _ => (Prog.Frames.read _).bind fun _ => Prog.Frames.pure _

theorem users_terminate (r : RoomId) : Prog.Frames Db.users (terminateSession r) := by
  refine (Prog.Frames.read _).bind fun row => Prog.Frames.bind ?_ fun _ => ?_
  · cases row with
    | some row => exact Prog.Frames.pure _
    | none => exact Prog.Frames.lift _
  · exact Prog.Frames.bind (Prog.Frames.modify fun _ => rfl) fun _ => Prog.Frames.modify fun _ => rfl

theorem users_createCommunity (id : CommunityId) (u : UserId) (roles : List (RoleId × RoleTemplate))
    (rooms : List (RoomId × RoomTemplate)) : Prog.Frames Db.users (createCommunity id u roles rooms) := by
  refine Prog.Frames.transaction ((SqlM.frames_check _ _).bind fun _ => (SqlM.frames_check _ _).bind fun _ => ?_)
  refine Prog.Frames.bind (Prog.Frames.modify fun _ => rfl) fun _ => ?_
  refine Prog.Frames.bind (Prog.Frames.forEach fun role _ => ?_) fun _ => ?_
  · exact (SqlM.frames_check _ _).bind fun _ => Prog.Frames.modify fun _ => rfl
  · refine Prog.Frames.bind (Prog.Frames.forEach fun room _ => ?_) fun _ => Prog.Frames.modify fun _ => rfl
    exact (SqlM.frames_check _ _).bind fun _ => Prog.Frames.modify fun _ => rfl

theorem users_deleteCommunity (id : CommunityId) (u : UserId) : Prog.Frames Db.users (deleteCommunity id u) :=
  (Prog.Frames.query _).bind fun _ => (Prog.Frames.ensure _ _).bind fun _ => Prog.Frames.modify fun _ => rfl

theorem users_block (a b : UserId) : Prog.Frames Db.users (block a b) := by
  refine (Prog.Frames.lift _).bind fun _ => (SqlM.frames_check _ _).bind fun _ => ?_
  exact Prog.Frames.bind (Prog.Frames.modify fun _ => rfl) fun _ => Prog.Frames.modify fun _ => rfl

theorem users_unblock (a b : UserId) : Prog.Frames Db.users (unblock a b) := by
  refine (Prog.Frames.read _).bind fun _ => ?_
  exact Prog.Frames.bind (Prog.Frames.modify fun _ => rfl) fun _ => Prog.Frames.ensure _ _

theorem users_expire : Prog.Frames Db.users expireEphemeralRooms := by
  refine Prog.Frames.transaction ((Prog.Frames.read _).bind fun _ => (Prog.Frames.read _).bind fun _ => ?_)
  refine Prog.Frames.bind (Prog.Frames.modify fun _ => rfl) fun _ => ?_
  split
  · exact Prog.Frames.bind (Prog.Frames.modify fun _ => rfl) fun _ => Prog.Frames.pure _
  · exact Prog.Frames.pure _

theorem users_reap (grace : Duration) : Prog.Frames Db.users (endEmptyPlaygroundRooms grace) := by
  refine Prog.Frames.transaction ((Prog.Frames.read _).bind fun _ => (Prog.Frames.read _).bind fun _ => ?_)
  exact Prog.Frames.bind (Prog.Frames.modify fun _ => rfl) fun _ => Prog.Frames.pure _

/-- What comes back does not matter to the accounts. -/
theorem users_void {α : Type} {m : SqlM α} (h : Prog.Frames Db.users m) : Prog.Frames Db.users (void m) :=
  h.bind fun _ => Prog.Frames.pure _

/-- Is it the request that writes an account? -/
def Request.isRegister : Request → Bool
  | .register _ => true
  | _ => false

/-- Every request but a registration leaves the accounts alone. -/
theorem users_handle {req : Request} (h : req.isRegister = false) : Prog.Frames Db.users (handle req) := by
  cases req with
  | register user => cases h
  | createCommunity id owner roles rooms => exact users_createCommunity id owner roles rooms
  | deleteCommunity id u => exact users_deleteCommunity id u
  | govern g => exact Prog.Frames.modify fun _ => rfl
  | block a b => exact users_block a b
  | unblock a b => exact users_unblock a b
  | create id communityId u input => exact users_void (users_create id communityId u input)
  | openDirect id a b name handle => exact users_void (users_openDirect id a b name handle)
  | get r u => exact users_void ((Prog.Frames.query _).bind fun _ => Prog.Frames.pure _)
  | join r u => exact users_void (users_join r u)
  | leave r u => exact users_void (users_leaveRoom r u)
  | setPersona r u isAnonymous => exact users_void (users_setPersona r u isAnonymous)
  | update r u input => exact users_void (users_update r u input)
  | delete r u => exact users_delete r u
  | mediaJoin config r u name => exact users_void (users_mediaJoin config r u name)
  | post id r u content isAnonymous verdict replyTo =>
    exact users_void (users_post id r u content isAnonymous verdict replyTo)
  | history r u before beforeId limit => exact users_void ((Prog.Frames.query _).bind fun _ => Prog.Frames.read _)
  | expire => exact users_void users_expire
  | reap grace => exact users_void (users_reap grace)
  | terminate r => exact users_terminate r
  | clock now => exact Prog.Frames.modify fun _ => rfl

end Genzh.Room
