/-
What a client is answered: a status and a body, and for a failure a code and a text that say which it was.

A friend request and the opening of a conversation are refused across a block with an answer of their own, which nobody
gets whose request was declined: somebody who is blocked finds out.
-/
import Genzh.Api.Endpoints
import Genzh.Social.Requests
import Genzh.Room.Inversion

namespace Genzh.Api

open Genzh.Lib Genzh.Domain Genzh.Infrastructure Genzh.Social Genzh.Room

/-! ## Answers -/

/-- The answer to a request. A handler that panics gives none. -/
inductive Answer (α : Type) where
  | success (status : Nat) (body : α)
  | failure (status : Nat) (code message : String)
  | dropped
  deriving DecidableEq, Repr

namespace Answer

def status {α : Type} : Answer α → Option Nat
  | success status _ | failure status _ _ => some status
  | dropped => none

end Answer

/-- Map a denied permission onto a code a client can branch on. -/
def roomAccessCode (permission : String) : String :=
  match permission with
  | "view_room" => "ROOM_ACCESS_DENIED"
  | "speak" => "SPEAK_DENIED"
  | "use_video" => "VIDEO_DENIED"
  | "screen_share" => "SCREEN_SHARE_DENIED"
  | other => "PERMISSION_DENIED_" ++ String.ofList (other.toList.map Char.toUpper)

def describePermission (permission : String) : String :=
  match permission with
  | "view_room" => "join this room"
  | "send_message" => "post messages here"
  | "add_reaction" => "react to messages here"
  | "speak" => "speak in this room"
  | "use_video" => "turn on your camera here"
  | "screen_share" => "share your screen here"
  | "manage_room" => "manage this room"
  | "manage_roles" => "manage roles"
  | "manage_members" => "manage members"
  | "manage_community" => "manage this community"
  | "owner_only" => "do this — only the owner can"
  | "cannot_remove_owner" => "remove the owner"
  | "message_author_only" => "edit someone else's message"
  | "friend_request_addressee_only" => "respond to this request"
  | "blocked" => "contact this user"
  | _ => "do this"

/-- Stable machine-readable code. -/
def errorCode : DomainError → String
  | .invalid _ _ => "VALIDATION_FAILED"
  | .notFound _ => "NOT_FOUND"
  | .conflict _ => "CONFLICT"
  | .permissionDenied _ => "PERMISSION_DENIED"
  | .notAMember => "NOT_A_MEMBER"
  | .unsupportedRoomType _ => "UNSUPPORTED_ROOM_TYPE"
  | .unknownPermission _ => "UNKNOWN_PERMISSION"
  | .throttled _ _ => "RATE_LIMITED"

/-- The status, the code and the text of a refusal by the domain. -/
def domainParts (e : DomainError) : Nat × String × String :=
  match e with
  | .invalid _ _ | .unknownPermission _ | .unsupportedRoomType _ => (400, errorCode e, e.display)
  | .notFound _ => (404, errorCode e, e.display)
  | .conflict _ => (409, errorCode e, e.display)
  | .notAMember => (403, errorCode e, "You are not a member of this community")
  | .permissionDenied permission =>
    (403, roomAccessCode permission, "You do not have permission to " ++ describePermission permission)
  | .throttled reason _ => (429, errorCode e, reason)

/-- What is said of a failure that is nobody's business. -/
def internal : Nat × String × String := (500, "INTERNAL_ERROR", "Something went wrong on our side")

def failed {α : Type} (parts : Nat × String × String) : Answer α := .failure parts.1 parts.2.1 parts.2.2

/-- How the outcome of a service is answered. -/
def answer {α : Type} (status : Nat) : Except ServiceError α → Answer α
  | .ok body => .success status body
  | .error (.domain e) => failed (domainParts e)
  | .error (.repository _) => failed internal
  | .error .panicked => .dropped

/-- `POST /friends` -/
def friendRequestAnswer (db : Db) (u v : UserId) : Answer Friendship := answer 201 ((requestFriend u v).exec db).1

/-- The names a conversation is opened under: those of the account it is with, where the directory has it. -/
def targetNames (db : Db) (target : UserId) : String × String :=
  match db.users.find target, db.profiles.find target with
  | some user, some profile => (profile.displayName, user.handle)
  | _, _ => ("Friend", "")

/-- `POST /rooms/dm/{target_user_id}` -/
def directAnswer (id : RoomId) (db : Db) (u v : UserId) : Answer Room :=
  answer 200 (((openDirect id u v (targetNames db v).1 (targetNames db v).2).exec db).1.map (·.1))

/-! ## Across a block -/

/-- The second has blocked the first. -/
structure HasBlocked (db : Db) (v u : UserId) : Prop where
  distinct : u ≠ v
  stands : db.blocks.contains (v, u) = true

/-- All there is between the two is a request of the first that the second has declined. -/
structure OnlyDeclined (db : Db) (u v : UserId) : Prop where
  distinct : u ≠ v
  reachable : blockedEitherWay db u v = false
  declined : ∃ f, findBetween db u v = some f ∧ f.requesterId = u ∧ f.status = .declined

/-- The two answers are the same in both states. -/
structure SameAnswers (id : RoomId) (db db' : Db) (u v : UserId) : Prop where
  friendRequest : friendRequestAnswer db u v = friendRequestAnswer db' u v
  direct : directAnswer id db u v = directAnswer id db' u v

section Block

variable {id : RoomId} {db : Db} {u v : UserId}

theorem HasBlocked.refuses (h : HasBlocked db v u) : ensureCanReach db u v = .error (.denied "blocked") := by
  have hblocked : blockedEitherWay db u v = true := by
    unfold blockedEitherWay
    rw [h.stands, Bool.or_true]
  unfold ensureCanReach
  rw [if_neg h.distinct, if_pos hblocked]

/-- Who is blocked is told that they may not contact the other. -/
theorem answers_blocked (id : RoomId) (h : HasBlocked db v u) :
    friendRequestAnswer db u v = .failure 403 "PERMISSION_DENIED_BLOCKED" "You do not have permission to contact this user" ∧
    directAnswer id db u v = .failure 403 "PERMISSION_DENIED_BLOCKED" "You do not have permission to contact this user" := by
  have hparts : domainParts (.permissionDenied "blocked") =
      (403, "PERMISSION_DENIED_BLOCKED", "You do not have permission to contact this user") := by decide
  constructor
  · unfold friendRequestAnswer requestFriend ensureDistinctUsers
    rw [if_neg h.distinct, Prog.exec_lift_bind]
    simp only [liftDomain, Prog.exec_query_bind, h.refuses]
    unfold answer ServiceError.denied failed
    simp only [hparts]
  · unfold directAnswer openDirect
    rw [Prog.exec_query_bind, h.refuses]
    unfold answer ServiceError.denied failed Except.map
    simp only [hparts]

/-- Who was declined is told that there is a request. -/
theorem friendRequest_declined (h : OnlyDeclined db u v) :
    friendRequestAnswer db u v = .failure 409 "CONFLICT" "friendship already exists" := by
  obtain ⟨f, hfind, -, hstatus⟩ := h.declined
  unfold friendRequestAnswer requestFriend ensureDistinctUsers
  rw [if_neg h.distinct, Prog.exec_lift_bind]
  simp only [liftDomain, Prog.exec_query_bind, ensureCanReach_ok.2 (.inr h.reachable), Prog.exec_read_bind, hfind]
  -- only a pending request is answered by asking back
  rw [if_neg (by rw [hstatus]; exact fun h => (by cases h.1))]
  rfl

/-! ## Creating a conversation is never forbidden -/

/-- Is it some other error than that somebody may not? -/
def Permits : ServiceError → Prop
  | .domain (.permissionDenied _) | .domain .notAMember => False
  | _ => True

theorem status_of_permits {α : Type} {e : ServiceError} (h : Permits e) (status : Nat) :
    (answer status (.error e : Except ServiceError α)).status ≠ some 403 := by
  rcases e with e | e | _
  · cases e <;> first | exact h.elim | exact fun h => (by cases h)
  · exact fun h => (by cases h)
  · exact fun h => (by cases h)

/-- A value that is not valid is no matter of what somebody may. -/
theorem validated_permits {α : Type} {p : Prop} [Decidable p] {field message : String} {a : α} {e : ServiceError}
    (h : liftDomain (if p then .error (.invalid field message) else .ok a) = .error e) : Permits e := by
  split at h
  · cases h
    trivial
  · cases h

theorem roomExpiry_permits {now : Timestamp} {minutes : Option Int} {e : ServiceError} (h : roomExpiry now minutes = .error e) :
    Permits e := by
  unfold roomExpiry at h
  split at h
  · cases h
  · split at h <;> cases h
    trivial

theorem newRoom_permits {input : CreateRoom} {e : ServiceError} (h : newRoom db id none u input = .error e) : Permits e := by
  -- without a community nobody is asked what they may; the name, the size and the expiry are checked
  unfold newRoom at h
  rcases Prog.bind_eq_error h with h | ⟨_, -, h⟩
  · cases h
  rcases Prog.bind_eq_error h with h | ⟨name, -, h⟩
  · unfold validateRoomName at h
    exact validated_permits h
  rcases Prog.bind_eq_error h with h | ⟨_, -, h⟩
  · unfold validateCap at h
    exact validated_permits h
  rcases Prog.bind_eq_error h with h | ⟨expiresAt, -, h⟩
  · exact roomExpiry_permits h
  · cases h

theorem insertRoom_permits {room : Room} {e : ServiceError} {db' : Db} (h : (insertRoom room).exec db = (.error e, db')) : Permits e := by
  unfold insertRoom at h
  simp only [SqlM.exec_check_bind] at h
  split at h
  · split at h
    · split at h <;> cases h
      trivial
    · cases h
      trivial
  · cases h
    trivial

theorem create_permits {input : CreateRoom} {e : ServiceError} {db' : Db} (h : (create id none u input).exec db = (.error e, db')) :
    Permits e := by
  rcases exec_create id none u input db with ⟨room, db₁, -, hok, -⟩ | ⟨hnone, -⟩
  · rw [hok] at h
    cases h
  · unfold create at h
    unfold created at hnone
    rw [Prog.exec_query_bind] at h
    rcases hnew : newRoom db id none u input with e' | room
    · rw [hnew] at h
      cases h
      exact newRoom_permits hnew
    · rw [hnew] at h hnone
      simp only at h hnone
      rcases hi : (insertRoom room).exec db with ⟨_ | created, db₁⟩
      · rw [Prog.exec_bind_error hi] at h
        cases h
        exact insertRoom_permits hi
      · rcases exec_insertRoom room db with ⟨hinsertable, -⟩ | ⟨-, e', he⟩
        · rw [if_pos hinsertable] at hnone
          cases hnone
        · rw [he] at hi
          cases hi

theorem direct_declined (h : OnlyDeclined db u v) : (directAnswer id db u v).status ≠ some 403 := by
  unfold directAnswer
  generalize (targetNames db v).1 = name
  generalize (targetNames db v).2 = handle
  unfold openDirect
  generalize directInput v name handle = input
  rw [Prog.exec_query_bind, ensureCanReach_ok.2 (.inr h.reachable)]
  simp only [Prog.exec_read_bind]
  rcases findDirectRoom db u v with _ | room
  · -- no conversation yet: one is created
    simp only
    rcases hc : (create id none u input).exec db with ⟨e | room, db'⟩
    · rw [Prog.exec_bind_error hc]
      exact status_of_permits (create_permits hc) 200
    · rw [Prog.exec_bind_ok hc]
      exact fun h => (by cases h)
  · exact fun h => (by cases h)

end Block

/-- Neither answer is what it would be had the request been declined: in every state, somebody who is blocked is told so. -/
theorem block_shows (id : RoomId) (db db' : Db) (u v : UserId) (hblocked : HasBlocked db v u) (hdeclined : OnlyDeclined db' u v) :
    friendRequestAnswer db u v ≠ friendRequestAnswer db' u v ∧ directAnswer id db u v ≠ directAnswer id db' u v := by
  obtain ⟨hfriend, hdirect⟩ := answers_blocked id hblocked
  constructor
  · rw [hfriend, friendRequest_declined hdeclined]
    exact fun h => (by cases h)
  · intro h
    rw [hdirect] at h
    exact direct_declined hdeclined (by rw [← h]; rfl)

/-! ### A request that is blocked, or declined -/

/-- `ana` has asked `ben` to be her friend. -/
def anaAsked : Db := ((requestFriend ⟨2⟩ ⟨3⟩).exec anaAndBen).2

/-- `ben` blocks her. -/
def anaBlocked : Db := ((Social.block ⟨3⟩ ⟨2⟩).exec anaAsked).2

/-- `ben` declines. -/
def anaDeclined : Db := ((respondToRequest ⟨3⟩ ⟨2⟩ false).exec anaAsked).2

theorem hasBlocked_ana : HasBlocked anaBlocked ⟨3⟩ ⟨2⟩ := ⟨by decide, by decide⟩

theorem onlyDeclined_ana : OnlyDeclined anaDeclined ⟨2⟩ ⟨3⟩ :=
  ⟨by decide, by decide, { requesterId := ⟨2⟩, addresseeId := ⟨3⟩, status := .declined }, by decide, rfl, rfl⟩

theorem block_shows_ana : friendRequestAnswer anaBlocked ⟨2⟩ ⟨3⟩ ≠ friendRequestAnswer anaDeclined ⟨2⟩ ⟨3⟩ ∧
    directAnswer ⟨10⟩ anaBlocked ⟨2⟩ ⟨3⟩ ≠ directAnswer ⟨10⟩ anaDeclined ⟨2⟩ ⟨3⟩ :=
  block_shows ⟨10⟩ anaBlocked anaDeclined ⟨2⟩ ⟨3⟩ hasBlocked_ana onlyDeclined_ana

/-- Asking again, `ana` gets 403 where she is blocked and 409 where she was declined. -/
theorem ana_finds_out : (friendRequestAnswer anaBlocked ⟨2⟩ ⟨3⟩).status = some 403 ∧
    (friendRequestAnswer anaDeclined ⟨2⟩ ⟨3⟩).status = some 409 ∧
    ¬ ∀ id db db' u v, HasBlocked db v u → OnlyDeclined db' u v → SameAnswers id db db' u v := by
  have hblocked : (friendRequestAnswer anaBlocked ⟨2⟩ ⟨3⟩).status = some 403 := by
    rw [(answers_blocked ⟨10⟩ hasBlocked_ana).1]
    rfl
  have hdeclined : (friendRequestAnswer anaDeclined ⟨2⟩ ⟨3⟩).status = some 409 := by
    rw [friendRequest_declined onlyDeclined_ana]
    rfl
  refine ⟨hblocked, hdeclined, fun h => ?_⟩
  have hsame := (h ⟨10⟩ anaBlocked anaDeclined ⟨2⟩ ⟨3⟩ hasBlocked_ana onlyDeclined_ana).friendRequest
  rw [hsame, hdeclined] at hblocked
  cases hblocked

end Genzh.Api
