/-
Friend requests and the answers to them, as one call makes them that is by itself.
-/
import Genzh.Social.Friendships

namespace Genzh.Social

open Genzh.Lib Genzh.Domain Genzh.Infrastructure

/-- Move a friendship to a new state. -/
def setStatus (requesterId addresseeId : UserId) (status : FriendshipStatus) : SqlM Friendship := do
  let row ← Prog.read fun db => db.friendships.find (requesterId, addresseeId)
  match row with
  | none => SqlM.refuse (.notFound "friendship")
  | some row => do
    Prog.modify (withStatus requesterId addresseeId status)
    pure { row with status }

/-- Accept or decline a pending request. -/
def respondToRequest (addresseeId requesterId : UserId) (accept : Bool) : SqlM Friendship := do
  let existing ← Prog.read fun db => findBetween db addresseeId requesterId
  match existing with
  | none => Prog.fail (.notFound "friendship")
  | some existing => do
    Prog.ensure (canRespond existing addresseeId) (.denied "friend_request_addressee_only")
    setStatus existing.requesterId existing.addresseeId (decided accept)

/-- Create a friend request. -/
def request (requesterId addresseeId : UserId) : SqlM Friendship := do
  Prog.query fun db => (requestable db requesterId addresseeId).mapError .repository
  Prog.modify (withRequest requesterId addresseeId)
  pure (requested requesterId addresseeId)

/-- Send a friend request. Requesting back accepts the request that is there. -/
def requestFriend (requesterId addresseeId : UserId) : SqlM Friendship := do
  Prog.lift (liftDomain (ensureDistinctUsers requesterId addresseeId))
  Prog.query fun db => ensureCanReach db requesterId addresseeId
  let existing ← Prog.read fun db => findBetween db requesterId addresseeId
  match existing with
  | some existing =>
    if existing.status = .pending ∧ existing.addresseeId = requesterId then
      respondToRequest requesterId existing.requesterId true
    else Prog.fail (.domain (.conflict "friendship"))
  | none => request requesterId addresseeId

/-! ## A call by itself -/

/-- So many statements of a call, and nothing between them. -/
def alone : Nat → SocialCall × Db → SocialCall × Db
  | 0, s => s
  | n + 1, s => alone n (s.1.advance s.2)

section Alone

variable {db : Db} {a b : UserId} {n : Nat}

theorem alone_answered (result : Except ServiceError (Option Friendship)) : ∀ n, alone n (.answered result, db) = (.answered result, db)
  | 0 => rfl
  | n + 1 => alone_answered result n

/-- The state a call by itself ends in. -/
def ended (m : SqlM Friendship) (db : Db) : SocialCall × Db := (.answered ((m.exec db).1.map some), (m.exec db).2)

theorem alone_respond (accept : Bool) : alone (n + 2) (.responding a b accept, db) = ended (respondToRequest a b accept) db := by
  unfold alone ended respondToRequest
  rw [Prog.exec_read_bind]
  simp only [SocialCall.advance, respondTo]
  rcases findBetween db a b with _ | existing
  · exact alone_answered _ (n + 1)
  · simp only [Prog.exec_ensure_bind]
    rcases hr : canRespond existing a
    · exact alone_answered _ (n + 1)
    · unfold alone setStatus
      simp only [Bool.not_true, Bool.false_eq_true, if_false, if_true, SocialCall.advance, Prog.exec_read_bind]
      rcases db.friendships.find (existing.requesterId, existing.addresseeId) with _ | row
      · exact alone_answered _ n
      · exact alone_answered _ n

/-- By itself, a request comes to what its statements come to one after the other. -/
theorem alone_requestFriend (a b : UserId) (db : Db) :
    alone 5 (.asked (.requestFriend a b), db) = ended (requestFriend a b) db := by
  unfold alone ended requestFriend
  rw [Prog.exec_lift_bind]
  simp only [SocialCall.advance]
  rcases ensureDistinctUsers a b with e | ⟨⟩
  · exact alone_answered _ 4
  · simp only [liftDomain, Prog.exec_query_bind]
    rcases ensureCanReach db a b with e | ⟨⟩
    · exact alone_answered _ 4
    · unfold alone
      simp only [SocialCall.advance, Prog.exec_read_bind]
      rcases findBetween db a b with _ | existing
      · unfold alone request
        simp only [SocialCall.advance, Prog.exec_query_bind]
        rcases requestable db a b with e | ⟨⟩
        · exact alone_answered _ 2
        · exact alone_answered _ 2
      · simp only
        split
        · -- the other has asked before: the request is accepted, and not made
          exact alone_respond true
        · exact alone_answered _ 3

end Alone

end Genzh.Social
