/-
Calls on invites that run at the same time, one statement of one of them after the other: invites are created,
redeemed and revoked by any number of users, and pruned by a job. A claim and a prune are one statement each,
and what comes before or after them is reads, the insertion of a row or its revocation. By itself each call is
the call of the service.
-/
import Genzh.Community.Invites
import Genzh.Community.Resolution
import Genzh.Lib.Interleaving

namespace Genzh.Community

open Genzh.Lib Genzh.Domain Genzh.Infrastructure

inductive InviteRequest where
  | create (communityId : CommunityId) (userId : UserId) (expiresInHours : Option Int) (maxUses : Option Int32)
      (draws : Nat → Uuid)
  | redeem (code : String) (userId : UserId)
  | revoke (code : String) (userId : UserId)
  | prune

inductive InviteResult where
  | minted (invite : Invite)
  | joined (communityId : CommunityId)
  | revoked
  | pruned (count : Nat)
  deriving DecidableEq, Repr

/-- The call of the service. -/
def InviteRequest.perform : InviteRequest → SqlM InviteResult
  | .create c u hours maxUses draws => do
    let invite ← createInvite c u hours maxUses draws
    pure (.minted invite)
  | .redeem code u => do
    let c ← redeemInvite code u
    pure (.joined c)
  | .revoke code u => do
    revokeInvite code u
    pure .revoked
  | .prune => do
    let count ← pruneExpiredInvites
    pure (.pruned count)

/-- How far a call has come. -/
inductive InviteCall where
  /-- The standing of the creator is being resolved. -/
  | creating (c : CommunityId) (u : UserId) (hours : Option Int) (maxUses : Option Int32) (draws : Nat → Uuid) (r : Resolution)
  /-- The invite is inserted next, under the `n`-th code drawn; `left` more may be drawn. -/
  | minting (c : CommunityId) (u : UserId) (expiresAt : Option Timestamp) (maxUses : Option Int32) (draws : Nat → Uuid)
      (left n : Nat)
  /-- A use is claimed next. -/
  | redeeming (code : String) (u : UserId)
  /-- The community is looked up next. -/
  | claimed (c : CommunityId) (u : UserId)
  /-- The membership is looked up next. -/
  | joining (c : CommunityId) (u : UserId)
  /-- The member is inserted next. -/
  | adding (c : CommunityId) (u : UserId)
  /-- The invite to revoke is looked up next. -/
  | revoking (code : String) (u : UserId)
  /-- The standing of who revokes is being resolved. -/
  | asking (code : String) (c : CommunityId) (u : UserId) (r : Resolution)
  /-- The invite is revoked next. -/
  | closing (code : String)
  | pruning
  | finished (outcome : Except ServiceError InviteResult)

/-- The call of a request, which has not begun. -/
def InviteRequest.call : InviteRequest → InviteCall
  | .create c u hours maxUses draws => .creating c u hours maxUses draws .begun
  | .redeem code u => .redeeming code u
  | .revoke code u => .revoking code u
  | .prune => .pruning

namespace InviteCall

section Advance

/-- What follows once the standing of a creator is known. -/
def permitted (c : CommunityId) (u : UserId) (hours : Option Int) (maxUses : Option Int32) (draws : Nat → Uuid)
    (context : MemberContext) (now : Timestamp) : InviteCall :=
  match context.require .manageMembers with
  | .error e => .finished (.error e)
  | .ok _ =>
    if maxUses.all fun max => decide (0 < max.toInt) then
      match inviteExpiry now hours with
      | .error e => .finished (.error e)
      | .ok expiresAt => .minting c u expiresAt maxUses draws (codeAttempts - 1) 0
    else .finished (.error (.invalid "max_uses" "must be greater than zero"))

/-- The next statement of a call, and what it computes up to the one after. -/
def advance : InviteCall → Db → InviteCall × Db
  | .creating c u hours maxUses draws r, db =>
    match r.read c u db with
    | .inl r' => (.creating c u hours maxUses draws r', db)
    | .inr (.error e) => (.finished (.error e), db)
    | .inr (.ok context) => (permitted c u hours maxUses draws context db.now, db)
  | .minting c u expiresAt maxUses draws left n, db =>
    match (insertInvite (generateCode (draws n)) c u expiresAt maxUses).exec db with
    | (.ok invite, db') => (.finished (.ok (.minted invite)), db')
    | (.error e, db') =>
      if isConflict e then
        match left with
        | 0 => (.finished (.error (.invalid "code" "could not mint a unique invite code")), db')
        | left + 1 => (.minting c u expiresAt maxUses draws left (n + 1), db')
      else (.finished (.error e), db')
  | .redeeming code u, db =>
    match (claimUse code).exec db with
    | (.ok (some c), db') => (.claimed c u, db')
    | (.ok none, db') => (.finished (.error (.notFound "invite")), db')
    | (.error e, db') => (.finished (.error e), db')
  | .claimed c u, db =>
    if db.communityExists c then (.joining c u, db) else (.finished (.error (.notFound "community")), db)
  | .joining c u, db =>
    if db.communityMembers.contains (c, u) then (.finished (.error (.domain (.conflict "membership"))), db)
    else (.adding c u, db)
  | .adding c u, db =>
    match (addMemberRow c u).exec db with
    | (.ok _, db') => (.finished (.ok (.joined c)), db')
    | (.error e, db') => (.finished (if isConflict e then .ok (.joined c) else .error e), db')
  | .revoking code u, db =>
    match findInvite db code with
    | .error e => (.finished (.error e), db)
    | .ok invite => (.asking code invite.communityId u .begun, db)
  | .asking code c u r, db =>
    match r.read c u db with
    | .inl r' => (.asking code c u r', db)
    | .inr (.error e) => (.finished (.error e), db)
    | .inr (.ok context) =>
      match context.require .manageMembers with
      | .error e => (.finished (.error e), db)
      | .ok _ => (.closing code, db)
  | .closing code, db => (.finished (.ok .revoked), ((revokeInviteRow code).exec db).2)
  | .pruning, db =>
    match pruneExpiredInvites.exec db with
    | (.ok count, db') => (.finished (.ok (.pruned count)), db')
    | (.error e, db') => (.finished (.error e), db')
  | .finished outcome, db => (.finished outcome, db)

variable {I : Type} [DecidableEq I]

/-- Time passes. -/
def wait (elapsed : Nat) (db : Db) : Db := db.tick (db.now + elapsed)

abbrev Invites (I : Type) := System Db I InviteCall

/-- One event of the calls on the database. -/
def step : Invites I → Event I Nat → Invites I := System.step (fun _ => advance) wait

/-- The calls of these requests, none of which has begun. -/
def begin (db : Db) (requests : I → InviteRequest) : Invites I := { store := db, calls := fun i => (requests i).call }

end Advance

/-! ## A call by itself -/

section Alone

variable {I : Type} {i : I} {db : Db}

/-- By itself, the call comes to its end with this outcome and this database. -/
abbrev Ends (i : I) (call : InviteCall) (db : Db) (r : Except ServiceError InviteResult × Db) : Prop :=
  System.Reaches (fun _ : I => advance) i call db (.finished r.1) r.2

theorem ends_minting (c : CommunityId) (u : UserId) (expiresAt : Option Timestamp) (maxUses : Option Int32)
    (draws : Nat → Uuid) (left n : Nat) : Ends i (.minting c u expiresAt maxUses draws left n) db
      ((mintInvite c u expiresAt maxUses draws (left + 1) n >>= fun invite => pure (.minted invite)).exec db) := by
  induction left generalizing n db with
  | zero =>
    simp only [mintInvite, Prog.exec_bind, Prog.exec_orElse]
    rcases hi : (insertInvite (generateCode (draws n)) c u expiresAt maxUses).exec db with ⟨e | invite, db'⟩
    · rcases hc : isConflict e <;> exact .one (by simp only [advance, hi, hc]; rfl)
    · exact .one (by simp only [advance, hi]; rfl)
  | succ left ih =>
    rw [mintInvite]
    simp only [Prog.exec_bind, Prog.exec_orElse]
    rcases hi : (insertInvite (generateCode (draws n)) c u expiresAt maxUses).exec db with ⟨e | invite, db'⟩
    · rcases hc : isConflict e
      · exact .one (by simp only [advance, hi, hc]; rfl)
      · refine .head (.minting c u expiresAt maxUses draws left (n + 1)) db' (by simp only [advance, hi, hc, if_true]) ?_
        have hnext : Ends i (.minting c u expiresAt maxUses draws left (n + 1)) db' _ := ih (n + 1)
        simp only [hc, if_true]
        rwa [Prog.exec_bind] at hnext
    · exact .one (by simp only [advance, hi]; rfl)

theorem ends_permitted (c : CommunityId) (u : UserId) (hours : Option Int) (maxUses : Option Int32) (draws : Nat → Uuid)
    (context : MemberContext) (hc : memberContext db c u = .ok context) :
    Ends i (permitted c u hours maxUses draws context db.now) db
      ((InviteRequest.create c u hours maxUses draws).perform.exec db) := by
  unfold permitted InviteRequest.perform createInvite
  simp only [bind_assoc]
  rw [Prog.exec_query_bind, hc]
  simp only [Prog.exec_lift_bind]
  rcases context.require .manageMembers with e | _
  · exact .refl
  simp only [Prog.exec_ensure_bind]
  rcases hpos : maxUses.all fun max => decide (0 < max.toInt)
  · simp only [hpos, Bool.false_eq_true, if_false]
    exact .refl
  simp only [hpos, if_true, Prog.exec_read_bind, Prog.exec_lift_bind]
  rcases inviteExpiry db.now hours with e | expiresAt
  · exact .refl
  · exact ends_minting c u expiresAt maxUses draws (codeAttempts - 1) 0

theorem ends_claimed (c : CommunityId) (u : UserId) : Ends i (.claimed c u) db
    ((Prog.orElse (do let _ ← addMember c u u; pure c) isConflict (pure c) >>= fun c => pure (.joined c)).exec db) := by
  unfold addMember
  simp only [ne_eq, not_true_eq_false, if_false, bind_assoc, Prog.exec_bind, Prog.exec_orElse, Prog.exec_query]
  rcases he : db.communityExists c
  · exact .one (by simp only [advance, he]; rfl)
  refine .head (.joining c u) db (by simp only [advance, he, if_true]) ?_
  rcases hm : db.communityMembers.contains (c, u)
  · refine .head (.adding c u) db (by simp only [advance, hm, Bool.false_eq_true, if_false]) (.one ?_)
    simp only [advance, hm, if_true, Bool.false_eq_true, if_false]
    rcases hr : (addMemberRow c u).exec db with ⟨e | member, db'⟩
    · rcases hc : isConflict e <;> simp [hc]
    · rfl
  · refine .one ?_
    simp only [advance, hm, if_true]
    rfl

/-- By itself, a call ends with the outcome and the database of the service. -/
theorem ends_perform (request : InviteRequest) : Ends i request.call db (request.perform.exec db) := by
  cases request with
  | create c u hours maxUses draws =>
    refine Resolution.resolves c u db
      (P := fun r => Ends i (.creating c u hours maxUses draws r) db
        ((InviteRequest.create c u hours maxUses draws).perform.exec db)) ?_ ?_
    · intro r r' hr h
      exact .head _ _ (by simp only [advance, hr]) h
    intro r hr
    rcases hc : memberContext db c u with e | context
    · rw [hc] at hr
      refine .one ?_
      simp only [advance, hr, InviteRequest.perform, createInvite, bind_assoc]
      rw [Prog.exec_query_bind, hc]
    · rw [hc] at hr
      exact .head _ _ (by simp only [advance, hr]) (ends_permitted c u hours maxUses draws context hc)
  | redeem code u =>
    simp only [InviteRequest.perform, redeemInvite, bind_assoc]
    rw [Prog.exec_bind]
    rcases hx : (claimUse code).exec db with ⟨e | _ | c, db'⟩
    · exact .one (by simp only [InviteRequest.call, advance, hx])
    · exact .one (by simp only [InviteRequest.call, advance, hx]; rfl)
    · exact .head (.claimed c u) db' (by simp only [InviteRequest.call, advance, hx]) (ends_claimed c u)
  | revoke code u =>
    simp only [InviteRequest.perform, revokeInvite, bind_assoc]
    rw [Prog.exec_query_bind]
    rcases hf : findInvite db code with e | invite
    · exact .one (by simp only [InviteRequest.call, advance, hf])
    refine .head (.asking code invite.communityId u .begun) db (by simp only [InviteRequest.call, advance, hf]) ?_
    simp only [Prog.exec_query_bind]
    refine Resolution.resolves invite.communityId u db (P := fun r => Ends i (.asking code invite.communityId u r) db _) ?_ ?_
    · intro r r' hr h
      exact .head _ _ (by simp only [advance, hr]) h
    intro r hr
    rcases hc : memberContext db invite.communityId u with e | context
    · rw [hc] at hr
      exact .one (by simp only [advance, hr])
    · rw [hc] at hr
      simp only [Prog.exec_lift_bind]
      rcases hrequire : context.require .manageMembers with e | _
      · exact .one (by simp only [advance, hr, hrequire])
      · exact .head (.closing code) db (by simp only [advance, hr, hrequire]) (.one rfl)
  | prune => exact .one rfl

end Alone

end InviteCall

end Genzh.Community
