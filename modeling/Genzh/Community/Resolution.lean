/-
Resolving a standing one read after the other, as a call does that runs beside others: the community, the
membership, the ids of the roles and what they grant. With nothing in between, the reads come to
`memberContext`; whatever comes in between, the permissions are those of the moment the last read saw.
-/
import Genzh.Community.Authorization

namespace Genzh.Community

open Genzh.Lib Genzh.Domain Genzh.Infrastructure

/-- How far the reads have come. -/
inductive Resolution where
  | begun
  /-- The caller does not own the community; the membership is looked up next. -/
  | found (community : Community)
  /-- The caller is a member; the ids of their roles are read next. -/
  | joined (community : Community)
  /-- What their roles grant is read next. -/
  | ranked (community : Community) (roleIds : List RoleId)
  deriving DecidableEq, Repr

namespace Resolution

/-- The next read, or the outcome after the last one. -/
def read (c : CommunityId) (u : UserId) : Resolution → Db → Resolution ⊕ Except ServiceError MemberContext
  | .begun, db =>
    match db.communities.find c with
    | none => .inr (.error (.notFound "community"))
    | some community =>
      if community.ownerId = u then .inr (.ok (MemberContext.new community u [] [])) else .inl (.found community)
  | .found community, db =>
    if db.communityMembers.contains (c, u) then .inl (.joined community) else .inr (.error (.domain .notAMember))
  | .joined community, db => .inl (.ranked community (memberRoleIds db c u))
  | .ranked community roleIds, db => .inr (.ok (MemberContext.new community u roleIds (memberPermissions db c u)))

variable {c : CommunityId} {u : UserId} {db : Db}

variable (c u db) in
/-- What leads from the first read to the outcome of `memberContext` leads through all of them. -/
theorem resolves {P : Resolution → Prop} (hnext : ∀ r r', r.read c u db = .inl r' → P r' → P r)
    (hdone : ∀ r, r.read c u db = .inr (memberContext db c u) → P r) : P .begun := by
  rcases hc : db.communities.find c with _ | community
  · refine hdone _ ?_
    simp only [read, memberContext, hc]
  by_cases ho : community.ownerId = u
  · refine hdone _ ?_
    simp only [read, memberContext, hc, ho, if_true]
  refine hnext _ (.found community) (by simp only [read, hc, ho, if_false]) ?_
  rcases hm : db.communityMembers.contains (c, u)
  · refine hdone _ ?_
    simp only [read, memberContext, hc, ho, hm, Bool.false_eq_true, if_false]
  refine hnext _ (.joined community) (by simp only [read, hm, if_true]) (hnext _ _ rfl (hdone _ ?_))
  simp only [read, memberContext, hc, ho, hm, if_false, if_true]

/-- What the reads have established, where communities and memberships stay. -/
def Sound (c : CommunityId) (u : UserId) (db : Db) : Resolution → Prop
  | .begun => True
  | .found community => db.communities.find c = some community
  | .joined community | .ranked community _ =>
    db.communities.find c = some community ∧ db.communityMembers.contains (c, u) = true

theorem Sound.stays {r : Resolution} {db' : Db} (h : r.Sound c u db) (hcommunities : db'.communities = db.communities)
    (hmembers : db'.communityMembers = db.communityMembers) : r.Sound c u db' := by
  cases r <;> simp only [Sound, hcommunities, hmembers] at h ⊢ <;> exact h

theorem Sound.next {r r' : Resolution} (h : r.Sound c u db) (hr : r.read c u db = .inl r') : r'.Sound c u db := by
  cases r with
  | begun =>
    simp only [read] at hr
    split at hr
    · cases hr
    · rename_i community hc
      split at hr
      · cases hr
      · cases hr
        exact hc
  | found community =>
    simp only [read] at hr
    split at hr
    · cases hr
      exact ⟨h, ‹_›⟩
    · cases hr
  | joined community =>
    cases hr
    exact h
  | ranked community roleIds => cases hr

/-- A standing that was resolved is that of the owner, or of a member with the permissions of the moment. -/
theorem Sound.resolved {r : Resolution} {context : MemberContext} (h : r.Sound c u db)
    (hr : r.read c u db = .inr (.ok context)) :
    ∃ community, db.communities.find c = some community ∧
      (community.ownerId = u ∨ (db.communityMembers.contains (c, u) = true ∧
        ∃ roleIds, context = MemberContext.new community u roleIds (memberPermissions db c u))) := by
  cases r with
  | begun =>
    simp only [read] at hr
    split at hr
    · cases hr
    · split at hr
      · exact ⟨_, ‹_›, .inl ‹_›⟩
      · cases hr
  | found community =>
    simp only [read] at hr
    split at hr <;> cases hr
  | joined community => cases hr
  | ranked community roleIds =>
    cases hr
    exact ⟨community, h.1, .inr ⟨h.2, roleIds, rfl⟩⟩

end Resolution

end Genzh.Community
