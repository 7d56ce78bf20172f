/-
Resolving what a member may do. The owner of a community is an administrator and needs no membership;
a member has the union of what `@everyone` and the roles held grant; a room subtracts its denials and
then adds its grants, for everyone but administrators.
-/
import Genzh.Infrastructure.Db

namespace Genzh.Community

open Genzh.Lib Genzh.Domain Genzh.Infrastructure

/-- Everything known about one member's standing in one community. -/
structure MemberContext where
  communityId : CommunityId
  userId : UserId
  isOwner : Bool
  roleIds : List RoleId
  permissions : PermissionSet
  deriving DecidableEq, Repr

/-- Fold a member's role grants into a permission mask. -/
def resolveMemberPermissions (isOwner : Bool) (granted : List Permission) : PermissionSet :=
  if isOwner then PermissionSet.administrator else PermissionSet.fromPermissions granted

namespace MemberContext

/-- Build a context from raw grants. -/
def new (community : Community) (userId : UserId) (roleIds : List RoleId) (granted : List Permission) :
    MemberContext :=
  let isOwner := community.ownerId = userId
  { communityId := community.id, userId, isOwner, roleIds,
    permissions := resolveMemberPermissions isOwner granted }

/-- Assert a permission, or fail with a typed error. -/
def require (m : MemberContext) (p : Permission) : Except ServiceError Unit :=
  if m.permissions.allows p then .ok () else .error (.denied p.toKey)

end MemberContext

/-- One room-level permission override row. -/
structure RoomOverride where
  roleId : RoleId
  permission : Permission
  allow : Bool
  deriving DecidableEq, Repr

/-- Apply a room's overrides to a member's community-wide permissions. -/
def applyRoomOverrides (base : PermissionSet) (memberRoles : List RoleId) (overrides : List RoomOverride) :
    PermissionSet :=
  if base.contains PermissionSet.administrator then base
  else
    let held := overrides.filter fun o => o.roleId ∈ memberRoles
    let allow := PermissionSet.fromPermissions ((held.filter (·.allow)).map (·.permission))
    let deny := PermissionSet.fromPermissions ((held.filter fun o => !o.allow).map (·.permission))
    base.withOverrides allow deny

/-! ## The repository's reads -/

/-- The roles a member holds in a community, `@everyone` included. -/
def holdsRole (db : Db) (communityId : CommunityId) (userId : UserId) (r : Role) : Bool :=
  r.communityId = communityId && (r.isDefault || db.memberRoles.contains (communityId, userId, r.id))

def memberRoleIds (db : Db) (communityId : CommunityId) (userId : UserId) : List RoleId :=
  (db.roles.select (holdsRole db communityId userId)).map (·.id)

/-- The permissions those roles grant. A key that is not in the catalogue is dropped. -/
def memberPermissions (db : Db) (communityId : CommunityId) (userId : UserId) : List Permission :=
  (db.rolePermissions.select fun p => p.roleId ∈ memberRoleIds db communityId userId).filterMap
    fun p => (Permission.fromStr p.permissionKey).toOption

/-- The overrides of a room. -/
def roomOverrides (db : Db) (roomId : RoomId) : List RoomOverride :=
  (db.roomPermissions.select fun p => p.roomId = roomId).filterMap fun p =>
    (Permission.fromStr p.permissionKey).toOption.map fun permission =>
      { roleId := p.roleId, permission, allow := p.effect = .allow }

/-- A caller's standing in a community. -/
def memberContext (db : Db) (communityId : CommunityId) (userId : UserId) : Except ServiceError MemberContext :=
  match db.communities.find communityId with
  | none => .error (.notFound "community")
  | some community =>
    if community.ownerId = userId then .ok (MemberContext.new community userId [] [])
    else if db.communityMembers.contains (communityId, userId) then
      .ok (MemberContext.new community userId (memberRoleIds db communityId userId)
        (memberPermissions db communityId userId))
    else .error (.domain .notAMember)

/-! ## Owners and administrators -/

/-- No override locks the owner out of a room of their community. -/
theorem applyRoomOverrides_owner (community : Community) (roleIds : List RoleId) (granted : List Permission)
    (overrides : List RoomOverride) :
    applyRoomOverrides (MemberContext.new community community.ownerId roleIds granted).permissions roleIds overrides =
      PermissionSet.administrator := by
  have h : (MemberContext.new community community.ownerId roleIds granted).permissions = PermissionSet.administrator := by
    simp [MemberContext.new, resolveMemberPermissions]
  rw [h, applyRoomOverrides, if_pos (by decide)]

/-! ## Overrides -/

section Overrides

variable (base : PermissionSet) (memberRoles : List RoleId) {overrides overrides' : List RoomOverride}

theorem mem_allowed (p : Permission) :
    p ∈ ((overrides.filter fun o => o.roleId ∈ memberRoles).filter (·.allow)).map (·.permission) ↔
      ∃ o ∈ overrides, o.roleId ∈ memberRoles ∧ o.allow = true ∧ o.permission = p := by
  simp only [List.mem_map, List.mem_filter, decide_eq_true_eq, and_assoc]

theorem mem_denied (p : Permission) :
    p ∈ ((overrides.filter fun o => o.roleId ∈ memberRoles).filter fun o => !o.allow).map (·.permission) ↔
      ∃ o ∈ overrides, o.roleId ∈ memberRoles ∧ o.allow = false ∧ o.permission = p := by
  simp only [List.mem_map, List.mem_filter, decide_eq_true_eq, Bool.not_eq_true', and_assoc]

/-- Only what the rows of the roles held say counts. -/
theorem applyRoomOverrides_congr (h : ∀ o, o.roleId ∈ memberRoles → (o ∈ overrides' ↔ o ∈ overrides)) :
    applyRoomOverrides base memberRoles overrides' = applyRoomOverrides base memberRoles overrides := by
  have hrows : ∀ (Q : RoomOverride → Prop), (∃ o ∈ overrides', o.roleId ∈ memberRoles ∧ Q o) ↔
      ∃ o ∈ overrides, o.roleId ∈ memberRoles ∧ Q o := by
    intro Q
    constructor
    · rintro ⟨o, ho, hrole, hq⟩
      exact ⟨o, (h o hrole).1 ho, hrole, hq⟩
    · rintro ⟨o, ho, hrole, hq⟩
      exact ⟨o, (h o hrole).2 ho, hrole, hq⟩
  unfold applyRoomOverrides
  dsimp only
  congr 2
  · apply PermissionSet.fromPermissions_congr
    intro p
    rw [mem_allowed, mem_allowed, hrows]
  · apply PermissionSet.fromPermissions_congr
    intro p
    rw [mem_denied, mem_denied, hrows]

variable (overrides)

/-- What the overrides of a room leave: everything to administrators, of which an override may make one; what a role held
is granted there; and what the member has and no role held is denied. Rows that come twice, in another order or for another
role change nothing. -/
theorem allows_applyRoomOverrides :
    (∀ p, (applyRoomOverrides base memberRoles overrides).allows p = true ↔
      base.contains PermissionSet.administrator = true ∨
      (∃ o ∈ overrides, o.roleId ∈ memberRoles ∧ o.allow = true ∧ (o.permission = .administrator ∨ o.permission = p)) ∨
      (base.contains p.bit = true ∧ ¬∃ o ∈ overrides, o.roleId ∈ memberRoles ∧ o.allow = false ∧ o.permission = p)) ∧
    (∀ os : List RoomOverride, (∀ o, o.roleId ∈ memberRoles → (o ∈ os ↔ o ∈ overrides)) →
      applyRoomOverrides base memberRoles os = applyRoomOverrides base memberRoles overrides) := by
  refine ⟨fun p => ?_, fun os hos => applyRoomOverrides_congr base memberRoles hos⟩
  by_cases hadmin : base.contains PermissionSet.administrator = true
  · rw [applyRoomOverrides, if_pos hadmin, PermissionSet.allows, hadmin]
    simp
  · have hcontains : ∀ q : Permission, (applyRoomOverrides base memberRoles overrides).contains q.bit = true ↔
        (∃ o ∈ overrides, o.roleId ∈ memberRoles ∧ o.allow = true ∧ o.permission = q) ∨
        (base.contains q.bit = true ∧ ¬∃ o ∈ overrides, o.roleId ∈ memberRoles ∧ o.allow = false ∧ o.permission = q) := by
      intro q
      rw [applyRoomOverrides, if_neg hadmin, PermissionSet.contains_withOverrides, PermissionSet.contains_fromPermissions,
        PermissionSet.contains_fromPermissions, mem_allowed, mem_denied]
    unfold PermissionSet.allows
    rw [Bool.or_eq_true, PermissionSet.administrator, hcontains, hcontains]
    constructor
    · rintro ((⟨o, ho, hrole, hallow, heq⟩ | ⟨hbase, -⟩) | (⟨o, ho, hrole, hallow, heq⟩ | hbase))
      · exact .inr (.inl ⟨o, ho, hrole, hallow, .inl heq⟩)
      · exact absurd hbase hadmin
      · exact .inr (.inl ⟨o, ho, hrole, hallow, .inr heq⟩)
      · exact .inr (.inr hbase)
    · rintro (hbase | ⟨o, ho, hrole, hallow, heq | heq⟩ | hbase)
      · exact absurd hbase hadmin
      · exact .inl (.inl ⟨o, ho, hrole, hallow, heq⟩)
      · exact .inr (.inl ⟨o, ho, hrole, hallow, heq⟩)
      · exact .inr (.inr hbase)

end Overrides

/-- Only the owner and members have a standing. -/
theorem memberContext_ok {db : Db} {c : CommunityId} {u : UserId} {m : MemberContext} (h : memberContext db c u = .ok m) :
    ∃ community, db.communities.find c = some community ∧
      (community.ownerId = u ∨ db.communityMembers.contains (c, u) = true) := by
  unfold memberContext at h
  split at h
  · cases h
  · rename_i community hc
    split at h
    · exact ⟨community, hc, .inl ‹_›⟩
    · split at h
      · exact ⟨community, hc, .inr ‹_›⟩
      · cases h

end Genzh.Community
