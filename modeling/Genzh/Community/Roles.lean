/-
Roles, and who may hand them out. Roles answer to their own rule: you cannot grant a permission you do not
hold. Every operation starts by resolving the actor's standing in the community.

A role is neither deleted nor moved to another community: there is no statement that does.
-/
import Genzh.Community.Authorization
import Genzh.Domain.Text

namespace Genzh.Community

open Genzh.Lib Genzh.Domain Genzh.Infrastructure

def roleNameMaxLen : Nat := 48

/-- Validate a role name. -/
def validateRoleName (raw : String) : Except DomainError String :=
  let name := trim raw
  if name.isEmpty || roleNameMaxLen < name.length then
    .error (.invalid "name" s!"must be between 1 and {roleNameMaxLen} characters")
  else .ok name

/-- Input for creating a role. -/
structure CreateRole where
  name : String
  color : Option String
  position : Option Int
  permissions : List Permission
  deriving DecidableEq, Repr

/-- Input for updating a role. -/
structure UpdateRole where
  name : Option String
  color : Option String
  position : Option Int
  /-- Complete replacement permission set, when present. -/
  permissions : Option (List Permission)
  deriving DecidableEq, Repr

/-- A role, and what it grants. -/
structure RoleWithPermissions where
  role : Role
  permissions : PermissionSet
  deriving DecidableEq, Repr

/-! ## The repository -/

/-- Fetch a role, scoped to its community. -/
def findRole (db : Db) (communityId : CommunityId) (roleId : RoleId) : Option Role :=
  (db.roles.find roleId).filter fun r => r.communityId = communityId

/-- The permissions a single role grants. A key that is not in the catalogue is dropped. -/
def rolePermissions (db : Db) (roleId : RoleId) : List Permission :=
  (db.rolePermissions.select fun p => p.roleId = roleId).filterMap fun p => (Permission.fromStr p.permissionKey).toOption

/-- Is the name taken by another role of the community? -/
def nameTaken (db : Db) (communityId : CommunityId) (roleId : RoleId) (name : String) : Bool :=
  db.roles.rows.any fun r => r.communityId = communityId && r.id ≠ roleId && r.name = name

/-- `INSERT INTO role_permissions`. -/
def insertRolePermission (roleId : RoleId) (p : Permission) : SqlM Unit := do
  SqlM.check (fun db => !db.rolePermissions.contains (roleId, p.toKey)) (.conflict "role_permissions_pkey")
  Prog.modify fun db => { db with rolePermissions := db.rolePermissions.insert { roleId, permissionKey := p.toKey } }

/-- Create a role with its permission grants. -/
def createRoleRow (role : Role) (permissions : List Permission) : SqlM Role :=
  Prog.transaction do
    SqlM.check (fun db => !db.roles.contains role.id) (.conflict "roles_pkey")
    SqlM.check (fun db => !nameTaken db role.communityId role.id role.name) (.conflict "roles_community_id_name_key")
    SqlM.check (fun db => db.communityExists role.communityId) .foreignKey
    Prog.modify fun db => { db with roles := db.roles.insert role }
    Prog.forEach permissions (insertRolePermission role.id)
    pure role

/-- The columns an update sets: one that is not given stays. -/
def updatedRole (name color : Option String) (position : Option Int) (r : Role) : Role :=
  { r with name := name.getD r.name, color := color.or r.color, position := position.getD r.position }

/-- Update a role, optionally replacing its whole permission set. -/
def updateRoleRow (communityId : CommunityId) (roleId : RoleId) (name color : Option String) (position : Option Int)
    (permissions : Option (List Permission)) : SqlM Role :=
  Prog.transaction do
    let role ← Prog.query fun db =>
      match findRole db communityId roleId with
      | some role => .ok role
      | none => .error (.repository (.notFound "role"))
    SqlM.check (fun db => name.all fun name => !nameTaken db communityId roleId name) (.conflict "roles_community_id_name_key")
    Prog.modify fun db => { db with roles := db.roles.update roleId (updatedRole name color position) fun _ => rfl }
    match permissions with
    | some permissions => do
      Prog.modify fun db => { db with rolePermissions := db.rolePermissions.deleteWhere fun p => p.roleId = roleId }
      Prog.forEach permissions (insertRolePermission roleId)
    | none => pure ()
    pure (updatedRole name color position role)

/-- Assign a role to a member. -/
def assignRoleRow (communityId : CommunityId) (userId : UserId) (roleId : RoleId) : SqlM Unit := do
  SqlM.check (fun db => db.memberRoles.contains (communityId, userId, roleId) ||
    (db.roles.contains roleId && db.communityMembers.contains (communityId, userId))) .foreignKey
  Prog.modify fun db => { db with memberRoles := db.memberRoles.insert { communityId, userId, roleId } }

/-- Take a role away from a member. Reports whether a row was removed. -/
def removeRoleRow (communityId : CommunityId) (userId : UserId) (roleId : RoleId) : SqlM Bool := do
  let held ← Prog.read fun db => db.memberRoles.contains (communityId, userId, roleId)
  Prog.modify fun db => { db with memberRoles := db.memberRoles.delete (communityId, userId, roleId) }
  pure held

/-! ## The service -/

/-- Is this member an administrator? -/
def MemberContext.isAdmin (m : MemberContext) : Bool := m.permissions.contains PermissionSet.administrator

/-- Refuse to grant a permission the actor does not themselves hold. -/
def guardPrivilegeEscalation (context : MemberContext) (requested : List Permission) :
    Except ServiceError (List Permission) :=
  if context.isAdmin then .ok requested
  else
    match requested.find? fun p => !context.permissions.allows p with
    | some p => .error (.denied p.toKey)
    | none => .ok requested

/-- The actor of a role operation: a member who may manage roles. -/
def manager (db : Db) (communityId : CommunityId) (actorId : UserId) : Except ServiceError MemberContext := do
  let context ← memberContext db communityId actorId
  context.require .manageRoles
  pure context

/-- What a creation inserts. -/
def newRole (communityId : CommunityId) (roleId : RoleId) (input : CreateRole) (context : MemberContext) :
    Except ServiceError (Role × List Permission) := do
  let permissions ← guardPrivilegeEscalation context input.permissions
  let name ← liftDomain (validateRoleName input.name)
  pure ({ id := roleId, communityId, isDefault := false, name, color := input.color,
          position := input.position.getD 0 }, permissions)

/-- Create a role. -/
def createRole (communityId : CommunityId) (actorId : UserId) (roleId : RoleId) (input : CreateRole) :
    SqlM RoleWithPermissions := do
  let context ← Prog.query fun db => manager db communityId actorId
  let (role, permissions) ← Prog.lift (newRole communityId roleId input context)
  let created ← createRoleRow role permissions
  pure { role := created, permissions := PermissionSet.fromPermissions permissions }

/-- What an update sets, on the role it finds. -/
def roleUpdate (db : Db) (communityId : CommunityId) (roleId : RoleId) (input : UpdateRole) (context : MemberContext) :
    Except ServiceError (Option String × Option (List Permission)) :=
  match findRole db communityId roleId with
  | none => .error (.notFound "role")
  | some existing => do
    if existing.isDefault && input.name.isSome then .error (.invalid "name" "the default role cannot be renamed")
    let name ← match input.name with
      | some name => (liftDomain (validateRoleName name)).map some
      | none => .ok none
    let permissions ← match input.permissions with
      | some permissions => (guardPrivilegeEscalation context permissions).map some
      | none => .ok none
    pure (name, permissions)

/-- Update a role. -/
def updateRole (communityId : CommunityId) (actorId : UserId) (roleId : RoleId) (input : UpdateRole) :
    SqlM RoleWithPermissions := do
  let context ← Prog.query fun db => manager db communityId actorId
  let (name, permissions) ← Prog.query fun db => roleUpdate db communityId roleId input context
  let updated ← updateRoleRow communityId roleId name input.color input.position permissions
  match permissions with
  | some permissions => pure { role := updated, permissions := PermissionSet.fromPermissions permissions }
  | none => do
    let granted ← Prog.read fun db => rolePermissions db roleId
    pure { role := updated, permissions := PermissionSet.fromPermissions granted }

/-- What a role grants may be handed on, or taken away. -/
def guardRole (db : Db) (roleId : RoleId) (context : MemberContext) : Except ServiceError Unit := do
  let _ ← guardPrivilegeEscalation context (rolePermissions db roleId)
  pure ()

/-- Assign a role to a member. -/
def assignRole (communityId : CommunityId) (actorId targetId : UserId) (roleId : RoleId) : SqlM Unit := do
  let context ← Prog.query fun db => manager db communityId actorId
  Prog.query fun db => if (findRole db communityId roleId).isSome then .ok () else .error (.notFound "role")
  Prog.query fun db =>
    if db.communityMembers.contains (communityId, targetId) then .ok () else .error (.notFound "membership")
  Prog.query fun db => guardRole db roleId context
  assignRoleRow communityId targetId roleId

/-- A role that members hold by assignment. -/
def removableRole (db : Db) (communityId : CommunityId) (roleId : RoleId) : Except ServiceError Unit :=
  match findRole db communityId roleId with
  | none => .error (.notFound "role")
  | some role =>
    if role.isDefault then .error (.invalid "role_id" "the default role cannot be removed from a member") else .ok ()

/-- Take a role away from a member. -/
def removeRole (communityId : CommunityId) (actorId targetId : UserId) (roleId : RoleId) : SqlM Unit := do
  let context ← Prog.query fun db => manager db communityId actorId
  Prog.query fun db => removableRole db communityId roleId
  Prog.query fun db => guardRole db roleId context
  let removed ← removeRoleRow communityId targetId roleId
  Prog.ensure removed (.notFound "member_role")

end Genzh.Community
