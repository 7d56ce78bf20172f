/-
Role operations that run at the same time, one statement of one of them after the other. An operation
resolves the standing of its actor in up to four reads, looks its role and its target up in one read each,
and ends with one write: the insertion or the update of a role, which are transactions, or the insertion or
deletion of a row of `member_roles`. By itself each call is the operation of the service.
-/
import Genzh.Community.Standing
import Genzh.Community.Resolution
import Genzh.Lib.Interleaving

namespace Genzh.Community

open Genzh.Lib Genzh.Domain Genzh.Infrastructure

inductive RoleRequest where
  | create (roleId : RoleId) (input : CreateRole)
  | update (roleId : RoleId) (input : UpdateRole)
  | assign (targetId : UserId) (roleId : RoleId)
  | remove (targetId : UserId) (roleId : RoleId)
  deriving DecidableEq, Repr

/-- What an actor asks for in a community. -/
structure RoleOperation where
  communityId : CommunityId
  actorId : UserId
  request : RoleRequest
  deriving DecidableEq, Repr

/-- The operation of the service. Only a role that is created or updated is returned. -/
def RoleOperation.perform (op : RoleOperation) : SqlM (Option RoleWithPermissions) :=
  match op.request with
  | .create roleId input => do
    let role ← createRole op.communityId op.actorId roleId input
    pure (some role)
  | .update roleId input => do
    let role ← updateRole op.communityId op.actorId roleId input
    pure (some role)
  | .assign targetId roleId => do
    assignRole op.communityId op.actorId targetId roleId
    pure none
  | .remove targetId roleId => do
    removeRole op.communityId op.actorId targetId roleId
    pure none

/-- How far a call has come. -/
inductive RoleCall where
  /-- The standing of the actor is being resolved. -/
  | resolving (op : RoleOperation) (r : Resolution)
  /-- A role is inserted next. -/
  | inserting (role : Role) (permissions : List Permission)
  /-- The role to update is looked up next. -/
  | updating (c : CommunityId) (roleId : RoleId) (input : UpdateRole) (context : MemberContext)
  /-- The role is updated next. -/
  | replacing (c : CommunityId) (roleId : RoleId) (input : UpdateRole) (name : Option String)
      (permissions : Option (List Permission))
  /-- The role was updated without a set; what it grants is read next. -/
  | reloading (updated : Role) (roleId : RoleId)
  /-- The role to assign is looked up next. -/
  | assigning (c : CommunityId) (targetId : UserId) (roleId : RoleId) (context : MemberContext)
  /-- The membership of the target is looked up next. -/
  | targeting (c : CommunityId) (targetId : UserId) (roleId : RoleId) (context : MemberContext)
  /-- What the role grants is read next, and then it is given. -/
  | weighing (c : CommunityId) (targetId : UserId) (roleId : RoleId) (context : MemberContext)
  | giving (c : CommunityId) (targetId : UserId) (roleId : RoleId)
  /-- The role to remove is looked up next. -/
  | removing (c : CommunityId) (targetId : UserId) (roleId : RoleId) (context : MemberContext)
  /-- What the role grants is read next, and then it is taken away. -/
  | sparing (c : CommunityId) (targetId : UserId) (roleId : RoleId) (context : MemberContext)
  | taking (c : CommunityId) (targetId : UserId) (roleId : RoleId)
  | finished (outcome : Except ServiceError (Option RoleWithPermissions))

section Advance

/-- What follows once the standing of the actor is known. -/
def authorised (op : RoleOperation) (context : MemberContext) : RoleCall :=
  match context.require .manageRoles with
  | .error e => .finished (.error e)
  | .ok _ =>
    match op.request with
    | .create roleId input =>
      match newRole op.communityId roleId input context with
      | .error e => .finished (.error e)
      | .ok (role, permissions) => .inserting role permissions
    | .update roleId input => .updating op.communityId roleId input context
    | .assign targetId roleId => .assigning op.communityId targetId roleId context
    | .remove targetId roleId => .removing op.communityId targetId roleId context

/-- The next statement of a call, and what it computes up to the one after. -/
def advance : RoleCall → Db → RoleCall × Db
  | .resolving op r, db =>
    match r.read op.communityId op.actorId db with
    | .inl r' => (.resolving op r', db)
    | .inr (.error e) => (.finished (.error e), db)
    | .inr (.ok context) => (authorised op context, db)
  | .inserting role permissions, db =>
    match (createRoleRow role permissions).exec db with
    | (.error e, db') => (.finished (.error e), db')
    | (.ok created, db') =>
      (.finished (.ok (some { role := created, permissions := PermissionSet.fromPermissions permissions })), db')
  | .updating c roleId input context, db =>
    match roleUpdate db c roleId input context with
    | .error e => (.finished (.error e), db)
    | .ok (name, permissions) => (.replacing c roleId input name permissions, db)
  | .replacing c roleId input name permissions, db =>
    match (updateRoleRow c roleId name input.color input.position permissions).exec db with
    | (.error e, db') => (.finished (.error e), db')
    | (.ok updated, db') =>
      match permissions with
      | some permissions =>
        (.finished (.ok (some { role := updated, permissions := PermissionSet.fromPermissions permissions })), db')
      | none => (.reloading updated roleId, db')
  | .reloading updated roleId, db =>
    (.finished (.ok (some { role := updated, permissions := PermissionSet.fromPermissions (rolePermissions db roleId) })), db)
  | .assigning c targetId roleId context, db =>
    if (findRole db c roleId).isSome then (.targeting c targetId roleId context, db)
    else (.finished (.error (.notFound "role")), db)
  | .targeting c targetId roleId context, db =>
    if db.communityMembers.contains (c, targetId) then (.weighing c targetId roleId context, db)
    else (.finished (.error (.notFound "membership")), db)
  | .weighing c targetId roleId context, db =>
    match guardRole db roleId context with
    | .error e => (.finished (.error e), db)
    | .ok _ => (.giving c targetId roleId, db)
  | .giving c targetId roleId, db =>
    match (assignRoleRow c targetId roleId).exec db with
    | (.error e, db') => (.finished (.error e), db')
    | (.ok _, db') => (.finished (.ok none), db')
  | .removing c targetId roleId context, db =>
    match removableRole db c roleId with
    | .error e => (.finished (.error e), db)
    | .ok _ => (.sparing c targetId roleId context, db)
  | .sparing c targetId roleId context, db =>
    match guardRole db roleId context with
    | .error e => (.finished (.error e), db)
    | .ok _ => (.taking c targetId roleId, db)
  | .taking c targetId roleId, db =>
    match (removeRoleRow c targetId roleId).exec db with
    | (.error e, db') => (.finished (.error e), db')
    | (.ok removed, db') => (.finished (if removed then .ok none else .error (.notFound "member_role")), db')
  | .finished outcome, db => (.finished outcome, db)

variable {I : Type} [DecidableEq I]

abbrev RoleCalls (I : Type) := System Db I RoleCall

/-- One event of the calls on the database. -/
def roleStep : RoleCalls I → Event I Timestamp → RoleCalls I := System.step (fun _ => advance) Db.tick

/-- The calls of these operations, none of which has begun. -/
def beginRoles (db : Db) (operations : I → RoleOperation) : RoleCalls I :=
  { store := db, calls := fun i => .resolving (operations i) .begun }

end Advance

/-! ## A call by itself -/

section Alone

variable {I : Type} {i : I} {db : Db}

/-- By itself, the call comes to its end with this outcome and this database. -/
abbrev Ends (i : I) (call : RoleCall) (db : Db) (r : Except ServiceError (Option RoleWithPermissions) × Db) : Prop :=
  System.Reaches (fun _ : I => advance) i call db (.finished r.1) r.2

/-- An operation from where the standing of the actor is known. -/
def RoleOperation.permitted (op : RoleOperation) (context : MemberContext) : SqlM (Option RoleWithPermissions) :=
  match op.request with
  | .create roleId input => do
    let (role, permissions) ← Prog.lift (newRole op.communityId roleId input context)
    let created ← createRoleRow role permissions
    pure (some { role := created, permissions := PermissionSet.fromPermissions permissions })
  | .update roleId input => do
    let (name, permissions) ← Prog.query fun db => roleUpdate db op.communityId roleId input context
    let updated ← updateRoleRow op.communityId roleId name input.color input.position permissions
    match permissions with
    | some permissions => pure (some { role := updated, permissions := PermissionSet.fromPermissions permissions })
    | none => do
      let granted ← Prog.read fun db => rolePermissions db roleId
      pure (some { role := updated, permissions := PermissionSet.fromPermissions granted })
  | .assign targetId roleId => do
    Prog.query fun db => if (findRole db op.communityId roleId).isSome then .ok () else .error (.notFound "role")
    Prog.query fun db =>
      if db.communityMembers.contains (op.communityId, targetId) then .ok () else .error (.notFound "membership")
    Prog.query fun db => guardRole db roleId context
    assignRoleRow op.communityId targetId roleId
    pure none
  | .remove targetId roleId => do
    Prog.query fun db => removableRole db op.communityId roleId
    Prog.query fun db => guardRole db roleId context
    let removed ← removeRoleRow op.communityId targetId roleId
    Prog.ensure removed (.notFound "member_role")
    pure none

theorem perform_eq (op : RoleOperation) :
    op.perform = Prog.query (fun db => manager db op.communityId op.actorId) >>= op.permitted := by
  obtain ⟨c, actor, request⟩ := op
  cases request with
  | create roleId input => simp only [RoleOperation.perform, createRole, bind_assoc, pure_bind]; rfl
  | update roleId input =>
    simp only [RoleOperation.perform, updateRole, bind_assoc]
    refine bind_congr fun context => bind_congr fun ⟨name, permissions⟩ => ?_
    refine bind_congr fun updated => ?_
    cases permissions <;> rfl
  | assign targetId roleId => simp only [RoleOperation.perform, assignRole, bind_assoc]; rfl
  | remove targetId roleId => simp only [RoleOperation.perform, removeRole, bind_assoc]; rfl

theorem ends_permitted (op : RoleOperation) (context : MemberContext) (h : context.require .manageRoles = .ok ()) :
    Ends i (authorised op context) db ((op.permitted context).exec db) := by
  obtain ⟨c, actor, request⟩ := op
  unfold authorised RoleOperation.permitted
  simp only [h]
  cases request with
  | create roleId input =>
    simp only [Prog.exec_lift_bind]
    rcases newRole c roleId input context with e | ⟨role, permissions⟩
    · exact .refl
    · refine .one ?_
      simp only [advance]
      rw [Prog.exec_bind]
      rcases (createRoleRow role permissions).exec db with ⟨_ | created, db'⟩ <;> rfl
  | update roleId input =>
    simp only [Prog.exec_query_bind]
    rcases hu : roleUpdate db c roleId input context with e | ⟨name, permissions⟩
    · exact .one (by simp only [advance, hu])
    · refine .head (.replacing c roleId input name permissions) db (by simp only [advance, hu]) ?_
      simp only [Prog.exec_bind]
      rcases hr : (updateRoleRow c roleId name input.color input.position permissions).exec db with ⟨e | updated, db'⟩
      · exact .one (by simp only [advance, hr])
      · rcases permissions with _ | permissions
        · exact .head (.reloading updated roleId) db' (by simp only [advance, hr]) (.one rfl)
        · exact .one (by simp only [advance, hr]; rfl)
  | assign targetId roleId =>
    simp only [Prog.exec_query_bind]
    rcases hf : (findRole db c roleId).isSome
    · exact .one (by simp only [advance, hf]; rfl)
    refine .head (.targeting c targetId roleId context) db (by simp only [advance, hf, if_true]) ?_
    rcases hm : db.communityMembers.contains (c, targetId)
    · exact .one (by simp only [advance, hm]; rfl)
    refine .head (.weighing c targetId roleId context) db (by simp only [advance, hm, if_true]) ?_
    simp only [if_true]
    rcases hg : guardRole db roleId context with e | _
    · exact .one (by simp only [advance, hg])
    refine .head (.giving c targetId roleId) db (by simp only [advance, hg]) (.one ?_)
    simp only [advance, Prog.exec_bind]
    rcases (assignRoleRow c targetId roleId).exec db with ⟨_ | _, db'⟩ <;> rfl
  | remove targetId roleId =>
    simp only [Prog.exec_query_bind]
    rcases hf : removableRole db c roleId with e | _
    · exact .one (by simp only [advance, hf])
    refine .head (.sparing c targetId roleId context) db (by simp only [advance, hf]) ?_
    rcases hg : guardRole db roleId context with e | _
    · exact .one (by simp only [advance, hg])
    refine .head (.taking c targetId roleId) db (by simp only [advance, hg]) (.one ?_)
    simp only [advance, Prog.exec_bind]
    rcases (removeRoleRow c targetId roleId).exec db with ⟨_ | removed, db'⟩
    · rfl
    · cases removed <;> rfl

/-- By itself, a call ends with the outcome and the database of the operation. -/
theorem ends_perform (op : RoleOperation) : Ends i (.resolving op .begun) db (op.perform.exec db) := by
  refine Resolution.resolves op.communityId op.actorId db (P := fun r => Ends i (.resolving op r) db (op.perform.exec db)) ?_ ?_
  · intro r r' hr h
    exact .head _ _ (by simp only [advance, hr]) h
  intro r hr
  rw [perform_eq, Prog.exec_query_bind, manager]
  rcases hc : memberContext db op.communityId op.actorId with e | context
  · rw [hc] at hr
    exact .one (by simp only [advance, hr]; rfl)
  · rw [hc] at hr
    refine .head (authorised op context) db (by simp only [advance, hr]) ?_
    rcases hrequire : context.require .manageRoles with e | _
    · simp only [authorised, hrequire, bind, Except.bind]
      exact .refl
    · simp only [hrequire, bind, Except.bind, pure, Except.pure]
      exact ends_permitted op context hrequire

end Alone

/-! ## A community -/

/-- A community with three members beside its owner, and no role but the default one. -/
def founded : Db :=
  { Db.empty 0 with
    users := (((Table.empty.insert { id := ⟨1⟩, handle := "owner", email := "owner@genzh.test", isActive := true }).insert
      { id := ⟨2⟩, handle := "mod", email := "mod@genzh.test", isActive := true }).insert
      { id := ⟨3⟩, handle := "mover", email := "mover@genzh.test", isActive := true }).insert
      { id := ⟨4⟩, handle := "guest", email := "guest@genzh.test", isActive := true }
    communities := Table.empty.insert { id := ⟨1⟩, ownerId := ⟨1⟩ }
    communityMembers := (((Table.empty.insert { communityId := ⟨1⟩, userId := ⟨1⟩ }).insert
      { communityId := ⟨1⟩, userId := ⟨2⟩ }).insert { communityId := ⟨1⟩, userId := ⟨3⟩ }).insert
      { communityId := ⟨1⟩, userId := ⟨4⟩ }
    roles := Table.empty.insert { id := ⟨1⟩, communityId := ⟨1⟩, isDefault := true, name := "@everyone" }
    rolePermissions := Table.empty.insert { roleId := ⟨1⟩, permissionKey := "view_room" } }

/-- The owner makes somebody a moderator, who manages roles and mutes, and lets somebody move people between rooms. -/
def appointments : List RoleOperation :=
  [⟨⟨1⟩, ⟨1⟩, .create ⟨2⟩ { name := "mods", color := none, position := none, permissions := [.manageRoles, .muteMembers] }⟩,
    ⟨⟨1⟩, ⟨1⟩, .create ⟨3⟩ { name := "movers", color := none, position := none, permissions := [.moveMembers] }⟩,
    ⟨⟨1⟩, ⟨1⟩, .assign ⟨2⟩ ⟨2⟩⟩, ⟨⟨1⟩, ⟨1⟩, .assign ⟨3⟩ ⟨3⟩⟩]

def moderated : Db := appointments.foldl (fun db op => (op.perform.exec db).2) founded

end Genzh.Community
