/-
Who can take a permission away that they do not have themselves. An assignment and a new role take nothing
away, and a removal is guarded by what the role grants. An update is guarded by the set it brings only: it
strips the role of whatever it granted before, whether the actor has it or not.
-/
import Genzh.Community.Escalation

namespace Genzh.Community

open Genzh.Lib Genzh.Domain Genzh.Infrastructure

section Stripping

variable {db db' : Db} {c : CommunityId} {u : UserId} {r : RoleId} {p : Permission}

/-! ## What a standing allows -/

theorem memberContext_allows {context : MemberContext} (h : memberContext db c u = .ok context) (p : Permission) :
    context.permissions.allows p = holds db c u p := by
  unfold holds
  rw [h]

theorem manager_ok {context : MemberContext} :
    manager db c u = .ok context ↔ memberContext db c u = .ok context ∧ holds db c u .manageRoles = true := by
  unfold manager MemberContext.require
  rcases h : memberContext db c u with e | context'
  · simp [bind, Except.bind]
  · rw [← memberContext_allows h]
    rcases ha : context'.permissions.allows .manageRoles <;> simp [bind, Except.bind, pure, Except.pure, ha]

/-- The guard lets through exactly what the actor holds. -/
theorem guard_iff {context : MemberContext} (h : memberContext db c u = .ok context) {requested granted : List Permission} :
    guardPrivilegeEscalation context requested = .ok granted ↔
      granted = requested ∧ ∀ q ∈ requested, holds db c u q = true := by
  have hallows := memberContext_allows h
  rcases hadmin : context.isAdmin
  · constructor
    · intro hg
      obtain ⟨heq, hall⟩ := guardPrivilegeEscalation_ok hadmin hg
      exact ⟨heq, fun q hq => (hallows q).symm.trans (hall q hq)⟩
    · rintro ⟨rfl, hall⟩
      have hnone : granted.find? (fun q => !context.permissions.allows q) = none := by
        rw [List.find?_eq_none]
        intro q hq
        simp [hallows, hall q hq]
      unfold guardPrivilegeEscalation
      simp only [hadmin, hnone, Bool.false_eq_true, if_false]
  · have hall : ∀ q, holds db c u q = true := by
      rw [isAdmin_eq, hallows] at hadmin
      exact holds_of_administrator hadmin
    unfold guardPrivilegeEscalation
    simp only [hadmin, if_true, Except.ok.injEq]
    exact ⟨fun heq => ⟨heq.symm, fun q _ => hall q⟩, fun hg => hg.1.symm⟩

/-- Is the member allowed a permission by a policy? -/
def Allowed (pol : Policy UserId RoleId Permission) (u : UserId) (p : Permission) : Prop :=
  p ∈ pol.held u ∨ .administrator ∈ pol.held u

/-- Who is allowed no less than before, and belongs to the community as before, holds no less. -/
theorem holds_of_allowed (honly : RolesOnly db db') (hallowed : Allowed (policy db c) u p → Allowed (policy db' c) u p)
    (h : holds db c u p = true) : holds db' c u p = true := by
  obtain ⟨community, hfound, hcase⟩ := holds_iff.1 h
  refine holds_iff.2 ⟨community, by rw [honly.communities]; exact hfound, ?_⟩
  rcases hcase with howner | ⟨hmember, hheld⟩
  · exact .inl howner
  · exact .inr ⟨by rw [honly.members]; exact hmember, hallowed hheld⟩

/-! ## Updates -/

/-- The update is one the service carries out: by an actor who manages roles, of a role of the community, with a
name that is valid, free and not for the default role, and with a set the actor holds, none of it twice. -/
structure Replaces (db : Db) (c : CommunityId) (actorId : UserId) (roleId : RoleId) (input : UpdateRole)
    (ps : List Permission) : Prop where
  manages : holds db c actorId .manageRoles = true
  role : ∃ role, findRole db c roleId = some role ∧ (role.isDefault = true → input.name = none)
  named : ∀ given, input.name = some given → ∃ name, validateRoleName given = .ok name ∧ nameTaken db c roleId name = false
  set : input.permissions = some ps
  handed : ∀ q ∈ ps, holds db c actorId q = true
  once : ps.Nodup

/-- A member who has a permission through one role and through nothing else. -/
structure OnlyThrough (db : Db) (c : CommunityId) (roleId : RoleId) (p : Permission) (u : UserId) : Prop where
  holds : holds db c u p = true
  plain : ∀ community, db.communities.find c = some community → community.ownerId ≠ u
  only : ∀ r ∈ (policy db c).roles u, r ≠ roleId → p ∉ (policy db c).grants r ∧ .administrator ∉ (policy db c).grants r

theorem toKey_injective {p q : Permission} (h : p.toKey = q.toKey) : p = q := by
  have hp := fromStr_toKey p
  rw [h, fromStr_toKey] at hp
  exact (Except.ok.inj hp).symm

/-- The grants of a role are inserted if none of them is there, and none comes twice. -/
theorem insertRolePermissions_succeeds {ps : List Permission} :
    (∃ db', (Prog.forEach ps (insertRolePermission r)).exec db = (.ok (), db')) ↔
      ps.Nodup ∧ ∀ q ∈ ps, db.rolePermissions.contains (r, q.toKey) = false := by
  induction ps generalizing db with
  | nil => simpa using ⟨db, rfl⟩
  | cons q ps ih =>
    have hcons : (Prog.forEach (q :: ps) (insertRolePermission r)).exec db =
        (insertRolePermission r q >>= fun _ => Prog.forEach ps (insertRolePermission r)).exec db := rfl
    rw [hcons, Prog.exec_bind, exec_insertRolePermission, List.nodup_cons]
    rcases hq : db.rolePermissions.contains (r, q.toKey)
    · simp only [Bool.false_eq_true, if_false]
      rw [ih]
      have hcontains : ∀ q', (db.rolePermissions.insert { roleId := r, permissionKey := q.toKey }).contains (r, q'.toKey) =
          (db.rolePermissions.contains (r, q'.toKey) || decide (q = q')) := by
        intro q'
        rw [Table.contains_insert]
        congr 1
        rw [decide_eq_decide]
        exact ⟨fun h => toKey_injective (Prod.mk.inj h).2, fun h => by rw [h]; rfl⟩
      simp only [hcontains, Bool.or_eq_false_iff, decide_eq_false_iff_not, List.mem_cons, forall_eq_or_imp, hq, true_and]
      constructor
      · rintro ⟨hnodup, hfree⟩
        exact ⟨⟨fun hmem => (hfree q hmem).2 rfl, hnodup⟩, fun q' hq' => (hfree q' hq').1⟩
      · rintro ⟨⟨hmem, hnodup⟩, hfree⟩
        refine ⟨hnodup, fun q' hq' => ⟨hfree q' hq', ?_⟩⟩
        rintro rfl
        exact hmem hq'
    · simp [hq]

/-- An update of a role goes through if the role is there, its name is free and its grants differ. -/
theorem updateRoleRow_succeeds {name color : Option String} {position : Option Int} {permissions : Option (List Permission)} :
    (∃ updated db', (updateRoleRow c r name color position permissions).exec db = (.ok updated, db')) ↔
      (findRole db c r).isSome = true ∧ (∀ n, name = some n → nameTaken db c r n = false) ∧
        ∀ ps, permissions = some ps → ps.Nodup := by
  unfold updateRoleRow
  rw [Prog.transaction_ok_iff, Prog.exec_query_bind]
  rcases hfound : findRole db c r with _ | role
  · simp
  simp only [Option.isSome_some, true_and]
  rw [SqlM.exec_check_bind]
  have hfree : (name.all fun name => !nameTaken db c r name) = true ↔ ∀ n, name = some n → nameTaken db c r n = false := by
    cases name <;> simp
  rcases hname : name.all fun name => !nameTaken db c r name
  · rw [hname] at hfree
    simp [← hfree]
  rw [hname, eq_self_iff_true, true_iff] at hfree
  simp only [if_true, Prog.exec_modify_bind]
  rcases permissions with _ | ps
  · simpa using hfree
  · constructor
    · rintro ⟨updated, db', h⟩
      rw [Prog.exec_modify_bind] at h
      obtain ⟨_, db₁, hins, -⟩ := Prog.bind_ok h
      refine ⟨hfree, fun ps' hps => ?_⟩
      rw [← Option.some.inj hps]
      exact (insertRolePermissions_succeeds.1 ⟨db₁, hins⟩).1
    · rintro ⟨-, hnodup⟩
      have hthen : ∀ {db : Db} {updated : Role}, (∃ db', (Prog.forEach ps (insertRolePermission r)).exec db = (.ok (), db')) →
          ∃ a db', (Prog.forEach ps (insertRolePermission r) >>= fun _ => (pure updated : SqlM Role)).exec db = (.ok a, db') := by
        rintro db updated ⟨db', hins⟩
        exact ⟨updated, db', Prog.exec_bind_ok hins⟩
      refine hthen (insertRolePermissions_succeeds.2 ⟨hnodup ps rfl, ?_⟩)
      -- what the role granted is deleted first
      intro q _
      rw [Table.contains_eq_false, Table.find_eq_none]
      rintro row hrow hkey
      have hr : row.roleId = r := congrArg Prod.fst hkey
      simpa [hr] using (Table.mem_deleteWhere.1 hrow).2

theorem manager_of_holds (h : holds db c u .manageRoles = true) : ∃ context, manager db c u = .ok context := by
  rcases hc : memberContext db c u with e | context
  · unfold holds at h
    simp [hc] at h
  · exact ⟨context, manager_ok.2 ⟨hc, h⟩⟩

/-- An update that replaces the set of a role passes every check before the write. -/
theorem Replaces.roleUpdate {roleId : RoleId} {input : UpdateRole} {ps : List Permission} {context : MemberContext}
    (h : Replaces db c u roleId input ps) (hc : memberContext db c u = .ok context) :
    ∃ name, roleUpdate db c roleId input context = .ok (name, some ps) ∧ ∀ n, name = some n → nameTaken db c roleId n = false := by
  obtain ⟨role, hfound, hdefault⟩ := h.role
  have hguard : guardPrivilegeEscalation context ps = .ok ps := (guard_iff hc).2 ⟨rfl, h.handed⟩
  rcases hn : input.name with _ | given
  · refine ⟨none, ?_, nofun⟩
    simp [Community.roleUpdate, hfound, hn, h.set, hguard, bind, Except.bind, pure, Except.pure, Except.map]
  · obtain ⟨name, hvalid, hfree⟩ := h.named given hn
    have hd : role.isDefault = false := by
      by_contra hd
      rw [hdefault (by simpa using hd)] at hn
      cases hn
    refine ⟨some name, ?_, ?_⟩
    · simp [Community.roleUpdate, hfound, hn, hd, h.set, hguard, hvalid, liftDomain, bind, Except.bind, pure, Except.pure,
        Except.map]
    · rintro n heq
      rw [← Option.some.inj heq]
      exact hfree

/-- The database an update leaves. -/
theorem exec_update {roleId : RoleId} {input : UpdateRole} :
    ((RoleOperation.mk c u (.update roleId input)).perform.exec db).2 =
      match manager db c u with
      | .error _ => db
      | .ok context =>
        match roleUpdate db c roleId input context with
        | .error _ => db
        | .ok (name, permissions) => ((updateRoleRow c roleId name input.color input.position permissions).exec db).2 := by
  rw [perform_eq, Prog.exec_query_bind]
  rcases manager db c u with e | context
  · rfl
  simp only [RoleOperation.permitted, Prog.exec_query_bind]
  rcases roleUpdate db c roleId input context with e | ⟨name, permissions⟩
  · rfl
  simp only [Prog.exec_bind]
  rcases (updateRoleRow c roleId name input.color input.position permissions).exec db with ⟨e | updated, db'⟩
  · rfl
  · cases permissions <;> rfl

/-- Where an update replaces the set of a role, the role grants the new one; otherwise all grants stay. -/
theorem perform_update (roleId : RoleId) (input : UpdateRole) (hk : RoleKeys db)
    (h : ((RoleOperation.mk c u (.update roleId input)).perform.exec db).2 = db') :
    RolesOnly db db' ∧
      ((∃ ps, Replaces db c u roleId input ps ∧ policy db' c = (policy db c).granting roleId {q | q ∈ ps}) ∨
        (¬ ∃ ps, Replaces db c u roleId input ps) ∧ policy db' c = policy db c) := by
  rw [exec_update] at h
  rcases hm : manager db c u with e | context
  · simp only [hm] at h
    subst h
    refine ⟨.refl db, .inr ⟨?_, rfl⟩⟩
    rintro ⟨ps, hrep⟩
    obtain ⟨context, hctx⟩ := manager_of_holds hrep.manages
    rw [hm] at hctx
    cases hctx
  obtain ⟨hc, hmanages⟩ := manager_ok.1 hm
  simp only [hm] at h
  rcases hu : roleUpdate db c roleId input context with e | ⟨name, permissions⟩
  · simp only [hu] at h
    subst h
    refine ⟨.refl db, .inr ⟨?_, rfl⟩⟩
    rintro ⟨ps, hrep⟩
    obtain ⟨name, hok, -⟩ := hrep.roleUpdate hc
    rw [hu] at hok
    cases hok
  simp only [hu] at h
  rcases hr : (updateRoleRow c roleId name input.color input.position permissions).exec db with ⟨e | updated, db₁⟩
  · -- a transaction that fails is one whose name is taken or which lists a permission twice
    rw [hr, Prog.transaction_error hr] at h
    obtain rfl : db = db' := h
    refine ⟨.refl db, .inr ⟨?_, rfl⟩⟩
    rintro ⟨ps, hrep⟩
    obtain ⟨name', hok, hfree⟩ := hrep.roleUpdate hc
    rw [hu] at hok
    cases hok
    obtain ⟨role, hfound, -⟩ := hrep.role
    have hgoes : ∃ updated db', (updateRoleRow c roleId name input.color input.position (some ps)).exec db =
        (.ok updated, db') := by
      refine updateRoleRow_succeeds.2 ⟨by rw [hfound]; rfl, hfree, fun ps' hps => ?_⟩
      rw [← Option.some.inj hps]
      exact hrep.once
    rw [hr] at hgoes
    obtain ⟨_, _, hgoes⟩ := hgoes
    cases hgoes
  · rw [hr] at h
    obtain rfl : db₁ = db' := h
    obtain ⟨honly, -, hpolicy⟩ := updateRoleRow_ok hk hr
    obtain ⟨existing, hfound, hdefault, hname, hset⟩ := roleUpdate_ok hu
    refine ⟨honly, ?_⟩
    rw [hpolicy, if_pos rfl]
    rcases hi : input.permissions with _ | requested
    · simp only [hi] at hset
      subst hset
      refine .inr ⟨?_, rfl⟩
      rintro ⟨ps, hrep⟩
      have hset := hrep.set
      rw [hi] at hset
      cases hset
    · simp only [hi] at hset
      obtain ⟨granted, hguard, rfl⟩ := hset
      obtain ⟨rfl, hhanded⟩ := (guard_iff hc).1 hguard
      obtain ⟨-, hfree, hnodup⟩ := updateRoleRow_succeeds.1 ⟨updated, db₁, hr⟩
      refine .inl ⟨granted, ⟨hmanages, ⟨existing, hfound, hdefault⟩, ?_, hi, hhanded, hnodup granted rfl⟩, rfl⟩
      intro given hn
      simp only [hn] at hname
      obtain ⟨valid, hvalid, rfl⟩ := hname
      exact ⟨valid, hvalid, hfree valid rfl⟩

/-! ## The other operations -/

theorem createRoleRow_fresh {role created : Role} {ps : List Permission}
    (h : (createRoleRow role ps).exec db = (.ok created, db')) : db.roles.contains role.id = false := by
  have h := Prog.transaction_ok h
  rw [SqlM.exec_check_bind] at h
  split at h
  · simpa using ‹(!db.roles.contains role.id) = true›
  · cases h

/-- A new role takes nothing from anybody. -/
theorem perform_create (roleId : RoleId) (input : CreateRole) (hk : RoleKeys db)
    (h : ((RoleOperation.mk c u (.create roleId input)).perform.exec db).2 = db') :
    RolesOnly db db' ∧ ∀ v q, q ∈ (policy db c).held v → q ∈ (policy db' c).held v := by
  rw [perform_eq, Prog.exec_query_bind] at h
  rcases hm : manager db c u with e | context
  · simp only [hm] at h
    subst h
    exact ⟨.refl db, fun _ _ => id⟩
  simp only [hm, RoleOperation.permitted, Prog.exec_lift_bind] at h
  rcases hn : newRole c roleId input context with e | ⟨role, ps⟩
  · simp only [hn] at h
    subst h
    exact ⟨.refl db, fun _ _ => id⟩
  simp only [hn, Prog.exec_bind] at h
  obtain ⟨-, hcommunity, hd, -⟩ := newRole_ok hn
  rcases hr : (createRoleRow role ps).exec db with ⟨e | created, db₁⟩
  · rw [hr, Prog.transaction_error hr] at h
    obtain rfl : db = db' := h
    exact ⟨.refl db, fun _ _ => id⟩
  · rw [hr] at h
    obtain rfl : db₁ = db' := h
    obtain ⟨honly, -, hpolicy⟩ := createRoleRow_ok hk hd hr
    refine ⟨honly, ?_⟩
    rintro v q ⟨r, hhas, hgrants⟩
    -- nobody had the new role before
    have hne : r ≠ role.id := by
      rintro rfl
      obtain ⟨old, hold, -⟩ := hhas
      have := contains_of_findRole hold
      rw [createRoleRow_fresh hr] at this
      cases this
    rw [hpolicy, if_pos hcommunity]
    refine ⟨r, hhas, ?_⟩
    rw [Policy.mem_grants_granting, if_neg hne]
    exact hgrants

/-- An assignment takes nothing from anybody. -/
theorem perform_assign (targetId : UserId) (roleId : RoleId) (hk : RoleKeys db)
    (h : ((RoleOperation.mk c u (.assign targetId roleId)).perform.exec db).2 = db') :
    RolesOnly db db' ∧ ∀ v q, q ∈ (policy db c).held v → q ∈ (policy db' c).held v := by
  have hrow : db' = db ∨ db' = ((assignRoleRow c targetId roleId).exec db).2 := by
    rw [perform_eq, Prog.exec_query_bind] at h
    rcases hm : manager db c u with e | context
    · simp only [hm] at h
      exact .inl h.symm
    simp only [hm, RoleOperation.permitted, Prog.exec_query_bind] at h
    split at h
    case h_2 => exact .inl h.symm
    split at h
    case h_2 => exact .inl h.symm
    split at h
    case h_2 => exact .inl h.symm
    rw [Prog.exec_bind] at h
    rcases hr : (assignRoleRow c targetId roleId).exec db with ⟨e | _, db₁⟩ <;> rw [hr] at h <;> exact .inr h.symm
  rcases hrow with rfl | hrow
  · exact ⟨.refl db', fun _ _ => id⟩
  rcases hr : (assignRoleRow c targetId roleId).exec db with ⟨e | _, db₁⟩
  · rw [hr, assignRoleRow_error hr] at hrow
    obtain rfl : db' = db := hrow
    exact ⟨.refl db', fun _ _ => id⟩
  · rw [hr] at hrow
    obtain rfl : db' = db₁ := hrow
    obtain ⟨honly, -, hpolicy⟩ := assignRoleRow_ok hk hr
    refine ⟨honly, fun v q hq => ?_⟩
    rw [hpolicy]
    split
    · exact Policy.held_of_giving hq
    · exact hq

/-- A removal takes nothing from anybody that the actor does not hold. -/
theorem perform_remove (targetId : UserId) (roleId : RoleId) (hk : RoleKeys db)
    (h : ((RoleOperation.mk c u (.remove targetId roleId)).perform.exec db).2 = db') :
    RolesOnly db db' ∧ ∀ v q, holds db c u q = false → q ∈ (policy db c).held v → q ∈ (policy db' c).held v := by
  have hrow : db' = db ∨ (db' = ((removeRoleRow c targetId roleId).exec db).2 ∧
      ∀ q ∈ (policy db c).grants roleId, holds db c u q = true) := by
    rw [perform_eq, Prog.exec_query_bind] at h
    rcases hm : manager db c u with e | context
    · simp only [hm] at h
      exact .inl h.symm
    simp only [hm, RoleOperation.permitted, Prog.exec_query_bind] at h
    split at h
    case h_2 => exact .inl h.symm
    split at h
    case h_2 => exact .inl h.symm
    rename_i hguard
    obtain ⟨granted, hguard⟩ := guardRole_ok hguard
    have hall := ((guard_iff (manager_ok.1 hm).1).1 hguard).2
    refine .inr ⟨?_, fun q hq => hall q (mem_grants.1 hq).2⟩
    rw [Prog.exec_bind] at h
    rcases hr : (removeRoleRow c targetId roleId).exec db with ⟨e | removed, db₁⟩ <;> rw [hr] at h
    · exact h.symm
    · cases removed <;> exact h.symm
  rcases hrow with rfl | ⟨rfl, hall⟩
  · exact ⟨.refl db', fun _ _ _ => id⟩
  obtain ⟨honly, -, hpolicy⟩ :=
    removeRoleRow_ok hk (Prod.mk.eta (p := (removeRoleRow c targetId roleId).exec db)).symm
  refine ⟨honly, fun v q hlacks hq => ?_⟩
  rw [hpolicy]
  split
  · refine Policy.held_of_taking hq fun hgrants => ?_
    rw [hall q hgrants] at hlacks
    cases hlacks
  · exact hq

/-! ## Who strips whom -/

theorem allowed_granting {s : Set Permission} (hp : p ∉ s) (hadmin : .administrator ∉ s) (pol : Policy UserId RoleId Permission) :
    Allowed (pol.granting r s) u p ↔ ∃ r' ∈ pol.roles u, r' ≠ r ∧ (p ∈ pol.grants r' ∨ .administrator ∈ pol.grants r') := by
  unfold Allowed
  rw [Policy.held_granting_iff hp, Policy.held_granting_iff hadmin]
  constructor
  · rintro (⟨r', hr', hne, hg⟩ | ⟨r', hr', hne, hg⟩)
    · exact ⟨r', hr', hne, .inl hg⟩
    · exact ⟨r', hr', hne, .inr hg⟩
  · rintro ⟨r', hr', hne, hg | hg⟩
    · exact .inl ⟨r', hr', hne, hg⟩
    · exact .inr ⟨r', hr', hne, hg⟩

/-- A role that no longer grants a permission takes it from those who had it through the role alone. -/
theorem granting_spares_iff {s : Set Permission} (honly : RolesOnly db db') (hpolicy : policy db' c = (policy db c).granting r s)
    (hp : p ∉ s) (hadmin : .administrator ∉ s) :
    (∀ m, holds db c m p = true → holds db' c m p = true) ↔ ¬ ∃ m, OnlyThrough db c r p m := by
  constructor
  · rintro h ⟨m, hm⟩
    obtain ⟨community, hfound, howner | ⟨-, hheld⟩⟩ := holds_iff.1 (h m hm.holds)
    · exact hm.plain community (by rw [← honly.communities]; exact hfound) howner
    · rw [hpolicy] at hheld
      obtain ⟨r', hr', hne, hgrants⟩ := (allowed_granting hp hadmin _).1 hheld
      exact hgrants.elim (hm.only r' hr' hne).1 (hm.only r' hr' hne).2
  · intro hnone m hm
    by_contra hlost
    refine hnone ⟨m, hm, ?_, ?_⟩
    · rintro community hfound rfl
      exact hlost (holds_iff.2 ⟨community, by rw [honly.communities]; exact hfound, .inl rfl⟩)
    · intro r' hr' hne
      have hgone : ¬ (p ∈ (policy db c).grants r' ∨ .administrator ∈ (policy db c).grants r') := by
        intro hgrants
        refine hlost (holds_of_allowed honly (fun _ => ?_) hm)
        rw [hpolicy]
        exact (allowed_granting hp hadmin _).2 ⟨r', hr', hne, hgrants⟩
      exact not_or.1 hgone

/-- An operation of an actor who lacks a permission takes it from nobody, unless it is an update that the service
carries out of a role through which alone somebody has it. -/
theorem spares_iff (op : RoleOperation) (hkeys : RoleKeys db) (hlacks : holds db op.communityId op.actorId p = false) :
    (∀ m, holds db op.communityId m p = true → holds (op.perform.exec db).2 op.communityId m p = true) ↔
      ¬ ∃ roleId input ps, op.request = .update roleId input ∧ Replaces db op.communityId op.actorId roleId input ps ∧
        ∃ m, OnlyThrough db op.communityId roleId p m := by
  obtain ⟨c, actor, request⟩ := op
  have hadmin : holds db c actor .administrator = false := by
    by_contra h
    rw [Bool.not_eq_false] at h
    rw [holds_of_administrator h p] at hlacks
    cases hlacks
  -- an operation that takes away only what the actor holds is no case of the condition
  have hspares : ∀ db', RolesOnly db db' → (∀ v q, holds db c actor q = false → q ∈ (policy db c).held v →
      q ∈ (policy db' c).held v) → ∀ m, holds db c m p = true → holds db' c m p = true := by
    intro db' honly hkept m
    refine holds_of_allowed honly fun hallowed => ?_
    exact hallowed.imp (hkept m p hlacks) (hkept m _ hadmin)
  cases request with
  | create roleId input =>
    obtain ⟨honly, hkept⟩ := perform_create (c := c) (u := actor) roleId input hkeys rfl
    exact iff_of_true (hspares _ honly fun v q _ => hkept v q) (by simp)
  | assign targetId roleId =>
    obtain ⟨honly, hkept⟩ := perform_assign (c := c) (u := actor) targetId roleId hkeys rfl
    exact iff_of_true (hspares _ honly fun v q _ => hkept v q) (by simp)
  | remove targetId roleId =>
    obtain ⟨honly, hkept⟩ := perform_remove (c := c) (u := actor) targetId roleId hkeys rfl
    exact iff_of_true (hspares _ honly hkept) (by simp)
  | update roleId input =>
    obtain ⟨honly, hcases⟩ := perform_update (c := c) (u := actor) roleId input hkeys rfl
    rcases hcases with ⟨ps, hrep, hpolicy⟩ | ⟨hnone, hpolicy⟩
    · have hhanded : ∀ q, holds db c actor q = false → q ∉ {q : Permission | q ∈ ps} := by
        intro q hq hmem
        rw [hrep.handed q hmem] at hq
        cases hq
      rw [granting_spares_iff honly hpolicy (hhanded p hlacks) (hhanded _ hadmin), not_iff_not]
      constructor
      · exact fun hm => ⟨roleId, input, ps, rfl, hrep, hm⟩
      · rintro ⟨roleId', input', ps', heq, -, hm⟩
        cases heq
        exact hm
    · refine iff_of_true (hspares _ honly fun v q _ hq => by rw [hpolicy]; exact hq) ?_
      rintro ⟨roleId', input', ps, heq, hrep, -⟩
      cases heq
      exact hnone ⟨ps, hrep⟩

end Stripping

/-- An update of the role that moves people, with a set: by the moderator, who does not move anybody. -/
def emptied (ps : List Permission) : RoleOperation :=
  ⟨⟨1⟩, ⟨2⟩, .update ⟨3⟩ { name := none, color := none, position := none, permissions := some ps }⟩

theorem spares_iff_moderated :
    (∀ m, holds moderated ⟨1⟩ m .moveMembers = true →
        holds ((emptied [.muteMembers, .muteMembers]).perform.exec moderated).2 ⟨1⟩ m .moveMembers = true) ↔
      ¬ ∃ roleId input ps, (emptied [.muteMembers, .muteMembers]).request = .update roleId input ∧
        Replaces moderated ⟨1⟩ ⟨2⟩ roleId input ps ∧ ∃ m, OnlyThrough moderated ⟨1⟩ roleId .moveMembers m :=
  spares_iff (emptied [.muteMembers, .muteMembers]) ⟨by decide +kernel, by decide +kernel⟩ (by decide +kernel)

/-- The moderator can neither move people nor administer the community, and takes the one from whoever can. -/
theorem moderator_strips_mover :
    (holds moderated ⟨1⟩ ⟨2⟩ .moveMembers = false ∧ holds moderated ⟨1⟩ ⟨2⟩ .administrator = false ∧
        holds moderated ⟨1⟩ ⟨3⟩ .moveMembers = true ∧
        holds ((emptied []).perform.exec moderated).2 ⟨1⟩ ⟨3⟩ .moveMembers = false) ∧
      ¬ ∀ (db : Db) (op : RoleOperation) (p : Permission), RoleKeys db → holds db op.communityId op.actorId p = false →
        ∀ m, holds db op.communityId m p = true → holds (op.perform.exec db).2 op.communityId m p = true := by
  have hstrips : holds moderated ⟨1⟩ ⟨2⟩ .moveMembers = false ∧ holds moderated ⟨1⟩ ⟨2⟩ .administrator = false ∧
      holds moderated ⟨1⟩ ⟨3⟩ .moveMembers = true ∧
      holds ((emptied []).perform.exec moderated).2 ⟨1⟩ ⟨3⟩ .moveMembers = false := by
    decide +kernel
  refine ⟨hstrips, fun h => ?_⟩
  obtain ⟨hlacks, -, hheld, hlost⟩ := hstrips
  have hkept := h moderated (emptied []) .moveMembers ⟨by decide +kernel, by decide +kernel⟩ hlacks ⟨3⟩ hheld
  rw [show holds ((emptied []).perform.exec moderated).2 (emptied []).communityId ⟨3⟩ .moveMembers = false from hlost] at hkept
  cases hkept

end Genzh.Community
