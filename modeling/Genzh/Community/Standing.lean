/-
What a community's rows say about who holds what, as a policy by roles, and what each write to them does to
the policy: a new role and an update grant a set of permissions by a role, an assignment gives a role and a
removal takes it away. A write that fails leaves everything as it was.

A member allows what the policy says they hold, and everything where that is the administrator's
permission; the owner allows everything.
-/
import Genzh.Community.Roles
import Genzh.Lib.Policy

namespace Genzh.Community

open Genzh.Lib Genzh.Domain Genzh.Infrastructure

/-- Does somebody hold a permission in a community? -/
def holds (db : Db) (communityId : CommunityId) (userId : UserId) (p : Permission) : Bool :=
  match memberContext db communityId userId with
  | .ok context => context.permissions.allows p
  | .error _ => false

/-- The policy the rows stand for. -/
def policy (db : Db) (communityId : CommunityId) : Policy UserId RoleId Permission where
  roles u := {r | ∃ role, findRole db communityId r = some role ∧
    (role.isDefault = true ∨ db.memberRoles.contains (communityId, u, r) = true)}
  grants r := {p | (findRole db communityId r).isSome = true ∧ p ∈ rolePermissions db r}

/-- The foreign keys to `roles`. -/
structure RoleKeys (db : Db) : Prop where
  permissions : ∀ row ∈ db.rolePermissions.rows, db.roles.contains row.roleId = true
  members : ∀ row ∈ db.memberRoles.rows, db.roles.contains row.roleId = true

section Standing

variable {db db' : Db} {c : CommunityId} {u : UserId} {r : RoleId} {p : Permission}

theorem findRole_eq_some {role : Role} :
    findRole db c r = some role ↔ db.roles.find r = some role ∧ role.communityId = c := by
  simp [findRole, Option.filter_eq_some_iff]

theorem contains_of_findRole {role : Role} (h : findRole db c r = some role) : db.roles.contains r = true :=
  Table.contains_iff.2 ⟨role, (findRole_eq_some.1 h).1⟩

theorem mem_roles : r ∈ (policy db c).roles u ↔ ∃ role, findRole db c r = some role ∧
    (role.isDefault = true ∨ db.memberRoles.contains (c, u, r) = true) := Iff.rfl

theorem mem_grants : p ∈ (policy db c).grants r ↔ (findRole db c r).isSome = true ∧ p ∈ rolePermissions db r := Iff.rfl

theorem mem_rolePermissions : p ∈ rolePermissions db r ↔
    ∃ row ∈ db.rolePermissions.rows, row.roleId = r ∧ (Permission.fromStr row.permissionKey).toOption = some p := by
  simp [rolePermissions, Table.mem_select, and_assoc]

theorem mem_memberRoleIds : r ∈ memberRoleIds db c u ↔ r ∈ (policy db c).roles u := by
  unfold memberRoleIds
  rw [List.mem_map, mem_roles]
  constructor
  · rintro ⟨role, hmem, rfl⟩
    obtain ⟨hrow, hh⟩ := Table.mem_select.1 hmem
    simp only [holdsRole, Bool.and_eq_true, Bool.or_eq_true, decide_eq_true_eq] at hh
    exact ⟨role, findRole_eq_some.2 ⟨Table.mem_iff_find.1 hrow, hh.1⟩, hh.2⟩
  · rintro ⟨role, hfind, hh⟩
    obtain ⟨hfind, hc⟩ := findRole_eq_some.1 hfind
    obtain ⟨hrow, hkey⟩ := Table.find_eq_some.1 hfind
    obtain rfl : role.id = r := hkey
    exact ⟨role, Table.mem_select.2 ⟨hrow, by simp [holdsRole, hc, hh]⟩, rfl⟩

/-- The permissions of a member are those the policy says they hold. -/
theorem mem_memberPermissions : p ∈ memberPermissions db c u ↔ p ∈ (policy db c).held u := by
  unfold memberPermissions
  rw [List.mem_filterMap, Policy.mem_held]
  constructor
  · rintro ⟨row, hmem, hp⟩
    obtain ⟨hrow, hr⟩ := Table.mem_select.1 hmem
    have hrole := mem_memberRoleIds.1 (of_decide_eq_true hr)
    have hfound : (findRole db c row.roleId).isSome = true := by
      obtain ⟨role, hfind, -⟩ := mem_roles.1 hrole
      rw [hfind, Option.isSome_some]
    exact ⟨row.roleId, hrole, hfound, mem_rolePermissions.2 ⟨row, hrow, rfl, hp⟩⟩
  · rintro ⟨r, hr, -, hp⟩
    obtain ⟨row, hrow, rfl, hkey⟩ := mem_rolePermissions.1 hp
    exact ⟨row, Table.mem_select.2 ⟨hrow, decide_eq_true (mem_memberRoleIds.2 hr)⟩, hkey⟩

/-- What a member's standing allows. -/
theorem allows_iff {community : Community} {roleIds : List RoleId} :
    (MemberContext.new community u roleIds (memberPermissions db c u)).permissions.allows p = true ↔
      community.ownerId = u ∨ p ∈ (policy db c).held u ∨ .administrator ∈ (policy db c).held u := by
  unfold MemberContext.new resolveMemberPermissions
  by_cases ho : community.ownerId = u
  · simp [ho, PermissionSet.administrator_allows]
  · simp [ho, PermissionSet.allows_fromPermissions, mem_memberPermissions]

theorem holds_iff : holds db c u p = true ↔ ∃ community, db.communities.find c = some community ∧
    (community.ownerId = u ∨ (db.communityMembers.contains (c, u) = true ∧
      (p ∈ (policy db c).held u ∨ .administrator ∈ (policy db c).held u))) := by
  unfold holds memberContext
  rcases hc : db.communities.find c with _ | community
  · simp
  · by_cases ho : community.ownerId = u
    · have hall : (MemberContext.new community u [] []).permissions.allows p = true := by
        simp [MemberContext.new, resolveMemberPermissions, ho, PermissionSet.administrator_allows]
      simp [ho, hall]
    · rcases hm : db.communityMembers.contains (c, u)
      · simp [ho]
      · simp only [ho, if_false, if_true, Option.some.injEq, exists_eq_left', false_or, true_and]
        rw [allows_iff]
        simp [ho]

/-- Whoever holds the administrator's permission holds every one. -/
theorem holds_of_administrator (h : holds db c u .administrator = true) (p : Permission) : holds db c u p = true := by
  obtain ⟨community, hc, ho | ⟨hm, hadmin⟩⟩ := holds_iff.1 h
  · exact holds_iff.2 ⟨community, hc, .inl ho⟩
  · exact holds_iff.2 ⟨community, hc, .inr ⟨hm, .inr (hadmin.elim id id)⟩⟩

/-! ## The writes -/

/-- Everything but the roles, their permissions and who has them is as it was. -/
structure RolesOnly (db db' : Db) : Prop where
  communities : db'.communities = db.communities
  members : db'.communityMembers = db.communityMembers

theorem RolesOnly.refl (db : Db) : RolesOnly db db := ⟨rfl, rfl⟩

theorem RolesOnly.trans {db₁ db₂ db₃ : Db} (h : RolesOnly db₁ db₂) (h' : RolesOnly db₂ db₃) : RolesOnly db₁ db₃ :=
  ⟨h'.communities.trans h.communities, h'.members.trans h.members⟩

/-- What a write did to the policy of every community, keeping the rest. -/
structure Writes (change : CommunityId → Policy UserId RoleId Permission → Policy UserId RoleId Permission)
    (db db' : Db) : Prop where
  only : RolesOnly db db'
  keys : RoleKeys db'
  policy : ∀ c, policy db' c = change c (policy db c)

theorem exec_insertRolePermission (r : RoleId) (p : Permission) (db : Db) :
    (insertRolePermission r p).exec db =
      if db.rolePermissions.contains (r, p.toKey) then (.error (.repository (.conflict "role_permissions_pkey")), db)
      else (.ok (), { db with rolePermissions := db.rolePermissions.insert { roleId := r, permissionKey := p.toKey } }) := by
  unfold insertRolePermission
  rw [SqlM.exec_check_bind]
  cases db.rolePermissions.contains (r, p.toKey) <;> rfl

theorem fromStr_toKey (p : Permission) : Permission.fromStr p.toKey = .ok p := by
  cases p <;> rfl

/-- The grants of a role, inserted one by one. -/
theorem insertRolePermissions_ok {ps : List Permission} {db db' : Db}
    (h : (Prog.forEach ps (insertRolePermission r)).exec db = (.ok (), db')) :
    db' = { db with rolePermissions := db'.rolePermissions } ∧
      ∀ row, row ∈ db'.rolePermissions.rows ↔
        row ∈ db.rolePermissions.rows ∨ ∃ p ∈ ps, row = { roleId := r, permissionKey := p.toKey } := by
  induction ps generalizing db with
  | nil =>
    cases h
    exact ⟨rfl, by simp⟩
  | cons p ps ih =>
    obtain ⟨_, db₁, h₁, h₂⟩ := Prog.bind_ok h
    rw [exec_insertRolePermission] at h₁
    split at h₁
    · cases h₁
    · rename_i hfree
      cases h₁
      obtain ⟨heq, hrows⟩ := ih h₂
      refine ⟨heq, fun row => ?_⟩
      have hins : db.rolePermissions.contains (key ({ roleId := r, permissionKey := p.toKey } : RolePermission)) = false :=
        Bool.eq_false_iff.2 hfree
      rw [hrows, Table.mem_insert]
      simp only [hins, and_true, List.exists_mem_cons_iff, or_assoc]

/-- What a role grants after its grants were inserted, on rows that had none of it. -/
theorem mem_rolePermissions_inserted {ps : List Permission} {rows : List RolePermission} {r' : RoleId}
    (hnone : ∀ row ∈ rows, row.roleId ≠ r)
    (hrows : ∀ row, row ∈ db'.rolePermissions.rows ↔ row ∈ rows ∨ ∃ p ∈ ps, row = { roleId := r, permissionKey := p.toKey })
    (hkept : ∀ row, row.roleId ≠ r → (row ∈ rows ↔ row ∈ db.rolePermissions.rows)) :
    p ∈ rolePermissions db' r' ↔ if r' = r then p ∈ ps else p ∈ rolePermissions db r' := by
  rw [mem_rolePermissions]
  split
  · rename_i heq
    subst heq
    constructor
    · rintro ⟨row, hrow, hr, hp⟩
      rcases (hrows row).1 hrow with hold | ⟨q, hq, rfl⟩
      · exact absurd hr (hnone row hold)
      · rw [fromStr_toKey] at hp
        obtain rfl : q = p := Option.some.inj hp
        exact hq
    · intro hp
      exact ⟨_, (hrows _).2 (.inr ⟨p, hp, rfl⟩), rfl, by rw [fromStr_toKey]; rfl⟩
  · rename_i hne
    rw [mem_rolePermissions]
    constructor
    · rintro ⟨row, hrow, rfl, hp⟩
      rcases (hrows row).1 hrow with hold | ⟨q, -, rfl⟩
      · exact ⟨row, (hkept row hne).1 hold, rfl, hp⟩
      · exact absurd rfl hne
    · rintro ⟨row, hrow, rfl, hp⟩
      exact ⟨row, (hrows row).2 (.inl ((hkept row hne).2 hrow)), rfl, hp⟩

/-- Roles that are found as before, and are default roles as before, are had as before. -/
theorem roles_congr (hroles : ∀ r, (findRole db' c r).map (·.isDefault) = (findRole db c r).map (·.isDefault))
    (hmembers : db'.memberRoles = db.memberRoles) : (policy db' c).roles = (policy db c).roles := by
  have hiff : ∀ {db₁ db₂ : Db} {r : RoleId} {role : Role},
      (findRole db₂ c r).map (·.isDefault) = (findRole db₁ c r).map (·.isDefault) →
      findRole db₂ c r = some role → ∃ role', findRole db₁ c r = some role' ∧ role'.isDefault = role.isDefault := by
    intro db₁ db₂ r role h hfind
    rw [hfind, Option.map_some] at h
    obtain ⟨role', hfind', hd⟩ := Option.map_eq_some_iff.1 h.symm
    exact ⟨role', hfind', hd⟩
  funext u
  ext r
  rw [mem_roles, mem_roles, hmembers]
  constructor
  · rintro ⟨role, hfind, h⟩
    obtain ⟨role', hfind', hd⟩ := hiff (hroles r) hfind
    exact ⟨role', hfind', hd ▸ h⟩
  · rintro ⟨role, hfind, h⟩
    obtain ⟨role', hfind', hd⟩ := hiff (hroles r).symm hfind
    exact ⟨role', hfind', hd ▸ h⟩

theorem findRole_of_absent {r : RoleId} (h : db.roles.contains r = false) (c : CommunityId) : findRole db c r = none := by
  unfold findRole
  rw [Table.contains_eq_false.1 h, Option.filter_none]

theorem findRole_insert {role : Role} (hfresh : db.roles.contains role.id = false) (hroles : db'.roles = db.roles.insert role)
    (c : CommunityId) (r : RoleId) :
    findRole db' c r = if r = role.id then (if role.communityId = c then some role else none) else findRole db c r := by
  have hfind : db'.roles.find r = (db.roles.find r).or (if role.id = r then some role else none) := by
    rw [hroles, Table.find_insert]
    rfl
  unfold findRole
  rw [hfind]
  split
  · rename_i hr
    subst hr
    rw [Table.contains_eq_false.1 hfresh]
    by_cases hc : role.communityId = c <;> simp [hc]
  · rename_i hr
    rw [if_neg (Ne.symm hr), Option.or_none]

/-- What the creation of a role writes: its row, under an identifier that was free, and its grants. -/
theorem createRoleRow_writes {role created : Role} {ps : List Permission}
    (h : (createRoleRow role ps).exec db = (.ok created, db')) :
    db.roles.contains role.id = false ∧
      db' = { db with roles := db.roles.insert role, rolePermissions := db'.rolePermissions } ∧
      ∀ row, row ∈ db'.rolePermissions.rows ↔
        row ∈ db.rolePermissions.rows ∨ ∃ p ∈ ps, row = { roleId := role.id, permissionKey := p.toKey } := by
  have h := Prog.transaction_ok h
  rw [SqlM.exec_check_bind] at h
  split at h
  case isFalse => cases h
  rename_i hfresh
  rw [SqlM.exec_check_bind] at h
  split at h
  case isFalse => cases h
  rw [SqlM.exec_check_bind] at h
  split at h
  case isFalse => cases h
  rw [Prog.exec_modify_bind] at h
  obtain ⟨_, db₁, hins, hpure⟩ := Prog.bind_ok h
  cases hpure
  obtain ⟨heq, hrows⟩ := insertRolePermissions_ok hins
  exact ⟨by simpa using hfresh, heq, hrows⟩

/-- One role grants another set, and the rest of what is granted stays: in the community of the role that is a change of the
policy, and in the others it is none. -/
theorem grants_granting {owner : CommunityId} {ps : List Permission}
    (hgranted : ∀ p r', p ∈ rolePermissions db' r' ↔ if r' = r then p ∈ ps else p ∈ rolePermissions db r')
    (howner : (findRole db' c r).isSome = true ↔ owner = c) (hforeign : owner ≠ c → findRole db c r = none)
    (hothers : ∀ r', r' ≠ r → (findRole db' c r').isSome = (findRole db c r').isSome) (r' : RoleId) :
    (policy db' c).grants r' = (if owner = c then (policy db c).granting r {p | p ∈ ps} else policy db c).grants r' := by
  ext p
  rw [mem_grants, hgranted]
  by_cases hr : r' = r
  · subst hr
    rw [if_pos rfl, howner]
    by_cases hc : owner = c
    · rw [if_pos hc, Policy.mem_grants_granting, if_pos rfl, and_iff_right hc]
      exact Iff.rfl
    · rw [if_neg hc, mem_grants, hforeign hc]
      exact iff_of_false (fun h => hc h.1) fun h => Bool.false_ne_true h.1
  · rw [if_neg hr, hothers r' hr]
    split
    · rw [Policy.mem_grants_granting, if_neg hr, mem_grants]
    · exact Iff.rfl

/-- A new role grants its permissions, and nobody has it yet. -/
theorem createRoleRow_ok {role created : Role} {ps : List Permission} (hk : RoleKeys db) (hd : role.isDefault = false)
    (h : (createRoleRow role ps).exec db = (.ok created, db')) :
    Writes (fun c pol => if role.communityId = c then pol.granting role.id {p | p ∈ ps} else pol) db db' := by
  obtain ⟨hfresh, heq, hrows⟩ := createRoleRow_writes h
  have hroles : db'.roles = db.roles.insert role := by rw [heq]
  have hmembers : db'.memberRoles = db.memberRoles := by rw [heq]
  have hfind := findRole_insert hfresh hroles
  -- no row of the tables that refer to a role refers to the new one
  have hnone : ∀ row ∈ db.rolePermissions.rows, row.roleId ≠ role.id := by
    rintro row hrow heq
    rw [← heq, hk.permissions row hrow] at hfresh
    cases hfresh
  have hcontains : ∀ r, db.roles.contains r = true → db'.roles.contains r = true := by
    intro r hr
    rw [hroles, Table.contains_insert, hr, Bool.true_or]
  refine ⟨⟨by rw [heq], by rw [heq]⟩, ⟨?_, ?_⟩, fun c => ?_⟩
  · intro row hrow
    rcases (hrows row).1 hrow with hrow | ⟨p, -, rfl⟩
    · exact hcontains _ (hk.permissions row hrow)
    · rw [hroles, Table.contains_insert]
      simp [key]
  · intro row hrow
    rw [hmembers] at hrow
    exact hcontains _ (hk.members row hrow)
  · -- the new role grants what it was made with and is held by nobody, as it is not the default one
    have hgrants : ∀ p r', p ∈ rolePermissions db' r' ↔ if r' = role.id then p ∈ ps else p ∈ rolePermissions db r' :=
      fun p r' => mem_rolePermissions_inserted hnone hrows fun _ _ => Iff.rfl
    have hnobody : ∀ u, db'.memberRoles.contains (c, u, role.id) = false := by
      intro u
      rw [hmembers, Table.contains_eq_false, Table.find_eq_none]
      rintro row hrow hkey
      have hrow := hk.members row hrow
      rw [show row.roleId = role.id from congrArg (·.2.2) hkey, hfresh] at hrow
      cases hrow
    apply Policy.ext
    · intro u
      have : (policy db' c).roles u = (policy db c).roles u := by
        ext r
        rw [mem_roles, mem_roles]
        by_cases hr : r = role.id
        · subst hr
          rw [hfind, findRole_of_absent hfresh, hnobody]
          by_cases hc : role.communityId = c <;> simp [hc, hd]
        · rw [hfind, if_neg hr, hmembers]
      rw [this]
      split <;> rfl
    · refine grants_granting (fun p r' => hgrants p r') ?_ (fun _ => findRole_of_absent hfresh c) fun r' hr => ?_
      · rw [hfind, if_pos rfl]
        by_cases hc : role.communityId = c <;> simp [hc]
      · rw [hfind, if_neg hr]

theorem findRole_update {f : Role → Role} {hf} (hroles : db'.roles = db.roles.update r f hf)
    (hcommunity : ∀ role, (f role).communityId = role.communityId) (c : CommunityId) (r' : RoleId) :
    findRole db' c r' = if r = r' then (findRole db c r').map f else findRole db c r' := by
  unfold findRole
  rw [hroles, Table.find_update]
  split
  · rcases db.roles.find r' with _ | role
    · rfl
    · by_cases hc : role.communityId = c <;> simp [Option.filter, hcommunity, hc]
  · rfl

/-- A role is a role of one community. -/
theorem findRole_elsewhere {role : Role} (hfound : findRole db c r = some role) {c' : CommunityId} (hc : c ≠ c') :
    findRole db c' r = none := by
  obtain ⟨hrow, hcommunity⟩ := findRole_eq_some.1 hfound
  unfold findRole
  rw [hrow]
  simp [hcommunity, hc]

/-- What the update of a role writes: its row, and what it grants in the place of what it granted. -/
theorem updateRoleRow_writes {name color : Option String} {position : Option Int} {permissions : Option (List Permission)}
    {updated : Role} (h : (updateRoleRow c r name color position permissions).exec db = (.ok updated, db')) :
    (∃ role, findRole db c r = some role) ∧
      db' = { db with
        roles := db.roles.update r (updatedRole name color position) fun _ => rfl
        rolePermissions := db'.rolePermissions } ∧
      (∀ row ∈ db'.rolePermissions.rows, row.roleId = r ∨ row ∈ db.rolePermissions.rows) ∧
      ∀ p r', p ∈ rolePermissions db' r' ↔ permissions.elim (p ∈ rolePermissions db r') fun ps =>
        if r' = r then p ∈ ps else p ∈ rolePermissions db r' := by
  have h := Prog.transaction_ok h
  rw [Prog.exec_query_bind] at h
  rcases hfound : findRole db c r with _ | role
  · simp only [hfound] at h
    cases h
  simp only [hfound] at h
  rw [SqlM.exec_check_bind] at h
  split at h
  case isFalse => cases h
  rw [Prog.exec_modify_bind] at h
  refine ⟨⟨role, rfl⟩, ?_⟩
  rcases permissions with _ | ps
  · cases h
    exact ⟨rfl, fun row hrow => .inr hrow, fun p r' => Iff.rfl⟩
  · -- the old grants go before the new ones come
    rw [Prog.exec_modify_bind] at h
    obtain ⟨_, db₁, hins, hpure⟩ := Prog.bind_ok h
    cases hpure
    obtain ⟨heq, hrows⟩ := insertRolePermissions_ok hins
    refine ⟨heq, fun row hrow => ?_, fun p r' => ?_⟩
    · rcases (hrows row).1 hrow with hold | ⟨p, -, rfl⟩
      · exact .inr (Table.mem_deleteWhere.1 hold).1
      · exact .inl rfl
    · refine mem_rolePermissions_inserted ?_ hrows ?_
      · intro row hrow
        simpa using (Table.mem_deleteWhere.1 hrow).2
      · intro row hne
        rw [Table.mem_deleteWhere]
        simp [hne]

/-- An update grants the set it brings, in the place of what the role granted. -/
theorem updateRoleRow_ok {name color : Option String} {position : Option Int} {permissions : Option (List Permission)}
    {updated : Role} (hk : RoleKeys db)
    (h : (updateRoleRow c r name color position permissions).exec db = (.ok updated, db')) :
    Writes (fun c' pol => if c = c' then permissions.elim pol fun ps => pol.granting r {p | p ∈ ps} else pol) db db' := by
  obtain ⟨⟨role, hfound⟩, heq, hrows, hgrants⟩ := updateRoleRow_writes h
  obtain ⟨hf, hroles⟩ : ∃ hf, db'.roles = db.roles.update r (updatedRole name color position) hf :=
    ⟨fun _ => rfl, by rw [heq]⟩
  have hmembers : db'.memberRoles = db.memberRoles := by rw [heq]
  have hfind := findRole_update hroles fun _ => rfl
  have hsame : ∀ c' r', (findRole db' c' r').isSome = (findRole db c' r').isSome := by
    intro c' r'
    rw [hfind]
    split <;> simp
  have hcontains : ∀ r', db'.roles.contains r' = db.roles.contains r' := by
    intro r'
    rw [hroles, Table.update, Table.contains_updateWhere]
  refine ⟨⟨by rw [heq], by rw [heq]⟩, ⟨?_, ?_⟩, fun c' => ?_⟩
  · intro row hrow
    rw [hcontains]
    rcases hrows row hrow with rfl | hold
    · exact contains_of_findRole hfound
    · exact hk.permissions row hold
  · intro row hrow
    rw [hmembers] at hrow
    rw [hcontains]
    exact hk.members row hrow
  · -- who has the role does not change, only what it grants
    have hhad : (policy db' c').roles = (policy db c').roles := by
      refine roles_congr (fun r' => ?_) hmembers
      rw [hfind]
      split
      · rw [Option.map_map]
        rfl
      · rfl
    apply Policy.ext
    · intro u
      rw [hhad]
      split
      · cases permissions <;> rfl
      · rfl
    · intro r'
      rcases permissions with _ | ps
      · have hkept : (policy db' c').grants r' = (policy db c').grants r' := by
          ext p
          rw [mem_grants, hsame, hgrants]
          exact Iff.rfl
        rw [hkept]
        split <;> rfl
      · refine grants_granting (fun p r' => hgrants p r') ?_ (fun hc => findRole_elsewhere hfound hc)
          (fun r' _ => hsame c' r') r'
        rw [hsame]
        by_cases hc : c = c'
        · subst hc
          exact iff_of_true (by rw [hfound]; rfl) rfl
        · exact iff_of_false (by rw [findRole_elsewhere hfound hc]; exact Bool.false_ne_true) hc

theorem assignRoleRow_error {e : ServiceError} (h : (assignRoleRow c u r).exec db = (.error e, db')) : db' = db := by
  unfold assignRoleRow at h
  rw [SqlM.exec_check_bind] at h
  split at h <;> cases h
  rfl

/-- Other rows of assignments change the policy so, if they say of each role of a community what the changed policy does. -/
theorem writes_memberRoles {rows : Table MemberRole}
    {change : CommunityId → Policy UserId RoleId Permission → Policy UserId RoleId Permission} (hk : RoleKeys db)
    (hrows : ∀ row ∈ rows.rows, db.roles.contains row.roleId = true)
    (hgrants : ∀ c', (change c' (policy db c')).grants = (policy db c').grants)
    (hroles : ∀ c' u' r', r' ∈ (change c' (policy db c')).roles u' ↔ ∃ role, findRole db c' r' = some role ∧
      (role.isDefault = true ∨ rows.contains (c', u', r') = true)) :
    Writes change db { db with memberRoles := rows } := by
  refine ⟨⟨rfl, rfl⟩, ⟨hk.permissions, hrows⟩, fun c' => Policy.ext (fun u' => ?_) fun r' => ?_⟩
  · ext r'
    exact (hroles c' u' r').symm
  · exact (congrFun (hgrants c') r').symm

/-- An assignment gives the role. -/
theorem assignRoleRow_ok (hk : RoleKeys db) (h : (assignRoleRow c u r).exec db = (.ok (), db')) :
    Writes (fun c' pol => if c = c' ∧ (findRole db c r).isSome = true then pol.giving u r else pol) db db' := by
  unfold assignRoleRow at h
  rw [SqlM.exec_check_bind] at h
  split at h
  case isFalse => cases h
  rename_i hfk
  cases h
  have hrole : db.roles.contains r = true := by
    rw [Bool.or_eq_true] at hfk
    rcases hfk with hheld | hboth
    · obtain ⟨row, hrow⟩ := Table.contains_iff.1 hheld
      obtain ⟨hmem, hkey⟩ := Table.find_eq_some.1 hrow
      rw [← show row.roleId = r from congrArg (·.2.2) hkey]
      exact hk.members row hmem
    · exact (Bool.and_eq_true _ _ ▸ hboth).1
  refine writes_memberRoles hk (fun row hrow => ?_) (fun c' => by split <;> rfl) fun c' u' r' => ?_
  · rcases Table.mem_insert.1 hrow with hold | ⟨rfl, -⟩
    · exact hk.members row hold
    · exact hrole
  · have hcontains : (db.memberRoles.insert { communityId := c, userId := u, roleId := r }).contains (c', u', r') = true ↔
        db.memberRoles.contains (c', u', r') = true ∨ (c = c' ∧ u = u' ∧ r = r') := by
      rw [Table.contains_insert, Bool.or_eq_true, decide_eq_true_eq]
      exact or_congr_right (by simp [key])
    simp only [hcontains]
    -- a row for a role of another community says nothing: the query asks for the role in this one
    by_cases hgiven : c = c' ∧ (findRole db c r).isSome = true
    · obtain ⟨rfl, hfound⟩ := hgiven
      rw [if_pos ⟨rfl, hfound⟩, Policy.mem_roles_giving, mem_roles]
      constructor
      · rintro (⟨role, hfind, hd | hm⟩ | ⟨rfl, rfl⟩)
        · exact ⟨role, hfind, .inl hd⟩
        · exact ⟨role, hfind, .inr (.inl hm)⟩
        · obtain ⟨role, hfind⟩ := Option.isSome_iff_exists.1 hfound
          exact ⟨role, hfind, .inr (.inr ⟨rfl, rfl, rfl⟩)⟩
      · rintro ⟨role, hfind, hd | hm | ⟨-, rfl, rfl⟩⟩
        · exact .inl ⟨role, hfind, .inl hd⟩
        · exact .inl ⟨role, hfind, .inr hm⟩
        · exact .inr ⟨rfl, rfl⟩
    · rw [if_neg hgiven, mem_roles]
      refine exists_congr fun role => and_congr_right fun hfind => or_congr_right (or_iff_left ?_).symm
      rintro ⟨rfl, rfl, rfl⟩
      exact hgiven ⟨rfl, Option.isSome_iff_exists.2 ⟨role, hfind⟩⟩

/-- A removal takes the role away, but for the default role, which is had without an assignment. -/
theorem removeRoleRow_ok {removed : Bool} (hk : RoleKeys db)
    (h : (removeRoleRow c u r).exec db = (.ok removed, db')) :
    Writes (fun c' pol => if c = c' ∧ (findRole db c r).all (·.isDefault) = false then pol.taking u r else pol) db db' := by
  unfold removeRoleRow at h
  cases h
  refine writes_memberRoles hk (fun row hrow => hk.members row (Table.mem_deleteWhere.1 hrow).1)
    (fun c' => by split <;> rfl) fun c' u' r' => ?_
  have hcontains : (db.memberRoles.delete (c, u, r)).contains (c', u', r') = true ↔
      db.memberRoles.contains (c', u', r') = true ∧ ¬ (c = c' ∧ u = u' ∧ r = r') := by
    rw [Table.contains_delete, Bool.and_eq_true, decide_eq_true_eq]
    exact and_congr_right fun _ => by simp
  simp only [hcontains]
  by_cases htaken : c = c' ∧ (findRole db c r).all (·.isDefault) = false
  · obtain ⟨rfl, hnot⟩ := htaken
    rw [if_pos ⟨rfl, hnot⟩, Policy.mem_roles_taking, mem_roles]
    constructor
    · rintro ⟨⟨role, hfind, hd | hm⟩, hne⟩
      · exact ⟨role, hfind, .inl hd⟩
      · refine ⟨role, hfind, .inr ⟨hm, ?_⟩⟩
        rintro ⟨-, rfl, rfl⟩
        exact hne ⟨rfl, rfl⟩
    · rintro ⟨role, hfind, hd | ⟨hm, hne⟩⟩
      · refine ⟨⟨role, hfind, .inl hd⟩, ?_⟩
        rintro ⟨rfl, rfl⟩
        rw [hfind, Option.all_some, hd] at hnot
        cases hnot
      · refine ⟨⟨role, hfind, .inr hm⟩, ?_⟩
        rintro ⟨rfl, rfl⟩
        exact hne ⟨rfl, rfl, rfl⟩
  · rw [if_neg htaken, mem_roles]
    refine exists_congr fun role => and_congr_right fun hfind => ?_
    by_cases hsame : c = c' ∧ u = u' ∧ r = r'
    · -- the row that is deleted is that of a default role, which everybody has without one
      obtain ⟨rfl, rfl, rfl⟩ := hsame
      rw [hfind, Option.all_some] at htaken
      have hd : role.isDefault = true := by
        by_contra hd
        exact htaken ⟨rfl, Bool.eq_false_iff.2 hd⟩
      exact iff_of_true (.inl hd) (.inl hd)
    · rw [and_iff_left hsame]

end Standing

end Genzh.Community
