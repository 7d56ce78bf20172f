/-
What every state of the communities keeps to, whatever the members, the role managers and the invited do: a community has its
owner among its members and exactly one default role, roles stay in their community under names of their own, and nobody has
a role of a community they are not in. The foreign keys say some of it; the rest is what the services check before they write.
-/
import Genzh.Community.Escalation
import Genzh.Community.Invites
import Genzh.Community.Members
import Genzh.Community.Templates
import Genzh.Room.Request

namespace Genzh.Community

open Genzh.Lib Genzh.Domain Genzh.Infrastructure

/-! ## Runs -/

/-- The calls that reach the communities, and those of the rooms. -/
inductive CommunityCall where
  | register (user : User)
  | create (ownerId : UserId) (input : CreateCommunity) (draw : CommunityDraw)
  | delete (communityId : CommunityId) (userId : UserId)
  | addMember (communityId : CommunityId) (actorId targetId : UserId)
  | removeMember (communityId : CommunityId) (actorId targetId : UserId)
  | role (op : RoleOperation)
  | createInvite (communityId : CommunityId) (userId : UserId) (expiresInHours : Option Int) (maxUses : Option Int32)
      (draws : Nat → Uuid)
  | redeem (code : String) (userId : UserId)
  | revoke (code : String) (userId : UserId)
  | prune
  | room (req : Room.Request) (h : req.isAboutRooms = true)
  | clock (now : Timestamp)

def CommunityCall.handle : CommunityCall → SqlM Unit
  | .register user => Room.register user
  | .create ownerId input draw => CommunityService.create ownerId input draw
  | .delete c u => deleteCommunity c u
  | .addMember c actor target => Room.void (Community.addMember c actor target)
  | .removeMember c actor target => Community.removeMember c actor target
  | .role op => Room.void op.perform
  | .createInvite c u hours maxUses draws => Room.void (Community.createInvite c u hours maxUses draws)
  | .redeem code u => Room.void (redeemInvite code u)
  | .revoke code u => revokeInvite code u
  | .prune => Room.void pruneExpiredInvites
  | .room req _ => Room.handle req
  | .clock now => Prog.modify (Db.tick now)

/-- One call on the database, refused or not. -/
def communityStep (db : Db) (call : CommunityCall) : Db := (call.handle.exec db).2

/-! ## The invariant -/

/-- What the communities keep to. -/
structure Integrity (db : Db) : Prop where
  /-- The owner is a member. -/
  owners : ∀ community ∈ db.communities.rows, db.communityMembers.contains (community.id, community.ownerId) = true
  members : ∀ m ∈ db.communityMembers.rows, db.communityExists m.communityId = true
  roles : ∀ r ∈ db.roles.rows, db.communityExists r.communityId = true
  /-- Two roles of a community have two names. -/
  names : ∀ r ∈ db.roles.rows, ∀ r' ∈ db.roles.rows, r.communityId = r'.communityId → r.name = r'.name → r = r'
  /-- A community has one default role, which keeps its name. -/
  everyone : ∀ c, db.communityExists c = true → ∃ r ∈ db.roles.rows, r.communityId = c ∧ r.isDefault = true ∧
    r.name = "@everyone" ∧ ∀ r' ∈ db.roles.rows, r'.communityId = c → r'.isDefault = true → r' = r
  /-- A role is held by members of its community. -/
  assigned : ∀ m ∈ db.memberRoles.rows, db.communityMembers.contains (m.communityId, m.userId) = true ∧
    ∃ r ∈ db.roles.rows, r.id = m.roleId ∧ r.communityId = m.communityId
  /-- What is granted is granted by a role, and is in the catalogue. -/
  granted : ∀ p ∈ db.rolePermissions.rows, db.roles.contains p.roleId = true ∧ ∃ q : Permission, p.permissionKey = q.toKey
  /-- Every member but the owner was given the default role. -/
  materialised : ∀ community ∈ db.communities.rows, ∀ r ∈ db.roles.rows, r.communityId = community.id → r.isDefault = true →
    ∀ m ∈ db.communityMembers.rows, m.communityId = community.id → m.userId ≠ community.ownerId →
      db.memberRoles.contains (community.id, m.userId, r.id) = true

/-- The tables of the communities. -/
def governed (db : Db) : Table Community × Table CommunityMember × Table Role × Table MemberRole × Table RolePermission :=
  (db.communities, db.communityMembers, db.roles, db.memberRoles, db.rolePermissions)

section Integrity

variable {db db' : Db} {c : CommunityId} {u : UserId}

theorem Integrity.congr (h : governed db' = governed db) (hi : Integrity db) : Integrity db' := by
  obtain ⟨hcommunities, hmembers, hroles, hassigned, hgranted⟩ : db'.communities = db.communities ∧
      db'.communityMembers = db.communityMembers ∧ db'.roles = db.roles ∧ db'.memberRoles = db.memberRoles ∧
      db'.rolePermissions = db.rolePermissions := by simpa [governed] using h
  constructor <;> simp only [hcommunities, hmembers, hroles, hassigned, hgranted, Db.communityExists]
  · exact hi.owners
  · exact hi.members
  · exact hi.roles
  · exact hi.names
  · exact hi.everyone
  · exact hi.assigned
  · exact hi.granted
  · exact hi.materialised

theorem integrity_empty (now : Timestamp) : Integrity (Db.empty now) := by
  constructor <;> intro x hx
  · exact absurd hx List.not_mem_nil
  · exact absurd hx List.not_mem_nil
  · exact absurd hx List.not_mem_nil
  · exact absurd hx List.not_mem_nil
  · exact absurd hx Bool.false_ne_true
  · exact absurd hx List.not_mem_nil
  · exact absurd hx List.not_mem_nil
  · exact absurd hx List.not_mem_nil

/-! ### A community is created -/

/-- The row of a starter role. -/
def starterRow (id : CommunityId) (role : RoleId × RoleTemplate) : Role where
  id := role.1
  communityId := id
  isDefault := role.2.isDefault
  name := role.2.name
  color := role.2.color
  position := role.2.position

/-- What inserting starter roles writes: their rows after those there were, and what they grant. -/
theorem insertRoles_ok {id : CommunityId} {roles : List (RoleId × RoleTemplate)} {db db' : Db}
    (h : (Prog.forEach roles (insertRole id)).exec db = (.ok (), db')) :
    db'.communities = db.communities ∧ db'.communityMembers = db.communityMembers ∧ db'.memberRoles = db.memberRoles ∧
      db'.roles.rows = db.roles.rows ++ roles.map (starterRow id) ∧
      ∀ p ∈ db'.rolePermissions.rows, p ∈ db.rolePermissions.rows ∨
        (∃ role ∈ roles, p.roleId = role.1) ∧ ∃ q : Permission, p.permissionKey = q.toKey := by
  induction roles generalizing db with
  | nil =>
    cases h
    exact ⟨rfl, rfl, rfl, by simp, fun p hp => .inl hp⟩
  | cons role roles ih =>
    obtain ⟨_, db₁, h₁, h₂⟩ := Prog.bind_ok h
    obtain ⟨hcommunities, hmembers, hassigned, hroles, hgranted⟩ := ih h₂
    unfold insertRole at h₁
    rw [SqlM.exec_check_bind] at h₁
    split at h₁
    case isFalse => cases h₁
    rename_i hfree
    cases h₁
    refine ⟨hcommunities, hmembers, hassigned, ?_, fun p hp => ?_⟩
    · have hrow : db.roles.contains (key (starterRow id role)) = false := show db.roles.contains role.1 = false by simpa using hfree
      rw [hroles, List.map_cons, List.append_cons, ← Table.rows_insert hrow]
      rfl
    · rcases hgranted p hp with hp | ⟨⟨role', hrole', hid⟩, hkey⟩
      · have hinserted : ∀ (ps : List Permission) (t : Table RolePermission),
            p ∈ (ps.foldl (fun t q => t.insert { roleId := role.1, permissionKey := q.toKey }) t).rows →
            p ∈ t.rows ∨ p.roleId = role.1 ∧ ∃ q : Permission, p.permissionKey = q.toKey := by
          intro ps
          induction ps with
          | nil => exact fun t hp => .inl hp
          | cons q ps ih =>
            intro t hp
            rcases ih _ hp with hp | hp
            · rcases Table.mem_insert.1 hp with hp | ⟨rfl, -⟩
              · exact .inl hp
              · exact .inr ⟨rfl, q, rfl⟩
            · exact .inr hp
        rcases hinserted _ _ hp with hp | ⟨hid, hkey⟩
        · exact .inl hp
        · exact .inr ⟨⟨role, List.mem_cons_self, hid⟩, hkey⟩
      · exact .inr ⟨⟨role', List.mem_cons_of_mem _ hrole', hid⟩, hkey⟩

/-- What the creation of a community writes. -/
structure Founded (db db' : Db) (id : CommunityId) (ownerId : UserId) (starters : List (RoleId × RoleTemplate)) :
    Prop where
  fresh : db.communityExists id = false
  communities : db'.communities = db.communities.insert { id, ownerId }
  members : db'.communityMembers = db.communityMembers.insert { communityId := id, userId := ownerId }
  assigned : db'.memberRoles = db.memberRoles
  roles : db'.roles.rows = db.roles.rows ++ starters.map (starterRow id)
  granted : ∀ p ∈ db'.rolePermissions.rows, p ∈ db.rolePermissions.rows ∨
    (∃ role ∈ starters, p.roleId = role.1) ∧ ∃ q : Permission, p.permissionKey = q.toKey

theorem createCommunity_ok {id : CommunityId} {ownerId : UserId} {roles : List (RoleId × RoleTemplate)}
    {rooms : List (RoomId × RoomTemplate)} (h : (createCommunity id ownerId roles rooms).exec db = (.ok (), db')) :
    Founded db db' id ownerId roles := by
  have h := Prog.transaction_ok h
  rw [SqlM.exec_check_bind] at h
  split at h
  case isFalse => cases h
  rename_i hfree
  rw [SqlM.exec_check_bind] at h
  split at h
  case isFalse => cases h
  rw [Prog.exec_modify_bind] at h
  obtain ⟨_, db₁, hinserted, h⟩ := Prog.bind_ok h
  obtain ⟨hcommunities, hmembers, hassigned, hroles, hgranted⟩ := insertRoles_ok hinserted
  obtain ⟨_, db₂, hrooms, h⟩ := Prog.bind_ok h
  cases h
  have hframe : Prog.Frames governed (Prog.forEach rooms (insertTemplateRoom id ownerId)) :=
    Prog.Frames.forEach fun room _ => (SqlM.frames_check _ _).bind fun _ => Prog.Frames.modify fun _ => rfl
  have hsame : governed db₂ = governed db₁ := hframe.exec hrooms
  simp only [governed, Prod.mk.injEq] at hsame
  obtain ⟨hcommunities', hmembers', hroles', hassigned', hgranted'⟩ := hsame
  refine ⟨by simpa using hfree, hcommunities'.trans hcommunities, ?_, hassigned'.trans hassigned, ?_, ?_⟩
  · rw [← hmembers]
    exact congrArg (Table.insert · _) hmembers'
  · exact (congrArg Table.rows hroles').trans hroles
  · intro p hp
    refine hgranted p ?_
    rw [← hgranted']
    exact hp

theorem exists_of_mem_members (hi : Integrity db) {m : CommunityMember} (hm : m ∈ db.communityMembers.rows)
    (hc : db.communityExists c = false) : m.communityId ≠ c := by
  rintro rfl
  exact Bool.false_ne_true (hc.symm.trans (hi.members m hm))

theorem exists_of_mem_roles (hi : Integrity db) {r : Role} (hr : r ∈ db.roles.rows) (hc : db.communityExists c = false) :
    r.communityId ≠ c := by
  rintro rfl
  exact Bool.false_ne_true (hc.symm.trans (hi.roles r hr))

/-- The roles a community can start with: under names of their own, and the first of them the default one. -/
structure Starters (starters : List (RoleId × RoleTemplate)) : Prop where
  names : (starters.map (·.2.name)).Nodup
  everyone : ∃ first others, starters = first :: others ∧ first.2.isDefault = true ∧ first.2.name = "@everyone" ∧
    ∀ role ∈ others, role.2.isDefault = false

/-- A new community shares nothing with those there were. -/
theorem Founded.integrity {starters : List (RoleId × RoleTemplate)} (h : Founded db db' c u starters) (hs : Starters starters)
    (hi : Integrity db) : Integrity db' := by
  have hexists : ∀ c', db'.communityExists c' = true ↔ db.communityExists c' = true ∨ c = c' := by
    intro c'
    unfold Db.communityExists
    rw [h.communities, Table.contains_insert, Bool.or_eq_true, decide_eq_true_eq]
    rfl
  have hcommunity : ∀ community, community ∈ db'.communities.rows → community ∈ db.communities.rows ∨
      community = { id := c, ownerId := u } := by
    intro community hcommunity
    rw [h.communities] at hcommunity
    exact (Table.mem_insert.1 hcommunity).imp id And.left
  have hmember : ∀ m, m ∈ db'.communityMembers.rows → m ∈ db.communityMembers.rows ∨ m = { communityId := c, userId := u } := by
    intro m hm
    rw [h.members] at hm
    exact (Table.mem_insert.1 hm).imp id And.left
  have hcontains : ∀ k, db'.communityMembers.contains k = true ↔ db.communityMembers.contains k = true ∨ (c, u) = k := by
    intro k
    rw [h.members, Table.contains_insert, Bool.or_eq_true, decide_eq_true_eq]
    rfl
  have hrole : ∀ r, r ∈ db'.roles.rows ↔ r ∈ db.roles.rows ∨ ∃ role ∈ starters, starterRow c role = r := by
    intro r
    rw [h.roles, List.mem_append, List.mem_map]
  obtain ⟨first, others, hstarters, hdefault, hname, hplain⟩ := hs.everyone
  have hold : ∀ {c' : CommunityId}, db.communityExists c' = true → c' ≠ c := by
    rintro _ hc' rfl
    exact Bool.false_ne_true (h.fresh.symm.trans hc')
  constructor
  · intro community hmem
    rw [hcontains]
    rcases hcommunity community hmem with hmem | rfl
    · exact .inl (hi.owners community hmem)
    · exact .inr rfl
  · intro m hm
    rw [hexists]
    rcases hmember m hm with hm | rfl
    · exact .inl (hi.members m hm)
    · exact .inr rfl
  · intro r hr
    rw [hexists]
    rcases (hrole r).1 hr with hr | ⟨role, -, rfl⟩
    · exact .inl (hi.roles r hr)
    · exact .inr rfl
  · intro r hr r' hr' hsame hnames
    rcases (hrole r).1 hr with hr | ⟨role, hmem, rfl⟩
    · rcases (hrole r').1 hr' with hr' | ⟨role', -, rfl⟩
      · exact hi.names r hr r' hr' hsame hnames
      · exact absurd hsame (exists_of_mem_roles hi hr h.fresh)
    · rcases (hrole r').1 hr' with hr' | ⟨role', hmem', rfl⟩
      · exact absurd hsame.symm (exists_of_mem_roles hi hr' h.fresh)
      · rw [List.inj_on_of_nodup_map hs.names hmem hmem' hnames]
  · intro c' hc'
    rcases (hexists c').1 hc' with hc' | rfl
    · obtain ⟨r, hr, hcommunity, hr⟩ := hi.everyone c' hc'
      obtain ⟨hd, hn, honly⟩ := hr
      refine ⟨r, (hrole r).2 (.inl ‹_›), hcommunity, hd, hn, fun r' hr' hc'' hd' => ?_⟩
      rcases (hrole r').1 hr' with hr' | ⟨role', -, rfl⟩
      · exact honly r' hr' hc'' hd'
      · exact absurd hc''.symm (hold hc')
    · refine ⟨starterRow c first, (hrole _).2 (.inr ⟨first, by simp [hstarters], rfl⟩), rfl, hdefault, hname, ?_⟩
      intro r' hr' hc' hd'
      rcases (hrole r').1 hr' with hr' | ⟨role', hmem, rfl⟩
      · exact absurd hc' (exists_of_mem_roles hi hr' h.fresh)
      · rw [hstarters] at hmem
        rcases List.mem_cons.1 hmem with rfl | hmem
        · rfl
        · exact absurd (hd'.symm.trans (hplain role' hmem)) Bool.false_ne_true.symm
  · intro m hm
    rw [h.assigned] at hm
    obtain ⟨hin, r, hr, hid, hcommunity⟩ := hi.assigned m hm
    exact ⟨(hcontains _).2 (.inl hin), r, (hrole r).2 (.inl hr), hid, hcommunity⟩
  · intro p hp
    have hthere : ∀ r ∈ db'.roles.rows, db'.roles.contains r.id = true := fun r hr =>
      Table.contains_iff.2 ⟨r, Table.mem_iff_find.1 hr⟩
    rcases h.granted p hp with hp | ⟨⟨role, hmem, hid⟩, hkey⟩
    · obtain ⟨hin, hkey⟩ := hi.granted p hp
      obtain ⟨r, hr⟩ := Table.contains_iff.1 hin
      obtain ⟨hr, hid⟩ := Table.find_eq_some.1 hr
      refine ⟨?_, hkey⟩
      rw [← show r.id = p.roleId from hid]
      exact hthere r ((hrole r).2 (.inl hr))
    · refine ⟨?_, hkey⟩
      rw [hid]
      exact hthere (starterRow c role) ((hrole _).2 (.inr ⟨role, hmem, rfl⟩))
  · intro community hmem r hr hc hd m hm hmc hne
    rw [h.assigned]
    rcases hcommunity community hmem with hmem | rfl
    · have hthere : db.communityExists community.id = true := Table.contains_iff.2 ⟨community, Table.mem_iff_find.1 hmem⟩
      rcases (hrole r).1 hr with hr | ⟨role, -, rfl⟩
      · rcases hmember m hm with hm | rfl
        · exact hi.materialised community hmem r hr hc hd m hm hmc hne
        · exact absurd hmc.symm (hold hthere)
      · exact absurd hc.symm (hold hthere)
    · rcases hmember m hm with hm | rfl
      · exact absurd hmc (exists_of_mem_members hi hm h.fresh)
      · exact absurd rfl hne

/-! ### A community is deleted, a member leaves -/

/-- Deleting a community takes everything that is its, and nothing else. -/
theorem Integrity.deleted (hi : Integrity db) (c : CommunityId) : Integrity (deleteCommunityRow c db) := by
  have hexists : ∀ c', (deleteCommunityRow c db).communityExists c' = true ↔ db.communityExists c' = true ∧ c ≠ c' := by
    intro c'
    unfold Db.communityExists deleteCommunityRow
    rw [Table.contains_delete, Bool.and_eq_true, decide_eq_true_eq]
  have hmember : ∀ m, m ∈ (deleteCommunityRow c db).communityMembers.rows ↔ m ∈ db.communityMembers.rows ∧ m.communityId ≠ c := by
    intro m
    simp [deleteCommunityRow, Table.mem_deleteWhere]
  have hcontains : ∀ c' u', (deleteCommunityRow c db).communityMembers.contains (c', u') = true ↔
      db.communityMembers.contains (c', u') = true ∧ c' ≠ c := by
    intro c' u'
    constructor
    · intro h
      obtain ⟨m, hfind⟩ := Table.contains_iff.1 h
      obtain ⟨hrow, hkey⟩ := Table.find_eq_some.1 hfind
      obtain ⟨hm, hc⟩ := (hmember m).1 hrow
      have hkey : (m.communityId, m.userId) = (c', u') := hkey
      cases hkey
      exact ⟨Table.contains_iff.2 ⟨m, Table.mem_iff_find.1 hm⟩, hc⟩
    · rintro ⟨h, hc⟩
      obtain ⟨m, hfind⟩ := Table.contains_iff.1 h
      obtain ⟨hm, hkey⟩ := Table.find_eq_some.1 hfind
      have hkey : (m.communityId, m.userId) = (c', u') := hkey
      cases hkey
      exact Table.contains_iff.2 ⟨m, Table.find_eq_some.2 ⟨(hmember m).2 ⟨hm, hc⟩, rfl⟩⟩
  have hrole : ∀ r, r ∈ (deleteCommunityRow c db).roles.rows ↔ r ∈ db.roles.rows ∧ r.communityId ≠ c := by
    intro r
    simp [deleteCommunityRow, Table.mem_deleteWhere]
  have hcommunity : ∀ community, community ∈ (deleteCommunityRow c db).communities.rows →
      community ∈ db.communities.rows ∧ community.id ≠ c := by
    intro community h
    have h : community ∈ (db.communities.delete c).rows := h
    obtain ⟨h, hid⟩ := Table.mem_deleteWhere.1 h
    exact ⟨h, by simpa [key] using hid⟩
  have hassigned : ∀ m, m ∈ (deleteCommunityRow c db).memberRoles.rows ↔ m ∈ db.memberRoles.rows ∧ m.communityId ≠ c := by
    intro m
    simp [deleteCommunityRow, Table.mem_deleteWhere]
  constructor
  · intro community h
    obtain ⟨h, hid⟩ := hcommunity community h
    exact (hcontains _ _).2 ⟨hi.owners community h, hid⟩
  · intro m hm
    obtain ⟨hm, hc⟩ := (hmember m).1 hm
    exact (hexists _).2 ⟨hi.members m hm, hc.symm⟩
  · intro r hr
    obtain ⟨hr, hc⟩ := (hrole r).1 hr
    exact (hexists _).2 ⟨hi.roles r hr, hc.symm⟩
  · intro r hr r' hr'
    exact hi.names r ((hrole r).1 hr).1 r' ((hrole r').1 hr').1
  · intro c' hc'
    obtain ⟨hc', hne⟩ := (hexists c').1 hc'
    obtain ⟨r, hr, rfl, hd, hn, honly⟩ := hi.everyone c' hc'
    exact ⟨r, (hrole r).2 ⟨hr, hne.symm⟩, rfl, hd, hn, fun r' hr' => honly r' ((hrole r').1 hr').1⟩
  · intro m hm
    obtain ⟨hm, hc⟩ := (hassigned m).1 hm
    obtain ⟨hin, r, hr, hid, hcommunity⟩ := hi.assigned m hm
    exact ⟨(hcontains _ _).2 ⟨hin, hc⟩, r, (hrole r).2 ⟨hr, hcommunity ▸ hc⟩, hid, hcommunity⟩
  · intro p hp
    obtain ⟨hp, hgone⟩ := Table.mem_deleteWhere.1 hp
    obtain ⟨hin, hkey⟩ := hi.granted p hp
    obtain ⟨r, hr⟩ := Table.contains_iff.1 hin
    obtain ⟨hr', hid⟩ := Table.find_eq_some.1 hr
    have hc : r.communityId ≠ c := by
      rintro rfl
      simp [roleOf, hr] at hgone
    exact ⟨Table.contains_iff.2 ⟨r, Table.find_eq_some.2 ⟨(hrole r).2 ⟨hr', hc⟩, hid⟩⟩, hkey⟩
  · intro community h r hr hc hd m hm hmc hne
    obtain ⟨h, hid⟩ := hcommunity community h
    have hheld := hi.materialised community h r ((hrole r).1 hr).1 hc hd m ((hmember m).1 hm).1 hmc hne
    obtain ⟨row, hrow⟩ := Table.contains_iff.1 hheld
    obtain ⟨hrow, hkey⟩ := Table.find_eq_some.1 hrow
    have hrc : row.communityId = community.id := congrArg Prod.fst hkey
    exact Table.contains_iff.2 ⟨row, Table.find_eq_some.2 ⟨(hassigned row).2 ⟨hrow, hrc ▸ hid⟩, hkey⟩⟩

/-- Removing a member who is not the owner takes what they were given in the community, and nothing else. -/
theorem Integrity.left (hi : Integrity db) (hplain : ∀ community ∈ db.communities.rows, community.id = c → community.ownerId ≠ u) :
    Integrity (removeMemberRow c u db) := by
  have hcontains : ∀ k, (removeMemberRow c u db).communityMembers.contains k = true ↔
      db.communityMembers.contains k = true ∧ (c, u) ≠ k := by
    intro k
    unfold removeMemberRow
    rw [Table.contains_delete, Bool.and_eq_true, decide_eq_true_eq]
  have hmember : ∀ m, m ∈ (removeMemberRow c u db).communityMembers.rows →
      m ∈ db.communityMembers.rows ∧ (m.communityId, m.userId) ≠ (c, u) := by
    intro m hm
    have hm : m ∈ (db.communityMembers.delete (c, u)).rows := hm
    obtain ⟨hm, hkey⟩ := Table.mem_deleteWhere.1 hm
    exact ⟨hm, by simpa [key] using hkey⟩
  have hassigned : ∀ m, m ∈ (removeMemberRow c u db).memberRoles.rows ↔
      m ∈ db.memberRoles.rows ∧ (m.communityId, m.userId) ≠ (c, u) := by
    intro m
    simp [removeMemberRow, Table.mem_deleteWhere]
  constructor
  · intro community h
    refine (hcontains _).2 ⟨hi.owners community h, fun heq => ?_⟩
    have heq : c = community.id ∧ u = community.ownerId := by simpa using heq
    exact hplain community h heq.1.symm heq.2.symm
  · exact fun m hm => hi.members m (hmember m hm).1
  · exact hi.roles
  · exact hi.names
  · exact hi.everyone
  · intro m hm
    obtain ⟨hm, hne⟩ := (hassigned m).1 hm
    obtain ⟨hin, hrole⟩ := hi.assigned m hm
    exact ⟨(hcontains _).2 ⟨hin, hne.symm⟩, hrole⟩
  · exact hi.granted
  · intro community h r hr hc hd m hm hmc hne
    obtain ⟨hm, hother⟩ := hmember m hm
    obtain ⟨row, hrow⟩ := Table.contains_iff.1 (hi.materialised community h r hr hc hd m hm hmc hne)
    obtain ⟨hrow, hkey⟩ := Table.find_eq_some.1 hrow
    have hkey' : (row.communityId, row.userId, row.roleId) = (community.id, m.userId, r.id) := hkey
    obtain ⟨hrc, hru, -⟩ : row.communityId = community.id ∧ row.userId = m.userId ∧ row.roleId = r.id := by simpa using hkey'
    refine Table.contains_iff.2 ⟨row, Table.find_eq_some.2 ⟨(hassigned row).2 ⟨hrow, ?_⟩, hkey⟩⟩
    rw [hrc, hru, ← hmc]
    exact hother

/-! ### A member is added -/

/-- Rows inserted one by one: each is one there was, or one of those inserted. -/
theorem mem_foldl_insert {α ρ κ : Type} [HasKey ρ κ] [DecidableEq κ] {f : α → ρ} {as : List α} {t : Table ρ} {row : ρ}
    (h : row ∈ (as.foldl (fun t a => t.insert (f a)) t).rows) : row ∈ t.rows ∨ ∃ a ∈ as, row = f a := by
  induction as generalizing t with
  | nil => exact .inl h
  | cons a as ih =>
    rcases ih h with h | ⟨b, hb, rfl⟩
    · rcases Table.mem_insert.1 h with h | ⟨rfl, -⟩
      · exact .inl h
      · exact .inr ⟨a, List.mem_cons_self, rfl⟩
    · exact .inr ⟨b, List.mem_cons_of_mem _ hb, rfl⟩

theorem contains_foldl_insert {α ρ κ : Type} [HasKey ρ κ] [DecidableEq κ] {f : α → ρ} {as : List α} {t : Table ρ} {k : κ} :
    (as.foldl (fun t a => t.insert (f a)) t).contains k = true ↔ t.contains k = true ∨ ∃ a ∈ as, key (f a) = k := by
  induction as generalizing t with
  | nil => simp
  | cons a as ih =>
    rw [List.foldl_cons, ih, Table.contains_insert]
    simp [or_assoc]

/-- What the insertion of a membership writes. -/
theorem addMemberRow_ok {m : CommunityMember} (h : (addMemberRow c u).exec db = (.ok m, db')) :
    db.communityMembers.contains (c, u) = false ∧ db.communityExists c = true ∧
      db' = { db with
        communityMembers := db.communityMembers.insert { communityId := c, userId := u }
        memberRoles := (db.roles.select fun r => r.communityId = c && r.isDefault).foldl
          (fun t r => t.insert { communityId := c, userId := u, roleId := r.id }) db.memberRoles } := by
  have h := Prog.transaction_ok h
  rw [SqlM.exec_check_bind] at h
  split at h
  case isFalse => cases h
  rename_i hfree
  rw [SqlM.exec_check_bind] at h
  split at h
  case isFalse => cases h
  rename_i hforeign
  cases h
  exact ⟨by simpa using hfree, (Bool.and_eq_true _ _ ▸ hforeign).1, rfl⟩

/-- A new member is given the default role with the membership. -/
theorem Integrity.joined {m : CommunityMember} (hi : Integrity db) (h : (addMemberRow c u).exec db = (.ok m, db')) :
    Integrity db' := by
  obtain ⟨hfree, hthere, rfl⟩ := addMemberRow_ok h
  have hcontains : ∀ k, (db.communityMembers.insert { communityId := c, userId := u }).contains k = true ↔
      db.communityMembers.contains k = true ∨ (c, u) = k := by
    intro k
    rw [Table.contains_insert, Bool.or_eq_true, decide_eq_true_eq]
    rfl
  constructor
  · exact fun community h => (hcontains _).2 (.inl (hi.owners community h))
  · intro m hm
    rcases Table.mem_insert.1 hm with hm | ⟨rfl, -⟩
    · exact hi.members m hm
    · exact hthere
  · exact hi.roles
  · exact hi.names
  · exact hi.everyone
  · intro m hm
    rcases mem_foldl_insert hm with hm | ⟨r, hr, rfl⟩
    · obtain ⟨hin, hrole⟩ := hi.assigned m hm
      exact ⟨(hcontains _).2 (.inl hin), hrole⟩
    · obtain ⟨hr, hdefault⟩ := Table.mem_select.1 hr
      rw [Bool.and_eq_true] at hdefault
      exact ⟨(hcontains _).2 (.inr rfl), r, hr, rfl, of_decide_eq_true hdefault.1⟩
  · exact hi.granted
  · intro community h r hr hc hd m hm hmc hne
    refine contains_foldl_insert.2 ?_
    rcases Table.mem_insert.1 hm with hm | ⟨rfl, -⟩
    · exact .inl (hi.materialised community h r hr hc hd m hm hmc hne)
    · refine .inr ⟨r, Table.mem_select.2 ⟨hr, ?_⟩, ?_⟩
      · simp [hc, hd, ← show c = community.id from hmc]
      · rw [← show c = community.id from hmc]
        rfl

/-! ### Roles -/

variable {r : RoleId}

theorem nameTaken_eq_false {name : String} : nameTaken db c r name = false ↔
    ∀ role ∈ db.roles.rows, role.communityId = c → role.id ≠ r → role.name ≠ name := by
  simp [nameTaken]

/-- What is checked before a role is inserted. -/
theorem createRoleRow_checks {role created : Role} {ps : List Permission} (h : (createRoleRow role ps).exec db = (.ok created, db')) :
    nameTaken db role.communityId role.id role.name = false ∧ db.communityExists role.communityId = true := by
  have h := Prog.transaction_ok h
  rw [SqlM.exec_check_bind] at h
  split at h
  case isFalse => cases h
  rw [SqlM.exec_check_bind] at h
  split at h
  case isFalse => cases h
  rename_i hname
  rw [SqlM.exec_check_bind] at h
  split at h
  case isFalse => cases h
  rename_i hthere
  exact ⟨by simpa using hname, hthere⟩

theorem Integrity.roleCreated {role created : Role} {ps : List Permission} (hi : Integrity db) (hplain : role.isDefault = false)
    (h : (createRoleRow role ps).exec db = (.ok created, db')) : Integrity db' := by
  obtain ⟨hname, hthere⟩ := createRoleRow_checks h
  obtain ⟨hfresh, hdb, hgranted⟩ := createRoleRow_writes h
  rw [hdb]
  have hfree : ∀ r' ∈ db.roles.rows, r'.id ≠ role.id := by
    intro r' hr' hid
    have hin : db.roles.contains role.id = true := Table.contains_iff.2 ⟨r', Table.find_eq_some.2 ⟨hr', hid⟩⟩
    exact Bool.false_ne_true (hfresh.symm.trans hin)
  have hrole : ∀ r', r' ∈ (db.roles.insert role).rows ↔ r' ∈ db.roles.rows ∨ r' = role := by
    intro r'
    rw [Table.rows_insert hfresh, List.mem_append, List.mem_singleton]
  constructor
  · exact hi.owners
  · exact hi.members
  · intro r' hr'
    rcases (hrole r').1 hr' with hr' | rfl
    · exact hi.roles r' hr'
    · exact hthere
  · intro r₁ h₁ r₂ h₂ hc hn
    rcases (hrole r₁).1 h₁ with hold₁ | rfl
    · rcases (hrole r₂).1 h₂ with hold₂ | rfl
      · exact hi.names r₁ hold₁ r₂ hold₂ hc hn
      · exact absurd hn (nameTaken_eq_false.1 hname r₁ hold₁ hc (hfree r₁ hold₁))
    · rcases (hrole r₂).1 h₂ with hold₂ | rfl
      · exact absurd hn.symm (nameTaken_eq_false.1 hname r₂ hold₂ hc.symm (hfree r₂ hold₂))
      · rfl
  · intro c' hc'
    obtain ⟨r', hr', hc, hd, hn, honly⟩ := hi.everyone c' hc'
    refine ⟨r', (hrole r').2 (.inl hr'), hc, hd, hn, fun r'' hr'' hc'' hd'' => ?_⟩
    rcases (hrole r'').1 hr'' with hr'' | rfl
    · exact honly r'' hr'' hc'' hd''
    · exact absurd (hd''.symm.trans hplain) Bool.false_ne_true.symm
  · intro m hm
    obtain ⟨hin, r', hr', hid, hc⟩ := hi.assigned m hm
    exact ⟨hin, r', (hrole r').2 (.inl hr'), hid, hc⟩
  · intro p hp
    have hcontains : ∀ k, (db.roles.insert role).contains k = true ↔ db.roles.contains k = true ∨ role.id = k := by
      intro k
      rw [Table.contains_insert, Bool.or_eq_true, decide_eq_true_eq]
      rfl
    rcases (hgranted p).1 hp with hp | ⟨q, -, rfl⟩
    · exact ⟨(hcontains _).2 (.inl (hi.granted p hp).1), (hi.granted p hp).2⟩
    · exact ⟨(hcontains _).2 (.inr rfl), q, rfl⟩
  · intro community h r' hr' hc hd
    rcases (hrole r').1 hr' with hr' | rfl
    · exact hi.materialised community h r' hr' hc hd
    · exact absurd (hd.symm.trans hplain) Bool.false_ne_true.symm

/-- What is checked before a role is updated, and that what it grants from then on is in the catalogue. -/
theorem updateRoleRow_checks {name color : Option String} {position : Option Int} {permissions : Option (List Permission)}
    {updated : Role} (h : (updateRoleRow c r name color position permissions).exec db = (.ok updated, db')) :
    (∀ given, name = some given → nameTaken db c r given = false) ∧
      ∀ row ∈ db'.rolePermissions.rows, row ∈ db.rolePermissions.rows ∨ row.roleId = r ∧ ∃ q : Permission, row.permissionKey = q.toKey := by
  have h := Prog.transaction_ok h
  rw [Prog.exec_query_bind] at h
  rcases hfound : findRole db c r with _ | role
  · simp only [hfound] at h
    cases h
  simp only [hfound] at h
  rw [SqlM.exec_check_bind] at h
  split at h
  case isFalse => cases h
  rename_i hname
  refine ⟨fun given hgiven => by simpa [hgiven] using hname, ?_⟩
  rw [Prog.exec_modify_bind] at h
  rcases permissions with _ | ps
  · cases h
    exact fun row hrow => .inl hrow
  · rw [Prog.exec_modify_bind] at h
    obtain ⟨_, db₁, hins, hpure⟩ := Prog.bind_ok h
    cases hpure
    intro row hrow
    rcases ((insertRolePermissions_ok hins).2 row).1 hrow with hold | ⟨q, -, rfl⟩
    · exact .inl (Table.mem_deleteWhere.1 hold).1
    · exact .inr ⟨rfl, q, rfl⟩

theorem Integrity.roleUpdated {name color : Option String} {position : Option Int} {permissions : Option (List Permission)}
    {updated role : Role} (hi : Integrity db) (hfound : findRole db c r = some role) (hkept : role.isDefault = true → name = none)
    (h : (updateRoleRow c r name color position permissions).exec db = (.ok updated, db')) : Integrity db' := by
  obtain ⟨hname, hgranted⟩ := updateRoleRow_checks h
  obtain ⟨-, hdb, -, -⟩ := updateRoleRow_writes h
  rw [hdb]
  obtain ⟨hfind, hcommunity⟩ := findRole_eq_some.1 hfound
  obtain ⟨hrow, hid⟩ := Table.find_eq_some.1 hfind
  have hid : role.id = r := hid
  have htheone : ∀ r' ∈ db.roles.rows, r'.id = r → r' = role := by
    intro r' hr' hid'
    have hfind' : db.roles.find r = some r' := Table.find_eq_some.2 ⟨hr', hid'⟩
    exact Option.some.inj (hfind'.symm.trans hfind)
  let f := updatedRole name color position
  let g : Role → Role := fun r' => if r'.id = r then f r' else r'
  have hg : ∀ r', (g r').id = r'.id ∧ (g r').communityId = r'.communityId ∧ (g r').isDefault = r'.isDefault := by
    intro r'
    unfold g
    split <;> exact ⟨rfl, rfl, rfl⟩
  have hrole : ∀ r', r' ∈ (db.roles.update r f fun _ => rfl).rows ↔ ∃ r'' ∈ db.roles.rows, g r'' = r' := by
    intro r'
    refine (Table.mem_update db.roles r f fun _ => rfl).trans ?_
    constructor
    · rintro (⟨r'', hr'', hk, rfl⟩ | ⟨hr', hk⟩)
      · exact ⟨r'', hr'', if_pos hk⟩
      · exact ⟨r', hr', if_neg hk⟩
    · rintro ⟨r'', hr'', rfl⟩
      by_cases hk : r''.id = r
      · exact .inl ⟨r'', hr'', hk, (if_pos hk).symm⟩
      · refine .inr ?_
        rw [show g r'' = r'' from if_neg hk]
        exact ⟨hr'', hk⟩
  have hcontains : ∀ k, (db.roles.update r f fun _ => rfl).contains k = db.roles.contains k := fun k =>
    Table.contains_updateWhere _ _ _ _ k
  -- the name the role has now is one that no other role of the community has
  have hapart : ∀ r' ∈ db.roles.rows, r'.communityId = c → r'.id ≠ r → (f role).name ≠ r'.name := by
    intro r' hr' hc hne heq
    rcases hn : name with _ | given
    · have heq : role.name = r'.name := by simpa [f, updatedRole, hn] using heq
      exact hne ((hi.names role hrow r' hr' (hcommunity.trans hc.symm) heq) ▸ hid)
    · have heq : given = r'.name := by simpa [f, updatedRole, hn] using heq
      exact nameTaken_eq_false.1 (hname given hn) r' hr' hc hne heq.symm
  have hnames : ∀ r₁ ∈ db.roles.rows, ∀ r₂ ∈ db.roles.rows, r₁.communityId = r₂.communityId → r₁.id = r → r₂.id ≠ r →
      (g r₁).name ≠ (g r₂).name := by
    intro r₁ h₁ r₂ h₂ hc hk₁ hk₂
    obtain rfl := htheone r₁ h₁ hk₁
    rw [show g r₁ = f r₁ from if_pos hk₁, show g r₂ = r₂ from if_neg hk₂]
    exact hapart r₂ h₂ (hc.symm.trans hcommunity) hk₂
  constructor
  · exact hi.owners
  · exact hi.members
  · intro r' hr'
    obtain ⟨r'', hr'', rfl⟩ := (hrole r').1 hr'
    rw [(hg r'').2.1]
    exact hi.roles r'' hr''
  · intro r₁ h₁ r₂ h₂ hc hn
    obtain ⟨a, ha, rfl⟩ := (hrole r₁).1 h₁
    obtain ⟨b, hb, rfl⟩ := (hrole r₂).1 h₂
    rw [(hg a).2.1, (hg b).2.1] at hc
    by_cases hka : a.id = r
    · by_cases hkb : b.id = r
      · rw [htheone a ha hka, htheone b hb hkb]
      · exact absurd hn (hnames a ha b hb hc hka hkb)
    · by_cases hkb : b.id = r
      · exact absurd hn.symm (hnames b hb a ha hc.symm hkb hka)
      · rw [show g a = a from if_neg hka, show g b = b from if_neg hkb] at hn ⊢
        exact hi.names a ha b hb hc hn
  · intro c' hc'
    obtain ⟨r', hr', hc, hd, hn, honly⟩ := hi.everyone c' hc'
    refine ⟨g r', (hrole _).2 ⟨r', hr', rfl⟩, (hg r').2.1.trans hc, (hg r').2.2.trans hd, ?_, ?_⟩
    · by_cases hk : r'.id = r
      · obtain rfl := htheone r' hr' hk
        rw [show g r' = f r' from if_pos hk]
        simpa [f, updatedRole, hkept hd] using hn
      · rw [show g r' = r' from if_neg hk]
        exact hn
    · intro r'' hr'' hc'' hd''
      obtain ⟨a, ha, rfl⟩ := (hrole r'').1 hr''
      rw [honly a ha ((hg a).2.1.symm.trans hc'') ((hg a).2.2.symm.trans hd'')]
  · intro m hm
    obtain ⟨hin, r', hr', hid', hc⟩ := hi.assigned m hm
    exact ⟨hin, g r', (hrole _).2 ⟨r', hr', rfl⟩, (hg r').1.trans hid', (hg r').2.1.trans hc⟩
  · intro p hp
    rw [hcontains]
    rcases hgranted p hp with hp | ⟨rfl, hkey⟩
    · exact hi.granted p hp
    · exact ⟨contains_of_findRole hfound, hkey⟩
  · intro community h r' hr' hc hd m hm hmc hne
    obtain ⟨a, ha, rfl⟩ := (hrole r').1 hr'
    rw [(hg a).1]
    exact hi.materialised community h a ha ((hg a).2.1.symm.trans hc) ((hg a).2.2.symm.trans hd) m hm hmc hne

theorem Integrity.roleAssigned {x : Unit} {role : Role} (hi : Integrity db) (hfound : findRole db c r = some role)
    (h : (assignRoleRow c u r).exec db = (.ok x, db')) : Integrity db' := by
  unfold assignRoleRow at h
  rw [SqlM.exec_check_bind] at h
  split at h
  case isFalse => cases h
  rename_i hforeign
  cases h
  obtain ⟨hfind, hcommunity⟩ := findRole_eq_some.1 hfound
  obtain ⟨hrow, hid⟩ := Table.find_eq_some.1 hfind
  refine ⟨hi.owners, hi.members, hi.roles, hi.names, hi.everyone, fun m hm => ?_, hi.granted, ?_⟩
  · rcases Table.mem_insert.1 hm with hm | ⟨rfl, hnew⟩
    · exact hi.assigned m hm
    · have hnew : db.memberRoles.contains (c, u, r) = false := hnew
      rw [hnew, Bool.false_or, Bool.and_eq_true] at hforeign
      exact ⟨hforeign.2, role, hrow, hid, hcommunity⟩
  · intro community h r' hr' hc hd m hm hmc hne
    rw [Table.contains_insert, hi.materialised community h r' hr' hc hd m hm hmc hne]
    rfl

theorem Integrity.roleTaken {role : Role} (hi : Integrity db) (hfound : findRole db c r = some role) (hplain : role.isDefault = false) :
    Integrity { db with memberRoles := db.memberRoles.delete (c, u, r) } := by
  obtain ⟨hfind, -⟩ := findRole_eq_some.1 hfound
  refine ⟨hi.owners, hi.members, hi.roles, hi.names, hi.everyone, fun m hm => hi.assigned m (Table.mem_deleteWhere.1 hm).1,
    hi.granted, ?_⟩
  intro community h r' hr' hc hd m hm hmc hne
  rw [Table.contains_delete, hi.materialised community h r' hr' hc hd m hm hmc hne, Bool.true_and, decide_eq_true_eq]
  intro heq
  have hid : r = r'.id := congrArg (·.2.2) heq
  have hsame : db.roles.find r = some r' := hid ▸ Table.mem_iff_find.1 hr'
  obtain rfl := Option.some.inj (hfind.symm.trans hsame)
  exact absurd (hd.symm.trans hplain) Bool.false_ne_true.symm

/-! ### The calls -/

theorem keeps_of_frames {α : Type} {m : SqlM α} (hm : Prog.Frames governed m) : Prog.Keeps Integrity m :=
  Prog.Keeps.of_frames (fun _ _ h hi => hi.congr h) hm

theorem keeps_void {α : Type} {m : SqlM α} (hm : Prog.Keeps Integrity m) : Prog.Keeps Integrity (Room.void m) :=
  hm.bind fun _ => keeps_of_frames (Prog.Frames.pure _)

/-- A read before a call: where it fails nothing is written, and otherwise the call can rely on what was read. -/
theorem keeps_query {α β : Type} {q : Db → Except ServiceError α} {m : α → SqlM β}
    (h : ∀ db a, q db = .ok a → Integrity db → Integrity ((m a).exec db).2) : Prog.Keeps Integrity (Prog.query q >>= m) := by
  intro db hi
  rw [Prog.exec_query_bind]
  rcases hq : q db with e | a
  · exact hi
  · exact h db a hq hi

/-- The same of a computation. -/
theorem keeps_lift {α β : Type} {x : Except ServiceError α} {m : α → SqlM β}
    (h : ∀ a, x = .ok a → Prog.Keeps Integrity (m a)) : Prog.Keeps Integrity (Prog.lift x >>= m) :=
  keeps_query fun db a hx => h a hx db

/-- What only reads may come after. -/
theorem after_eq {α β : Type} {m : SqlM α} {f : α → SqlM β} (hf : ∀ a, Prog.Frames id (f a)) (db : Db) :
    ((m >>= f).exec db).2 = (m.exec db).2 :=
  Prog.Frames.after hf db

/-- A transaction keeps what its success keeps. -/
theorem integrity_transaction {α : Type} {m : SqlM α} (hi : Integrity db)
    (h : ∀ a db', (Prog.transaction m).exec db = (.ok a, db') → Integrity db') : Integrity ((Prog.transaction m).exec db).2 := by
  rcases he : (Prog.transaction m).exec db with ⟨e | a, db'⟩
  · rw [Prog.transaction_error he]
    exact hi
  · exact h a db' he

/-- The identifiers a creation draws go with the roles and channels one by one. -/
theorem starters_of_template {keyed : String} {template : CommunityTemplate} (h : communityTemplate keyed = some template)
    (ids : Nat → RoleId) :
    Starters (((List.range (rolesForTemplate template).length).map ids).zip (rolesForTemplate template)) := by
  have hlength : (rolesForTemplate template).length ≤ ((List.range (rolesForTemplate template).length).map ids).length := by simp
  constructor
  · have hnames : (((List.range (rolesForTemplate template).length).map ids).zip (rolesForTemplate template)).map (·.2.name) =
        (rolesForTemplate template).map (·.name) := by
      rw [show (fun role : RoleId × RoleTemplate => role.2.name) = RoleTemplate.name ∘ Prod.snd from rfl, ← List.map_map,
        List.map_snd_zip hlength]
    rw [hnames]
    exact names_of_template h
  · obtain ⟨others, hroles, hplain⟩ := default_of_template h
    rw [hroles, List.length_cons, List.range_succ_eq_map, List.map_cons, List.zip_cons_cons]
    exact ⟨_, _, rfl, rfl, rfl, fun role hrole => hplain role.2 (List.of_mem_zip hrole).2⟩

theorem keeps_create (owner : UserId) (input : CreateCommunity) (draw : CommunityDraw) :
    Prog.Keeps Integrity (CommunityService.create owner input draw) := by
  refine keeps_lift fun _ _ => keeps_lift fun template htemplate => fun db hi => ?_
  unfold CreateCommunity.chosen at htemplate
  rcases hfound : communityTemplate (input.template.getD defaultTemplateKey) with _ | found
  · simp only [hfound] at htemplate
    cases htemplate
  · simp only [hfound] at htemplate
    cases htemplate
    exact integrity_transaction hi fun _ _ h => (createCommunity_ok h).integrity (starters_of_template hfound _) hi

theorem keeps_delete (c : CommunityId) (u : UserId) : Prog.Keeps Integrity (deleteCommunity c u) :=
  keeps_query fun db context _ hi => by
    rw [Prog.exec_ensure_bind]
    split
    · exact hi.deleted c
    · exact hi

theorem keeps_addMember (c : CommunityId) (actor target : UserId) : Prog.Keeps Integrity (Community.addMember c actor target) :=
  keeps_query fun db _ _ => keeps_query (fun _ _ _ hi => integrity_transaction hi fun _ _ h => hi.joined h) db

theorem keeps_removeMember (c : CommunityId) (actor target : UserId) :
    Prog.Keeps Integrity (Community.removeMember c actor target) := by
  refine keeps_query fun db _ hremovable hi => ?_
  rw [Prog.exec_read_bind, Prog.exec_modify_bind, Prog.exec_ensure]
  refine hi.left fun community hmem hc => ?_
  subst hc
  unfold removable at hremovable
  rw [show db.communities.find community.id = some community from Table.mem_iff_find.1 hmem] at hremovable
  rintro rfl
  simp at hremovable

theorem keeps_createRole (c : CommunityId) (actor : UserId) (roleId : RoleId) (input : CreateRole) :
    Prog.Keeps Integrity (createRole c actor roleId input) :=
  keeps_query fun db context _ hi => by
    rw [Prog.exec_lift_bind]
    rcases hnew : newRole c roleId input context with e | ⟨role, ps⟩
    · exact hi
    · obtain ⟨-, -, hplain, -⟩ := newRole_ok hnew
      dsimp only
      rw [after_eq fun _ => Prog.Frames.pure _]
      exact integrity_transaction hi fun _ _ h => hi.roleCreated hplain h

theorem keeps_updateRole (c : CommunityId) (actor : UserId) (roleId : RoleId) (input : UpdateRole) :
    Prog.Keeps Integrity (updateRole c actor roleId input) :=
  keeps_query fun db context _ => keeps_query (fun db given hgiven hi => by
    obtain ⟨name, permissions⟩ := given
    obtain ⟨role, hfound, hkept, hname, -⟩ := roleUpdate_ok hgiven
    have hnone : role.isDefault = true → name = none := by
      intro hd
      rw [hkept hd] at hname
      exact hname
    dsimp only
    have hwritten : Integrity ((updateRoleRow c roleId name input.color input.position permissions).exec db).2 :=
      integrity_transaction hi fun _ _ h => hi.roleUpdated hfound hnone h
    rcases permissions with _ | ps
    · rw [after_eq fun _ => (Prog.Frames.read _).bind fun _ => Prog.Frames.pure _]
      exact hwritten
    · rw [after_eq fun _ => Prog.Frames.pure _]
      exact hwritten) db

theorem keeps_assignRole (c : CommunityId) (actor target : UserId) (roleId : RoleId) :
    Prog.Keeps Integrity (assignRole c actor target roleId) := by
  refine keeps_query fun db _ _ => keeps_query (fun db _ hfound hi => ?_) db
  rw [Prog.exec_query_bind]
  split
  · rw [Prog.exec_query_bind]
    split
    · obtain ⟨role, hrole⟩ : ∃ role, findRole db c roleId = some role := by
        refine Option.isSome_iff_exists.1 ?_
        by_contra hnone
        rw [if_neg hnone] at hfound
        cases hfound
      rcases h : (assignRoleRow c target roleId).exec db with ⟨e | x, db'⟩
      · rw [assignRoleRow_error h]
        exact hi
      · exact hi.roleAssigned hrole h
    · exact hi
  · exact hi

theorem keeps_removeRole (c : CommunityId) (actor target : UserId) (roleId : RoleId) :
    Prog.Keeps Integrity (removeRole c actor target roleId) := by
  refine keeps_query fun db _ _ => keeps_query (fun db _ hfound hi => ?_) db
  rw [Prog.exec_query_bind]
  split
  · rw [after_eq fun _ => Prog.Frames.ensure _ _]
    unfold removableRole at hfound
    rcases hrole : findRole db c roleId with _ | role
    · simp only [hrole] at hfound
      cases hfound
    · simp only [hrole] at hfound
      have hplain : role.isDefault = false := by
        rcases hd : role.isDefault
        · rfl
        · rw [hd] at hfound
          cases hfound
      exact hi.roleTaken hrole hplain
  · exact hi

/-! ### Invites -/

theorem keeps_orElse {α : Type} {m m' : SqlM α} {p : ServiceError → Bool} (hm : Prog.Keeps Integrity m) (hm' : Prog.Keeps Integrity m') :
    Prog.Keeps Integrity (Prog.orElse m p m') := by
  intro db hi
  have hkept := hm db hi
  rw [Prog.exec_orElse]
  rcases he : m.exec db with ⟨e | a, db'⟩
  · rw [he] at hkept
    dsimp only
    split
    · exact hm' db' hkept
    · exact hkept
  · rw [he] at hkept
    exact hkept

theorem keeps_insertInvite (code : String) (c : CommunityId) (u : UserId) (expiresAt : Option Timestamp) (maxUses : Option Int32) :
    Prog.Keeps Integrity (insertInvite code c u expiresAt maxUses) :=
  keeps_of_frames ((SqlM.frames_check _ _).bind fun _ => (SqlM.frames_check _ _).bind fun _ => (SqlM.frames_check _ _).bind
    fun _ => (Prog.Frames.read _).bind fun _ => Prog.Frames.bind (Prog.Frames.modify fun _ => rfl) fun _ => Prog.Frames.pure _)

theorem keeps_mintInvite (c : CommunityId) (u : UserId) (expiresAt : Option Timestamp) (maxUses : Option Int32)
    (draws : Nat → Uuid) (left n : Nat) : Prog.Keeps Integrity (mintInvite c u expiresAt maxUses draws left n) := by
  induction left generalizing n with
  | zero => exact keeps_of_frames (Prog.Frames.fail _)
  | succ left ih => exact keeps_orElse (keeps_insertInvite _ c u expiresAt maxUses) (ih (n + 1))

theorem keeps_createInvite (c : CommunityId) (u : UserId) (expiresInHours : Option Int) (maxUses : Option Int32)
    (draws : Nat → Uuid) : Prog.Keeps Integrity (Community.createInvite c u expiresInHours maxUses draws) :=
  (keeps_of_frames (Prog.Frames.query _)).bind fun _ => (keeps_of_frames (Prog.Frames.lift _)).bind fun _ =>
    (keeps_of_frames (Prog.Frames.ensure _ _)).bind fun _ => (keeps_of_frames (Prog.Frames.read _)).bind fun _ =>
      (keeps_of_frames (Prog.Frames.lift _)).bind fun _ => keeps_mintInvite c u _ maxUses draws codeAttempts 0

theorem keeps_claimUse (code : String) : Prog.Keeps Integrity (claimUse code) := by
  refine keeps_of_frames ((Prog.Frames.read _).bind fun claimed => ?_)
  cases claimed with
  | none => exact Prog.Frames.pure _
  | some invite =>
    exact (SqlM.frames_check _ _).bind fun _ => Prog.Frames.bind (Prog.Frames.modify fun _ => rfl) fun _ => Prog.Frames.pure _

theorem keeps_redeemInvite (code : String) (u : UserId) : Prog.Keeps Integrity (redeemInvite code u) := by
  refine (keeps_claimUse code).bind fun claimed => Prog.Keeps.bind ?_ fun communityId => keeps_orElse ?_ ?_
  · cases claimed with
    | some communityId => exact keeps_of_frames (Prog.Frames.pure _)
    | none => exact keeps_of_frames (Prog.Frames.fail _)
  · exact (keeps_addMember communityId u u).bind fun _ => keeps_of_frames (Prog.Frames.pure _)
  · exact keeps_of_frames (Prog.Frames.pure _)

theorem keeps_revokeInvite (code : String) (u : UserId) : Prog.Keeps Integrity (revokeInvite code u) :=
  keeps_of_frames ((Prog.Frames.query _).bind fun _ => (Prog.Frames.query _).bind fun _ => (Prog.Frames.lift _).bind fun _ =>
    Prog.Frames.modify fun _ => rfl)

theorem keeps_perform (op : RoleOperation) : Prog.Keeps Integrity op.perform := by
  have hpure : ∀ {α : Type} (a : α), Prog.Keeps Integrity (pure a : SqlM α) := fun a => keeps_of_frames (Prog.Frames.pure a)
  unfold RoleOperation.perform
  cases op.request with
  | create roleId input => exact (keeps_createRole _ _ roleId input).bind fun _ => hpure _
  | update roleId input => exact (keeps_updateRole _ _ roleId input).bind fun _ => hpure _
  | assign target roleId => exact (keeps_assignRole _ _ target roleId).bind fun _ => hpure _
  | remove target roleId => exact (keeps_removeRole _ _ target roleId).bind fun _ => hpure _

/-- No call breaks what the communities keep to. -/
theorem Integrity.step (call : CommunityCall) (hi : Integrity db) : Integrity (communityStep db call) := by
  refine (show Prog.Keeps Integrity call.handle from ?_) db hi
  cases call with
  | register user => exact keeps_of_frames (Room.frames_registering (fun _ _ => rfl) user)
  | create owner input draw => exact keeps_create owner input draw
  | delete c u => exact keeps_delete c u
  | addMember c actor target => exact keeps_void (keeps_addMember c actor target)
  | removeMember c actor target => exact keeps_removeMember c actor target
  | role op => exact keeps_void (keeps_perform op)
  | createInvite c u hours maxUses draws => exact keeps_void (keeps_createInvite c u hours maxUses draws)
  | redeem code u => exact keeps_void (keeps_redeemInvite code u)
  | revoke code u => exact keeps_revokeInvite code u
  | prune =>
    exact keeps_void (keeps_of_frames ((Prog.Frames.read _).bind fun _ =>
      Prog.Frames.bind (Prog.Frames.modify fun _ => rfl) fun _ => Prog.Frames.pure _))
  | room req hreq => exact keeps_of_frames (Room.frames_handle (fun _ _ _ _ => rfl) hreq)
  | clock now => exact keeps_of_frames (Prog.Frames.modify fun _ => rfl)

end Integrity

/-- In every state the communities reach, each has its owner among its members and one default role that every other member
was given; roles of one community differ in name; and whoever has a role is in its community. -/
theorem communities_sound (now : Timestamp) (calls : List CommunityCall) : Always communityStep Integrity (Db.empty now) calls :=
  always_of_step (fun _ call hi => hi.step call) (integrity_empty now)

/-! ## The list of members -/

/-- What the list of members of a community says is so: the members it names, each once, with exactly the roles they were
given, which are those their standing is resolved from but the default one, strictly by rank. -/
structure Tells (names : NameOrder) (db : Db) (c : CommunityId) (entries : List MemberWithRoles) : Prop where
  once : (entries.map (·.member)).Nodup
  members : ∀ entry ∈ entries, entry.member ∈ db.communityMembers.rows ∧ entry.member.communityId = c
  roles : ∀ entry ∈ entries, ∀ r, r ∈ entry.roles ↔
    r ∈ db.roles.rows ∧ r.isDefault = false ∧ r.id ∈ memberRoleIds db c entry.member.userId
  ranked : ∀ entry ∈ entries, entry.roles.Pairwise fun r r' => names.ranked r r' = true ∧ names.ranked r' r = false

section Listing

variable {order : MemberOrder} {names : NameOrder} {db : Db} {c : CommunityId} {u : UserId} {limit : Int}

theorem eq_of_id {r r' : Role} (hr : r ∈ db.roles.rows) (hr' : r' ∈ db.roles.rows) (hid : r'.id = r.id) : r' = r := by
  have hfind : db.roles.find r.id = some r' := Table.find_eq_some.2 ⟨hr', hid⟩
  exact Option.some.inj (hfind.symm.trans (Table.mem_iff_find.1 hr))

/-- A role is assigned in its own community. -/
theorem Integrity.community_of_assigned (hi : Integrity db) {r : Role} (hr : r ∈ db.roles.rows)
    (hheld : db.memberRoles.contains (c, u, r.id) = true) : r.communityId = c := by
  obtain ⟨m, hm⟩ := Table.contains_iff.1 hheld
  obtain ⟨hm, hkey⟩ := Table.find_eq_some.1 hm
  have hkey : (m.communityId, m.userId, m.roleId) = (c, u, r.id) := hkey
  obtain ⟨hmc, -, hmr⟩ : m.communityId = c ∧ m.userId = u ∧ m.roleId = r.id := by simpa using hkey
  obtain ⟨-, r', hr', hid, hc⟩ := hi.assigned m hm
  exact eq_of_id hr hr' (hid.trans hmr) ▸ hc.trans hmc

theorem Integrity.mem_memberRoleIds (hi : Integrity db) {r : Role} (hr : r ∈ db.roles.rows) (hd : r.isDefault = false) :
    r.id ∈ memberRoleIds db c u ↔ db.memberRoles.contains (c, u, r.id) = true := by
  unfold memberRoleIds holdsRole
  rw [List.mem_map]
  constructor
  · rintro ⟨r', hr', hid⟩
    obtain ⟨hr', hholds⟩ := Table.mem_select.1 hr'
    obtain rfl := eq_of_id hr hr' hid
    rw [hd, Bool.false_or, Bool.and_eq_true] at hholds
    exact hholds.2
  · intro hheld
    exact ⟨r, Table.mem_select.2 ⟨hr, by simp [hheld, hi.community_of_assigned hr hheld]⟩, rfl⟩

theorem Integrity.tells (hi : Integrity db) {entries : List MemberWithRoles}
    (h : listMembersWithRoles order names db c u limit = .ok entries) : Tells names db c entries := by
  obtain ⟨honce, hentries⟩ := listMembersWithRoles_ok h
  refine ⟨honce, fun entry hentry => ⟨(hentries entry hentry).1, (hentries entry hentry).2.1⟩, fun entry hentry r => ?_,
    fun entry hentry => ?_⟩
  · rw [(hentries entry hentry).2.2, mem_groupOf_sorted]
    constructor
    · rintro ⟨hheld, hr, hd⟩
      exact ⟨hr, hd, (hi.mem_memberRoleIds hr hd).2 hheld⟩
    · rintro ⟨hr, hd, hin⟩
      exact ⟨(hi.mem_memberRoleIds hr hd).1 hin, hr, hd⟩
  · rw [(hentries entry hentry).2.2]
    refine pairwise_groupOf ?_ _
    set rows := (assignedRoles db c).mergeSort fun a b => names.ranked a.2 b.2 with hrows
    have hsorted : rows.Pairwise fun a b => names.ranked a.2 b.2 = true :=
      List.pairwise_mergeSort (fun a b c => names.ranked_trans a.2 b.2 c.2) (fun a b => names.ranked_total a.2 b.2) _
    have hnodup : rows.Nodup := (List.mergeSort_perm _ _).nodup_iff.2 nodup_assignedRoles
    refine (hsorted.and hnodup).imp_of_mem fun {a b} ha hb hab huser => ⟨hab.1, ?_⟩
    by_contra hback
    rw [Bool.not_eq_false] at hback
    obtain ⟨ua, ra⟩ := a
    obtain ⟨ub, rb⟩ := b
    obtain ⟨hheld, hra, -⟩ := mem_assignedRoles.1 (List.mem_mergeSort.1 ha)
    obtain ⟨hheld', hrb, -⟩ := mem_assignedRoles.1 (List.mem_mergeSort.1 hb)
    -- roles that rank alike have one name, and a name is one role's in the community
    have hsame := hi.names ra hra rb hrb
      ((hi.community_of_assigned hra hheld).trans (hi.community_of_assigned hrb hheld').symm) (NameOrder.name_of_ranked hab.1 hback)
    exact hab.2 (Prod.ext huser hsame)

end Listing

/-- In every state the communities reach, a list of members that is answered says what is so. -/
theorem member_lists_tell (order : MemberOrder) (names : NameOrder) (now : Timestamp) (calls : List CommunityCall) :
    Always communityStep (fun db => ∀ c u limit entries,
      listMembersWithRoles order names db c u limit = .ok entries → Tells names db c entries) (Db.empty now) calls := by
  refine Always.mono ?_ (communities_sound now calls)
  intro db hi c u limit entries h
  exact hi.tells h

end Genzh.Community
