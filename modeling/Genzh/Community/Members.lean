/-
Leaving a community, and the list of who is in it. Removing a member takes their assignments with it, and the owner is never
removed. The list pairs each member with the roles they were given: one query for the whole community, its rows grouped by
member in memory.
-/
import Genzh.Community.Roles
import Genzh.Lib.Grouping

namespace Genzh.Community

open Genzh.Lib Genzh.Domain Genzh.Infrastructure

/-! ## Removing -/

/-- `DELETE FROM community_members`, with the assignments that cascade from it. -/
def removeMemberRow (communityId : CommunityId) (userId : UserId) (db : Db) : Db :=
  { db with
    communityMembers := db.communityMembers.delete (communityId, userId)
    memberRoles := db.memberRoles.deleteWhere fun m => m.communityId = communityId && m.userId = userId }

/-- May this account be removed: not the owner, and by itself or by whoever manages the members. -/
def removable (db : Db) (communityId : CommunityId) (actorId targetId : UserId) : Except ServiceError Unit :=
  match db.communities.find communityId with
  | none => .error (.notFound "community")
  | some community =>
    if community.ownerId = targetId then .error (.denied "cannot_remove_owner")
    else if actorId ≠ targetId then do
      let context ← memberContext db communityId actorId
      context.require .manageMembers
    else .ok ()

/-- Remove a member. -/
def removeMember (communityId : CommunityId) (actorId targetId : UserId) : SqlM Unit := do
  Prog.query fun db => removable db communityId actorId targetId
  let removed ← Prog.read fun db => db.communityMembers.contains (communityId, targetId)
  Prog.modify (removeMemberRow communityId targetId)
  Prog.ensure removed (.notFound "membership")

/-! ## Listing -/

/-- `ORDER BY joined_at DESC`. When a member joined is no column here: the order is up to the database. -/
structure MemberOrder where
  sort : List CommunityMember → List CommunityMember
  perm : ∀ rows, (sort rows).Perm rows

/-- The order of the database's names: two of them that are not told apart are the same. -/
structure NameOrder where
  le : String → String → Bool
  trans : ∀ a b c, le a b = true → le b c = true → le a c = true
  total : ∀ a b, (le a b || le b a) = true
  antisymm : ∀ a b, le a b = true → le b a = true → a = b

/-- `ORDER BY r.position DESC, r.name ASC`. -/
def NameOrder.ranked (names : NameOrder) (r r' : Role) : Bool :=
  decide (r'.position < r.position) || (decide (r.position = r'.position) && names.le r.name r'.name)

/-- A member together with the roles they have been given. -/
structure MemberWithRoles where
  member : CommunityMember
  roles : List Role
  deriving DecidableEq, Repr

/-- Which member was given which role of the community: the default role is left out. -/
def assignedRoles (db : Db) (communityId : CommunityId) : List (UserId × Role) :=
  (db.memberRoles.select fun m => m.communityId = communityId).filterMap fun m =>
    ((db.roles.find m.roleId).filter fun r => !r.isDefault).map fun r => (m.userId, r)

/-- The roles explicitly assigned in this community, keyed by member. -/
def rolesByMember (names : NameOrder) (db : Db) (communityId : CommunityId) : Map UserId (List Role) :=
  grouped ((assignedRoles db communityId).mergeSort fun a b => names.ranked a.2 b.2)

/-- List members. -/
def listMembers (order : MemberOrder) (db : Db) (communityId : CommunityId) (userId : UserId) (limit : Int) :
    Except ServiceError (List CommunityMember) := do
  let _ ← memberContext db communityId userId
  pure ((order.sort (db.communityMembers.select fun m => m.communityId = communityId)).take (max 1 (min limit 200)).toNat)

/-- List members, each with the roles they hold. -/
def listMembersWithRoles (order : MemberOrder) (names : NameOrder) (db : Db) (communityId : CommunityId) (userId : UserId)
    (limit : Int) : Except ServiceError (List MemberWithRoles) := do
  let members ← listMembers order db communityId userId limit
  let groups := takeGroups (rolesByMember names db communityId) (members.map (·.userId))
  pure (members.zipWith (fun member roles => { member, roles }) groups)

/-! ## What a list says -/

section Listing

variable {order : MemberOrder} {names : NameOrder} {db : Db} {c : CommunityId} {u : UserId} {limit : Int}

theorem mem_assignedRoles {r : Role} : (u, r) ∈ assignedRoles db c ↔
    db.memberRoles.contains (c, u, r.id) = true ∧ r ∈ db.roles.rows ∧ r.isDefault = false := by
  unfold assignedRoles
  rw [List.mem_filterMap]
  constructor
  · rintro ⟨m, hm, hrow⟩
    obtain ⟨r', hr', heq⟩ := Option.map_eq_some_iff.1 hrow
    obtain ⟨hfind, hplain⟩ := Option.filter_eq_some_iff.1 hr'
    obtain ⟨hmem, hc⟩ := Table.mem_select.1 hm
    obtain ⟨hrole, hid⟩ := Table.find_eq_some.1 hfind
    cases heq
    refine ⟨Table.contains_iff.2 ⟨m, Table.find_eq_some.2 ⟨hmem, ?_⟩⟩, hrole, by simpa using hplain⟩
    have hid : r.id = m.roleId := hid
    rw [hid, ← of_decide_eq_true hc]
    rfl
  · rintro ⟨hheld, hrole, hplain⟩
    obtain ⟨m, hm⟩ := Table.contains_iff.1 hheld
    obtain ⟨hmem, hkey⟩ := Table.find_eq_some.1 hm
    have hkey : (m.communityId, m.userId, m.roleId) = (c, u, r.id) := hkey
    obtain ⟨rfl, rfl, hid⟩ : m.communityId = c ∧ m.userId = u ∧ m.roleId = r.id := by simpa using hkey
    refine ⟨m, Table.mem_select.2 ⟨hmem, by simp⟩, ?_⟩
    rw [hid, show db.roles.find r.id = some r from Table.mem_iff_find.1 hrole]
    simp [hplain]

theorem NameOrder.ranked_trans (names : NameOrder) (a b c : Role) (hab : names.ranked a b = true) (hbc : names.ranked b c = true) :
    names.ranked a c = true := by
  unfold NameOrder.ranked at *
  simp only [Bool.or_eq_true, Bool.and_eq_true, decide_eq_true_eq] at *
  rcases hab with hab | ⟨hab, hnames⟩
  · rcases hbc with hbc | ⟨hbc, -⟩
    · exact .inl (by omega)
    · exact .inl (by omega)
  · rcases hbc with hbc | ⟨hbc, hnames'⟩
    · exact .inl (by omega)
    · exact .inr ⟨by omega, names.trans _ _ _ hnames hnames'⟩

theorem NameOrder.ranked_total (names : NameOrder) (a b : Role) : (names.ranked a b || names.ranked b a) = true := by
  unfold NameOrder.ranked
  have hnames := names.total a.name b.name
  simp only [Bool.or_eq_true, Bool.and_eq_true, decide_eq_true_eq] at *
  rcases lt_trichotomy a.position b.position with h | h | h
  · exact .inr (.inl h)
  · rcases hnames with hnames | hnames
    · exact .inl (.inr ⟨h, hnames⟩)
    · exact .inr (.inr ⟨h.symm, hnames⟩)
  · exact .inl (.inl h)

/-- Two roles that rank alike have one name. -/
theorem NameOrder.name_of_ranked {a b : Role} (hab : names.ranked a b = true) (hba : names.ranked b a = true) : a.name = b.name := by
  unfold NameOrder.ranked at hab hba
  simp only [Bool.or_eq_true, Bool.and_eq_true, decide_eq_true_eq] at hab hba
  rcases hab with hab | ⟨hab, hnames⟩
  · rcases hba with hba | ⟨hba, -⟩ <;> omega
  · rcases hba with hba | ⟨-, hnames'⟩
    · omega
    · exact names.antisymm _ _ hnames hnames'

/-- The roles of a member in a list: the group of the rows that were queried. -/
theorem mem_groupOf_sorted {r : Role} :
    r ∈ groupOf ((assignedRoles db c).mergeSort fun a b => names.ranked a.2 b.2) u ↔
      db.memberRoles.contains (c, u, r.id) = true ∧ r ∈ db.roles.rows ∧ r.isDefault = false := by
  rw [mem_groupOf, List.mem_mergeSort, mem_assignedRoles]

/-- A member is given a role once. -/
theorem nodup_assignedRoles : (assignedRoles db c).Nodup := by
  unfold assignedRoles
  rw [List.Nodup, List.pairwise_filterMap]
  have hrows : (db.memberRoles.select fun m => m.communityId = c).Nodup := (db.memberRoles.nodup.of_map key).filter _
  refine hrows.imp_of_mem fun {m m'} hm hm' hne => ?_
  rintro row hrow _ hrow' rfl
  obtain ⟨r, hr, heq⟩ := Option.map_eq_some_iff.1 hrow
  obtain ⟨r', hr', heq'⟩ := Option.map_eq_some_iff.1 hrow'
  obtain ⟨hu, rfl⟩ : m'.userId = m.userId ∧ r' = r := by simpa using heq'.trans heq.symm
  have hid : m.roleId = m'.roleId := by
    rw [← Table.find_key (Option.filter_eq_some_iff.1 hr).1, ← Table.find_key (Option.filter_eq_some_iff.1 hr').1]
  have hc : m.communityId = m'.communityId := by
    rw [of_decide_eq_true (Table.mem_select.1 hm).2, of_decide_eq_true (Table.mem_select.1 hm').2]
  apply hne
  cases m
  cases m'
  simp_all

/-- A list is drawn from the members of the community, each of them once, with the group of rows of each. -/
theorem listMembersWithRoles_ok {entries : List MemberWithRoles} (h : listMembersWithRoles order names db c u limit = .ok entries) :
    (entries.map (·.member)).Nodup ∧ ∀ entry ∈ entries, entry.member ∈ db.communityMembers.rows ∧ entry.member.communityId = c ∧
      entry.roles = groupOf ((assignedRoles db c).mergeSort fun a b => names.ranked a.2 b.2) entry.member.userId := by
  obtain ⟨members, hmembers, h⟩ := Prog.bind_eq_ok h
  obtain ⟨_, _, hlisted⟩ := Prog.bind_eq_ok hmembers
  cases h
  cases hlisted
  set rows := db.communityMembers.select fun m => m.communityId = c with hrows
  set listed := (order.sort rows).take (max 1 (min limit 200)).toNat with hlisted
  have hof : ∀ m ∈ listed, m ∈ db.communityMembers.rows ∧ m.communityId = c := by
    intro m hm
    have hm := Table.mem_select.1 ((order.perm rows).mem_iff.1 (List.mem_of_mem_take hm))
    exact ⟨hm.1, of_decide_eq_true hm.2⟩
  have honce : listed.Nodup :=
    (((order.perm rows).nodup_iff.2 ((db.communityMembers.nodup.of_map key).filter _)).sublist (List.take_sublist _ _))
  have husers : (listed.map (·.userId)).Nodup := by
    refine List.Nodup.map_on ?_ honce
    intro m hm m' hm' heq
    have hc := (hof m hm).2.trans (hof m' hm').2.symm
    cases m
    cases m'
    simp_all
  have hzip : listed.zipWith (fun member roles => { member, roles : MemberWithRoles })
      (takeGroups (rolesByMember names db c) (listed.map (·.userId))) =
      listed.map fun member => { member, roles := groupOf ((assignedRoles db c).mergeSort fun a b => names.ranked a.2 b.2) member.userId } := by
    rw [takeGroups_eq husers, List.map_map, List.zipWith_map_right, List.zipWith_self]
    refine List.map_congr_left fun m _ => ?_
    rw [Function.comp_apply, rolesByMember, get_grouped]
  rw [hzip]
  refine ⟨by rw [List.map_map]; exact (List.map_id' listed).symm ▸ honce, fun entry hentry => ?_⟩
  obtain ⟨m, hm, rfl⟩ := List.mem_map.1 hentry
  exact ⟨(hof m hm).1, (hof m hm).2, rfl⟩

end Listing

end Genzh.Community
