/-
Nobody gets more out of a community's roles than they put in. Where only members who are neither the owner
nor administrators act on the roles, however they take turns and whatever they hand each other, all that
anybody ends up with is what they had, or what one of those members had at the start.

The invariant is that the policy is confined by what the members had between them. A call that has passed its
guard carries the promise along: the set it is about to write, or the grants of the role it is about to give,
are within those permissions, and no other call takes them out.
-/
import Genzh.Community.RoleCalls

namespace Genzh.Community

open Genzh.Lib Genzh.Domain Genzh.Infrastructure

/-- What somebody of a group holds. -/
def combined (db : Db) (c : CommunityId) (S : Set UserId) : Set Permission := {p | ∃ s ∈ S, holds db c s p = true}

/-- A standing that allows nothing but the permissions in `B`. -/
def MemberContext.Within (B : Set Permission) (m : MemberContext) : Prop := ∀ p, m.permissions.allows p = true → p ∈ B

section Guards

variable {B : Set Permission} {context : MemberContext}

theorem isAdmin_eq (context : MemberContext) : context.isAdmin = context.permissions.allows .administrator := by
  unfold MemberContext.isAdmin PermissionSet.allows
  exact (Bool.or_self _).symm

/-- What passes the guard is allowed, one by one, where the actor is no administrator. -/
theorem guardPrivilegeEscalation_ok {requested granted : List Permission} (hplain : context.isAdmin = false)
    (h : guardPrivilegeEscalation context requested = .ok granted) :
    granted = requested ∧ ∀ p ∈ requested, context.permissions.allows p = true := by
  unfold guardPrivilegeEscalation at h
  rw [hplain] at h
  simp only [Bool.false_eq_true, if_false] at h
  split at h
  · cases h
  · rename_i hnone
    cases h
    refine ⟨rfl, fun p hp => ?_⟩
    simpa using List.find?_eq_none.1 hnone p hp

theorem Within.isAdmin (h : context.Within B) (hB : .administrator ∉ B) : context.isAdmin = false := by
  rw [isAdmin_eq, Bool.eq_false_iff]
  exact fun hadmin => hB (h _ hadmin)

theorem Within.guarded (h : context.Within B) (hB : .administrator ∉ B) {requested granted : List Permission}
    (hg : guardPrivilegeEscalation context requested = .ok granted) : granted = requested ∧ ∀ p ∈ requested, p ∈ B := by
  obtain ⟨heq, hall⟩ := guardPrivilegeEscalation_ok (Within.isAdmin h hB) hg
  exact ⟨heq, fun p hp => h p (hall p hp)⟩

theorem guardRole_ok {db : Db} {r : RoleId} (h : guardRole db r context = .ok ()) :
    ∃ granted, guardPrivilegeEscalation context (rolePermissions db r) = .ok granted := by
  unfold guardRole at h
  rcases hg : guardPrivilegeEscalation context (rolePermissions db r) with e | granted
  · rw [hg] at h
    cases h
  · exact ⟨granted, rfl⟩

/-- A new role grants what passed the guard, and is no default role. -/
theorem newRole_ok {c : CommunityId} {roleId : RoleId} {input : CreateRole} {role : Role} {ps : List Permission}
    (h : newRole c roleId input context = .ok (role, ps)) :
    role.id = roleId ∧ role.communityId = c ∧ role.isDefault = false ∧
      guardPrivilegeEscalation context input.permissions = .ok ps := by
  unfold newRole at h
  rcases hg : guardPrivilegeEscalation context input.permissions with e | ps'
  · simp only [hg] at h
    cases h
  · simp only [hg] at h
    rcases hn : liftDomain (validateRoleName input.name) with e | name
    · simp only [hn] at h
      cases h
    · simp only [hn] at h
      cases h
      exact ⟨rfl, rfl, rfl, rfl⟩

/-- What an update sets: a name that is valid and not of the default role, and a set that passed the guard. -/
theorem roleUpdate_ok {db : Db} {c : CommunityId} {roleId : RoleId} {input : UpdateRole} {name : Option String}
    {permissions : Option (List Permission)} (h : roleUpdate db c roleId input context = .ok (name, permissions)) :
    ∃ existing, findRole db c roleId = some existing ∧ (existing.isDefault = true → input.name = none) ∧
      (match input.name with
        | some given => ∃ valid, validateRoleName given = .ok valid ∧ name = some valid
        | none => name = none) ∧
      (match input.permissions with
        | some requested => ∃ granted, guardPrivilegeEscalation context requested = .ok granted ∧ permissions = some granted
        | none => permissions = none) := by
  unfold roleUpdate at h
  rcases hfound : findRole db c roleId with _ | existing
  · simp only [hfound] at h
    cases h
  simp only [hfound] at h
  refine ⟨existing, rfl, ?_⟩
  rcases hn : input.name with _ | given
  · rcases hp : input.permissions with _ | requested
    · simp [hn, hp, bind, Except.bind, pure, Except.pure] at h
      obtain ⟨rfl, rfl⟩ := h
      exact ⟨fun _ => rfl, rfl, rfl⟩
    · rcases hg : guardPrivilegeEscalation context requested with e | granted <;>
        simp [hn, hp, hg, bind, Except.bind, pure, Except.pure, Except.map] at h
      obtain ⟨rfl, rfl⟩ := h
      exact ⟨fun _ => rfl, rfl, granted, hg, rfl⟩
  rcases hd : existing.isDefault
  · rcases hv : validateRoleName given with e | valid
    · simp [hn, hd, hv, bind, Except.bind, liftDomain, Except.map] at h
    rcases hp : input.permissions with _ | requested
    · simp [hn, hd, hv, hp, bind, Except.bind, liftDomain, Except.map, pure, Except.pure] at h
      obtain ⟨rfl, rfl⟩ := h
      exact ⟨nofun, ⟨valid, hv, rfl⟩, rfl⟩
    · rcases hg : guardPrivilegeEscalation context requested with e | granted <;>
        simp [hn, hd, hv, hp, hg, bind, Except.bind, liftDomain, Except.map, pure, Except.pure] at h
      obtain ⟨rfl, rfl⟩ := h
      exact ⟨nofun, ⟨valid, hv, rfl⟩, granted, hg, rfl⟩
  · simp [hn, hd, bind, Except.bind] at h

end Guards

/-! ## Steps -/

/-- A change to the roles that hands out permissions in `B` only, as far as the community `c` goes. -/
structure Moves (c : CommunityId) (B : Set Permission) (db db' : Db) : Prop where
  only : RolesOnly db db'
  keys : RoleKeys db'
  bounded : Policy.Bounded B (policy db c) (policy db' c)

section Moves

variable {c c' : CommunityId} {B : Set Permission} {db : Db} {u : UserId} {r : RoleId}

theorem Moves.refl (hk : RoleKeys db) : Moves c B db db := ⟨.refl db, hk, .none⟩

theorem moves_createRoleRow {role : Role} {ps : List Permission} (hk : RoleKeys db) (hd : role.isDefault = false)
    (hB : role.communityId = c → ∀ p ∈ ps, p ∈ B) : Moves c B db ((createRoleRow role ps).exec db).2 := by
  rcases h : (createRoleRow role ps).exec db with ⟨e | created, db'⟩
  · rw [Prog.transaction_error h]
    exact .refl hk
  · obtain ⟨honly, hkeys, hpolicy⟩ := createRoleRow_ok hk hd h
    refine ⟨honly, hkeys, ?_⟩
    rw [hpolicy]
    split
    · exact .granting _ _ (hB ‹_›)
    · exact .none

theorem moves_updateRoleRow {name color : Option String} {position : Option Int} {permissions : Option (List Permission)}
    (hk : RoleKeys db) (hB : c' = c → ∀ ps, permissions = some ps → ∀ p ∈ ps, p ∈ B) :
    Moves c B db ((updateRoleRow c' r name color position permissions).exec db).2 := by
  rcases h : (updateRoleRow c' r name color position permissions).exec db with ⟨e | updated, db'⟩
  · rw [Prog.transaction_error h]
    exact .refl hk
  · obtain ⟨honly, hkeys, hpolicy⟩ := updateRoleRow_ok hk h
    refine ⟨honly, hkeys, ?_⟩
    rw [hpolicy]
    split
    · rcases permissions with _ | ps
      · exact .none
      · exact .granting _ _ (hB ‹_› ps rfl)
    · exact .none

theorem moves_assignRoleRow (hk : RoleKeys db) (hB : c' = c → ∀ p ∈ (policy db c).grants r, p ∈ B) :
    Moves c B db ((assignRoleRow c' u r).exec db).2 := by
  rcases h : (assignRoleRow c' u r).exec db with ⟨e | _, db'⟩
  · rw [assignRoleRow_error h]
    exact .refl hk
  · obtain ⟨honly, hkeys, hpolicy⟩ := assignRoleRow_ok hk h
    refine ⟨honly, hkeys, ?_⟩
    rw [hpolicy]
    split
    · rename_i hgiven
      exact .giving _ _ (hB hgiven.1)
    · exact .none

theorem moves_removeRoleRow (hk : RoleKeys db) : Moves c B db ((removeRoleRow c' u r).exec db).2 := by
  obtain ⟨honly, hkeys, hpolicy⟩ := removeRoleRow_ok hk (Prod.mk.eta (p := (removeRoleRow c' u r).exec db)).symm
  refine ⟨honly, hkeys, ?_⟩
  rw [hpolicy]
  split
  · exact .taking _ _
  · exact .none

end Moves

section Run

variable (c : CommunityId) (S : Set UserId) (db₀ : Db)

/-- The state of the database while only members of `S` act on the roles. -/
structure Kept (db : Db) : Prop where
  only : RolesOnly db₀ db
  keys : RoleKeys db
  confined : Policy.Confined (policy db₀ c) (combined db₀ c S) (policy db c)

/-- What a call carries along: that its actor is of `S`, then that what the actor is allowed in the community is
what `S` held, then that what it writes is. -/
def Carries : RoleCall → Db → Prop
  | .resolving op r, db => op.actorId ∈ S ∧ r.Sound op.communityId op.actorId db
  | .inserting role permissions, _ =>
    role.isDefault = false ∧ (role.communityId = c → ∀ p ∈ permissions, p ∈ combined db₀ c S)
  | .updating c' _ _ context, _ | .assigning c' _ _ context, _ | .targeting c' _ _ context, _
  | .weighing c' _ _ context, _ => c' = c → context.Within (combined db₀ c S)
  | .replacing c' _ _ _ permissions, _ => c' = c → ∀ ps, permissions = some ps → ∀ p ∈ ps, p ∈ combined db₀ c S
  | .giving c' _ roleId, db => c' = c → ∀ p ∈ (policy db c).grants roleId, p ∈ combined db₀ c S
  | .reloading .., _ | .removing .., _ | .sparing .., _ | .taking .., _ | .finished _, _ => True

variable {c S db₀} {db db' : Db}

theorem Kept.start (hk : RoleKeys db₀) : Kept c S db₀ db₀ := ⟨.refl db₀, hk, .refl _ _⟩

theorem Kept.step (h : Kept c S db₀ db) (hm : Moves c (combined db₀ c S) db db') : Kept c S db₀ db' :=
  ⟨h.only.trans hm.only, hm.keys, h.confined.step hm.bounded⟩

/-- No other call takes back what a call relies on. -/
theorem Carries.stable {call : RoleCall} (h : Carries c S db₀ call db) (hm : Moves c (combined db₀ c S) db db') :
    Carries c S db₀ call db' := by
  cases call with
  | giving c' u r => exact fun hc => hm.bounded.grants (h hc)
  | resolving op r => exact ⟨h.1, h.2.stays hm.only.communities hm.only.members⟩
  | _ => exact h

/-- Whatever somebody holds, they held before, or `S` did. -/
theorem Kept.gained (h : Kept c S db₀ db) (hplain : .administrator ∉ combined db₀ c S) {u : UserId} {p : Permission}
    (hp : holds db c u p = true) : holds db₀ c u p = true ∨ p ∈ combined db₀ c S := by
  obtain ⟨community, hfound, hcase⟩ := holds_iff.1 hp
  rw [h.only.communities] at hfound
  rcases hcase with howner | ⟨hmember, hheld⟩
  · exact .inl (holds_iff.2 ⟨community, hfound, .inl howner⟩)
  · rw [h.only.members] at hmember
    rcases hheld with hheld | hadmin
    · rcases h.confined u p hheld with hold | hB
      · exact .inl (holds_iff.2 ⟨community, hfound, .inr ⟨hmember, .inl hold⟩⟩)
      · exact .inr hB
    · rcases h.confined u _ hadmin with hold | hB
      · exact .inl (holds_iff.2 ⟨community, hfound, .inr ⟨hmember, .inr hold⟩⟩)
      · exact absurd hB hplain

theorem Kept.mem_combined (h : Kept c S db₀ db) {s : UserId} (hs : s ∈ S) {p : Permission} (hp : holds db c s p = true)
    (hplain : .administrator ∉ combined db₀ c S) : p ∈ combined db₀ c S :=
  (h.gained hplain hp).elim (fun hold => ⟨s, hs, hold⟩) id

section Advance

variable (hplain : .administrator ∉ combined db₀ c S)

include hplain in
theorem carries_authorised {op : RoleOperation} {context : MemberContext}
    (hB : op.communityId = c → context.Within (combined db₀ c S)) : Carries c S db₀ (authorised op context) db := by
  unfold authorised
  split
  · exact trivial
  split
  · rename_i roleId input hrequest
    split
    · exact trivial
    · rename_i role permissions hnew
      obtain ⟨-, hcommunity, hd, hguard⟩ := newRole_ok hnew
      refine ⟨hd, fun hc => ?_⟩
      obtain ⟨rfl, hall⟩ := Within.guarded (hB (hcommunity ▸ hc)) hplain hguard
      exact hall
  · exact hB
  · exact hB
  · exact trivial

include hplain in
/-- A standing resolved while only members of `S` act is within what `S` held. -/
theorem Kept.within (h : Kept c S db₀ db) {u : UserId} (hu : u ∈ S) {community : Community} {roleIds : List RoleId}
    (hfound : db.communities.find c = some community) (hmember : db.communityMembers.contains (c, u) = true) :
    (MemberContext.new community u roleIds (memberPermissions db c u)).Within (combined db₀ c S) := by
  intro p hp
  refine h.mem_combined hu (holds_iff.2 ⟨community, hfound, ?_⟩) hplain
  rcases allows_iff.1 hp with howner | hheld
  · exact .inl howner
  · exact .inr ⟨hmember, hheld⟩

include hplain in
/-- Each statement hands out only what `S` held, and leaves the call with what it needs for the next. -/
theorem advance_carries {call : RoleCall} (hkept : Kept c S db₀ db) (ho : Carries c S db₀ call db) :
    Moves c (combined db₀ c S) db (advance call db).2 ∧ Carries c S db₀ (advance call db).1 (advance call db).2 := by
  have hstays : Moves c (combined db₀ c S) db db := .refl hkept.keys
  cases call with
  | resolving op r =>
    obtain ⟨hactor, hsound⟩ := ho
    simp only [advance]
    split
    · exact ⟨hstays, hactor, hsound.next ‹_›⟩
    · exact ⟨hstays, trivial⟩
    · rename_i context hread
      refine ⟨hstays, carries_authorised hplain ?_⟩
      rintro rfl
      obtain ⟨community, hfound, howner | ⟨hmember, roleIds, rfl⟩⟩ := hsound.resolved hread
      · -- the owner of the community holds everything there, and is not of `S`
        exact absurd (hkept.mem_combined hactor (holds_iff.2 ⟨community, hfound, .inl howner⟩) hplain) hplain
      · exact hkept.within hplain hactor hfound hmember
  | inserting role permissions =>
    have hm := moves_createRoleRow hkept.keys ho.1 ho.2
    simp only [advance]
    generalize (createRoleRow role permissions).exec db = outcome at hm
    rcases outcome with ⟨e | created, db'⟩ <;> exact ⟨hm, trivial⟩
  | updating c' roleId input context =>
    simp only [advance]
    split
    · exact ⟨hstays, trivial⟩
    · rename_i name permissions hupdate
      refine ⟨hstays, ?_⟩
      rintro hc ps rfl
      obtain ⟨-, -, -, -, hset⟩ := roleUpdate_ok hupdate
      rcases hi : input.permissions with _ | requested
      · simp [hi] at hset
      · simp only [hi] at hset
        obtain ⟨granted, hguard, heq⟩ := hset
        cases heq
        obtain ⟨rfl, hall⟩ := Within.guarded (ho hc) hplain hguard
        exact hall
  | replacing c' roleId input name permissions =>
    have hm : Moves c (combined db₀ c S) db
        ((updateRoleRow c' roleId name input.color input.position permissions).exec db).2 :=
      moves_updateRoleRow hkept.keys ho
    simp only [advance]
    generalize (updateRoleRow c' roleId name input.color input.position permissions).exec db = outcome at hm
    rcases outcome with ⟨e | updated, db'⟩
    · exact ⟨hm, trivial⟩
    · rcases permissions with _ | ps <;> exact ⟨hm, trivial⟩
  | reloading => exact ⟨hstays, trivial⟩
  | assigning c' u roleId context =>
    simp only [advance]
    split
    · exact ⟨hstays, ho⟩
    · exact ⟨hstays, trivial⟩
  | targeting c' u roleId context =>
    simp only [advance]
    split
    · exact ⟨hstays, ho⟩
    · exact ⟨hstays, trivial⟩
  | weighing c' u roleId context =>
    simp only [advance]
    split
    · exact ⟨hstays, trivial⟩
    · rename_i hguard
      obtain ⟨granted, hguard⟩ := guardRole_ok hguard
      refine ⟨hstays, fun hc p hp => ?_⟩
      exact (Within.guarded (ho hc) hplain hguard).2 p (mem_grants.1 hp).2
  | giving c' u roleId =>
    have hm := moves_assignRoleRow (u := u) hkept.keys ho
    simp only [advance]
    generalize (assignRoleRow c' u roleId).exec db = outcome at hm
    rcases outcome with ⟨e | _, db'⟩ <;> exact ⟨hm, trivial⟩
  | removing c' u roleId context =>
    simp only [advance]
    split <;> exact ⟨hstays, trivial⟩
  | sparing c' u roleId context =>
    simp only [advance]
    split <;> exact ⟨hstays, trivial⟩
  | taking c' u roleId =>
    have hm : Moves c (combined db₀ c S) db ((removeRoleRow c' u roleId).exec db).2 := moves_removeRoleRow hkept.keys
    simp only [advance]
    generalize (removeRoleRow c' u roleId).exec db = outcome at hm
    rcases outcome with ⟨e | removed, db'⟩ <;> exact ⟨hm, trivial⟩
  | finished outcome => exact ⟨hstays, trivial⟩

end Advance

end Run

/-! ## Runs -/

variable {I : Type} [DecidableEq I]

/-- However role operations of members of `S` take turns, where none of these owns or administers the
community: what they hold between them stays within what they held, and whatever anybody gains is of it. -/
theorem no_escalation {db : Db} {c : CommunityId} {S : Set UserId} (operations : I → RoleOperation)
    (es : List (Event I Timestamp)) (hkeys : RoleKeys db) (hactors : ∀ i, (operations i).actorId ∈ S)
    (hplain : ∀ s ∈ S, holds db c s .administrator = false) :
    Always roleStep (fun σ =>
      combined σ.store c S ⊆ combined db c S ∧
        ∀ m p, holds σ.store c m p = true → holds db c m p = true ∨ p ∈ combined db c S) (beginRoles db operations) es := by
  have hnone : .administrator ∉ combined db c S := by
    rintro ⟨s, hs, hadmin⟩
    rw [hplain s hs] at hadmin
    cases hadmin
  have h0 : System.Outline (Kept c S db) (fun _ => Carries c S db) (fun _ _ => False) (beginRoles db operations) :=
    ⟨.start hkeys, fun i => ⟨hactors i, trivial⟩, fun _ _ h => h.elim⟩
  have hstep : ∀ (σ : RoleCalls I) (e : Event I Timestamp),
      System.Outline (Kept c S db) (fun _ => Carries c S db) (fun _ _ => False) σ →
      System.Outline (Kept c S db) (fun _ => Carries c S db) (fun _ _ => False) (roleStep σ e) := by
    intro σ e h
    cases e with
    | turn i =>
      obtain ⟨hmoves, hself⟩ := advance_carries hnone h.shared (h.own i)
      exact h.turn (h.shared.step hmoves) hself (fun j _ => (h.own j).stable hmoves) .inl
    | outside t =>
      have hmoves : Moves c (combined db c S) σ.store (σ.store.tick t) :=
        ⟨⟨rfl, rfl⟩, ⟨h.shared.keys.permissions, h.shared.keys.members⟩, .none⟩
      exact h.elsewhere (h.shared.step hmoves) fun i => (h.own i).stable hmoves
  refine (always_of_step hstep h0).mono fun σ hσ => ⟨?_, fun _ _ => hσ.shared.gained hnone⟩
  rintro p ⟨s, hs, hp⟩
  exact hσ.shared.mem_combined hs hp hnone

/-- Three calls: two of the moderator, and one of the mover. -/
inductive Collusion where
  | making
  | giving
  | passing
  deriving DecidableEq

/-- The moderator makes a role that mutes and gives it to the mover, who cannot give it on. -/
def collusion : Collusion → RoleOperation
  | .making => ⟨⟨1⟩, ⟨2⟩, .create ⟨9⟩ { name := "muters", color := none, position := none, permissions := [.muteMembers] }⟩
  | .giving => ⟨⟨1⟩, ⟨2⟩, .assign ⟨3⟩ ⟨9⟩⟩
  | .passing => ⟨⟨1⟩, ⟨3⟩, .assign ⟨4⟩ ⟨9⟩⟩

/-- The first two calls take turns, and the last one begins once they are through. -/
def collusionTurns : List (Event Collusion Timestamp) :=
  [.turn .making, .turn .giving, .turn .making, .turn .giving, .turn .making, .turn .giving, .turn .making, .turn .giving,
    .turn .making, .turn .giving, .turn .giving, .turn .giving, .turn .giving, .turn .passing, .turn .passing,
    .turn .passing, .turn .passing]

theorem no_escalation_moderated :
    (holds moderated ⟨1⟩ ⟨3⟩ .muteMembers = false ∧
      holds (run roleStep (beginRoles moderated collusion) collusionTurns).store ⟨1⟩ ⟨3⟩ .muteMembers = true) ∧
    Always roleStep (fun σ =>
      combined σ.store ⟨1⟩ {⟨2⟩, ⟨3⟩} ⊆ combined moderated ⟨1⟩ {⟨2⟩, ⟨3⟩} ∧
        ∀ m p, holds σ.store ⟨1⟩ m p = true → holds moderated ⟨1⟩ m p = true ∨ p ∈ combined moderated ⟨1⟩ {⟨2⟩, ⟨3⟩})
      (beginRoles moderated collusion) collusionTurns := by
  refine ⟨by decide +kernel, no_escalation collusion collusionTurns ⟨by decide +kernel, by decide +kernel⟩ ?_ ?_⟩
  · intro i
    cases i <;> simp [collusion]
  · rintro s (rfl | rfl) <;> decide +kernel

end Genzh.Community
