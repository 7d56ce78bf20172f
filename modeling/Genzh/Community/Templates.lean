/-
The roles a community starts with. A template's own roles are folded into the starter ladder above
`Presenter` and below the staff, and the whole list is renumbered from zero: position is hierarchy, and
the guards of `Community.Roles` compare it.
-/
import Genzh.Community.Service
import Genzh.Domain.Text

namespace Genzh.Community

open Genzh.Lib Genzh.Domain Genzh.Infrastructure

/-! ## The starter ladder -/

/-- The implicit role every member carries. -/
def everyoneRole : RoleTemplate where
  name := "@everyone"
  color := none
  position := 0
  isDefault := true
  permissions := PermissionSet.defaultMember

def presenterRole : RoleTemplate where
  name := "Presenter"
  color := some "#2fe6a7"
  position := 1
  isDefault := false
  permissions := PermissionSet.defaultMember ||| Permission.screenShare.bit ||| Permission.stream.bit

def moderatorRole : RoleTemplate where
  name := "Moderator"
  color := some "#06b6d4"
  position := 2
  isDefault := false
  permissions := PermissionSet.defaultMember ||| Permission.screenShare.bit ||| Permission.muteMembers.bit |||
    Permission.moveMembers.bit ||| Permission.manageRoom.bit

def adminRole : RoleTemplate where
  name := "Admin"
  color := some "#8b5cf6"
  position := 3
  isDefault := false
  permissions := PermissionSet.administrator

/-- The roles every new community starts with. -/
def starterRoles : List RoleTemplate := [everyoneRole, presenterRole, moderatorRole, adminRole]

/-- A starting shape for a whole community: its channels, and the roles it adds to the starter ladder. -/
structure CommunityTemplate where
  rooms : List RoomTemplate
  extraRoles : List RoleTemplate
  deriving DecidableEq, Repr

/-- Staff is everything ranked above `Presenter` in the starter ladder. -/
def staffFloor : Int := 2

/-- A role at an index of the list: `index as i32`. -/
def RoleTemplate.placed (role : RoleTemplate) (index : Nat) : RoleTemplate :=
  { role with position := (Int32.ofNat index).toInt }

/-- The full role list a community built from the template starts with. -/
def rolesForTemplate (template : CommunityTemplate) : List RoleTemplate :=
  let split := starterRoles.partition fun role => staffFloor ≤ role.position
  (split.2 ++ template.extraRoles ++ split.1).zipIdx.map fun entry => entry.1.placed entry.2

/-- Create a community from a template: an id is minted for each of its roles and channels. -/
def createFromTemplate (id : CommunityId) (ownerId : UserId) (template : CommunityTemplate) (roleIds : List RoleId)
    (roomIds : List RoomId) : SqlM Unit :=
  createCommunity id ownerId (roleIds.zip (rolesForTemplate template)) (roomIds.zip template.rooms)

/-! ## What a ladder is -/

/-- A role apart from where it stands. -/
def RoleTemplate.unplaced (role : RoleTemplate) : RoleTemplate := { role with position := 0 }

/-- The roles of a community with these extras, ranked as the hierarchy checks expect. -/
structure Laddered (extras roles : List RoleTemplate) : Prop where
  bottom : ∃ role, roles.head? = some role ∧ role.isDefault = true ∧ role.position = 0
  default : ∀ role ∈ roles, role.isDefault = true ↔ role.position = 0
  numbered : roles.map (·.position) = (List.range roles.length).map Int.ofNat
  increasing : (roles.map (·.position)).Pairwise (· < ·)
  whole : (roles.map RoleTemplate.unplaced).Perm ((starterRoles ++ extras).map RoleTemplate.unplaced)
  between : ∃ everyone presenter placed moderator admin,
    roles = everyone :: presenter :: (placed ++ [moderator, admin]) ∧ presenter.name = "Presenter" ∧
      moderator.name = "Moderator" ∧ admin.name = "Admin" ∧
      placed.map RoleTemplate.unplaced = extras.map RoleTemplate.unplaced ∧
      ∀ role ∈ placed, presenter.position < role.position ∧ role.position < moderator.position ∧
        role.position < admin.position

/-! ## Renumbering -/

/-- The roles in this order, numbered from an index on. -/
def renumber (start : Nat) (roles : List RoleTemplate) : List RoleTemplate :=
  (roles.zipIdx start).map fun entry => entry.1.placed entry.2

@[simp] theorem renumber_nil (start : Nat) : renumber start [] = [] := rfl

@[simp] theorem renumber_cons (start : Nat) (role : RoleTemplate) (roles : List RoleTemplate) :
    renumber start (role :: roles) = role.placed start :: renumber (start + 1) roles := rfl

theorem renumber_append (start : Nat) (roles others : List RoleTemplate) :
    renumber start (roles ++ others) = renumber start roles ++ renumber (start + roles.length) others := by
  unfold renumber
  rw [List.zipIdx_append, List.map_append]

@[simp] theorem length_renumber (start : Nat) (roles : List RoleTemplate) :
    (renumber start roles).length = roles.length := by
  simp [renumber]

theorem placed_position {role : RoleTemplate} {index : Nat} (h : index < 2 ^ 31) : (role.placed index).position = index :=
  Int32.toInt_ofNat_of_lt h

/-- Renumbering changes where the roles stand and nothing else. -/
theorem unplaced_renumber (start : Nat) (roles : List RoleTemplate) :
    (renumber start roles).map RoleTemplate.unplaced = roles.map RoleTemplate.unplaced := by
  induction roles generalizing start with
  | nil => rfl
  | cons role roles ih =>
    rw [renumber_cons, List.map_cons, List.map_cons, ih]
    rfl

theorem isDefault_renumber {start : Nat} {roles : List RoleTemplate} (h : ∀ role ∈ roles, role.isDefault = false) :
    ∀ role ∈ renumber start roles, role.isDefault = false := by
  intro role hrole
  obtain ⟨entry, hentry, rfl⟩ := List.mem_map.1 hrole
  exact h entry.1 (List.fst_mem_of_mem_zipIdx hentry)

/-- As long as the indices fit, the positions are the indices. -/
theorem positions_renumber {start : Nat} {roles : List RoleTemplate} (h : start + roles.length ≤ 2 ^ 31) :
    (renumber start roles).map (·.position) = (List.range' start roles.length).map Int.ofNat := by
  induction roles generalizing start with
  | nil => rfl
  | cons role roles ih =>
    rw [List.length_cons] at h
    rw [renumber_cons, List.map_cons, List.length_cons, List.range'_succ, List.map_cons, placed_position (by omega),
      ih (by omega)]
    rfl

theorem mem_renumber_position {start : Nat} {roles : List RoleTemplate} (h : start + roles.length ≤ 2 ^ 31)
    {role : RoleTemplate} (hrole : role ∈ renumber start roles) :
    (start : Int) ≤ role.position ∧ role.position < (start + roles.length : Nat) := by
  have hmem : role.position ∈ (List.range' start roles.length).map Int.ofNat :=
    positions_renumber h ▸ List.mem_map_of_mem (f := (·.position)) hrole
  obtain ⟨index, hindex, heq⟩ := List.mem_map.1 hmem
  rw [List.mem_range'_1] at hindex
  rw [← heq]
  constructor
  · exact Int.ofNat_le.2 hindex.1
  · exact Int.ofNat_lt.2 hindex.2

/-- The indices are strictly increasing, whatever integers they are read as. -/
theorem pairwise_ofNat_range' (start length : Nat) : ((List.range' start length).map Int.ofNat).Pairwise (· < ·) := by
  rw [List.pairwise_map]
  exact (List.pairwise_lt_range').imp fun h => Int.ofNat_lt.2 h

/-! ## The ladder of a template -/

theorem rolesForTemplate_eq_renumber (template : CommunityTemplate) :
    rolesForTemplate template =
      renumber 0 ([everyoneRole, presenterRole] ++ template.extraRoles ++ [moderatorRole, adminRole]) := by
  have hsplit : (starterRoles.partition fun role => decide (staffFloor ≤ role.position)) =
      ([moderatorRole, adminRole], [everyoneRole, presenterRole]) := rfl
  unfold rolesForTemplate renumber
  rw [hsplit]

/-- The starter ladder, opened between `Presenter` and the staff. -/
theorem rolesForTemplate_eq (template : CommunityTemplate) :
    rolesForTemplate template =
      everyoneRole.placed 0 :: presenterRole.placed 1 :: (renumber 2 template.extraRoles ++
        [moderatorRole.placed (2 + template.extraRoles.length),
          adminRole.placed (2 + template.extraRoles.length + 1)]) := by
  rw [rolesForTemplate_eq_renumber, List.append_assoc, List.cons_append, List.cons_append, List.nil_append,
    renumber_cons, renumber_cons, renumber_append, renumber_cons, renumber_cons, renumber_nil]

theorem length_rolesForTemplate (template : CommunityTemplate) :
    (rolesForTemplate template).length = template.extraRoles.length + 4 := by
  rw [rolesForTemplate_eq]
  simp

theorem positions_rolesForTemplate {template : CommunityTemplate} (hlength : template.extraRoles.length + 4 ≤ 2 ^ 31) :
    (rolesForTemplate template).map (·.position) =
      (List.range (rolesForTemplate template).length).map Int.ofNat := by
  rw [rolesForTemplate_eq_renumber, length_renumber, List.range_eq_range']
  refine positions_renumber ?_
  simp only [List.length_append, List.length_cons, List.length_nil]
  omega

/-- Nothing is lost and nothing is doubled, however many roles there are. -/
theorem rolesForTemplate_perm (template : CommunityTemplate) :
    ((rolesForTemplate template).map RoleTemplate.unplaced).Perm
      ((starterRoles ++ template.extraRoles).map RoleTemplate.unplaced) := by
  rw [rolesForTemplate_eq_renumber, unplaced_renumber]
  refine List.Perm.map _ ?_
  have hstarters : starterRoles = [everyoneRole, presenterRole] ++ [moderatorRole, adminRole] := rfl
  rw [hstarters, List.append_assoc, List.append_assoc]
  exact List.Perm.append_left _ List.perm_append_comm

/-- A default role stands at the bottom, and nothing else does. -/
theorem isDefault_iff_bottom {template : CommunityTemplate} (hextras : ∀ role ∈ template.extraRoles, role.isDefault = false)
    (hlength : template.extraRoles.length + 4 ≤ 2 ^ 31) :
    ∀ role ∈ rolesForTemplate template, role.isDefault = true ↔ role.position = 0 := by
  have habove : ∀ role ∈ [presenterRole] ++ template.extraRoles ++ [moderatorRole, adminRole],
      role.isDefault = false := by
    intro role hrole
    simp only [List.mem_append, List.mem_cons, List.not_mem_nil, or_false] at hrole
    rcases hrole with (rfl | hrole) | rfl | rfl
    · rfl
    · exact hextras role hrole
    · rfl
    · rfl
  intro role hrole
  rw [rolesForTemplate_eq_renumber, List.append_assoc, List.cons_append, renumber_cons, ← List.append_assoc] at hrole
  rcases List.mem_cons.1 hrole with rfl | hrole
  · exact iff_of_true rfl (placed_position (by omega))
  · have hfits : 0 + 1 + ([presenterRole] ++ template.extraRoles ++ [moderatorRole, adminRole]).length ≤ 2 ^ 31 := by
      simp only [List.length_append, List.length_cons, List.length_nil]
      omega
    have hposition := (mem_renumber_position hfits hrole).1
    refine iff_of_false ?_ (by omega)
    rw [isDefault_renumber habove role hrole]
    exact Bool.false_ne_true

/-- The extras stand in their order above `Presenter` and below the staff. -/
theorem extras_between {template : CommunityTemplate} (hlength : template.extraRoles.length + 4 ≤ 2 ^ 31) :
    ∀ role ∈ renumber 2 template.extraRoles, (presenterRole.placed 1).position < role.position ∧
      role.position < (moderatorRole.placed (2 + template.extraRoles.length)).position ∧
      role.position < (adminRole.placed (2 + template.extraRoles.length + 1)).position := by
  intro role hrole
  obtain ⟨hlow, hhigh⟩ := mem_renumber_position (by omega) hrole
  rw [placed_position (by omega), placed_position (by omega), placed_position (by omega)]
  omega

/-- A ladder has no more roles than there are positions for them. -/
theorem Laddered.length_le {extras roles : List RoleTemplate} (hlimit : ∀ role ∈ roles, role.position < 2 ^ 31)
    (h : Laddered extras roles) : extras.length + 4 ≤ 2 ^ 31 := by
  have hlength : roles.length = extras.length + 4 := by
    have hperm := h.whole.length_eq
    rw [List.length_map, List.length_map, List.length_append] at hperm
    rw [hperm, Nat.add_comm]
    rfl
  -- the last position is the number of roles less one, and it is an `i32`
  have hlast : Int.ofNat (extras.length + 3) ∈ roles.map (·.position) := by
    rw [h.numbered]
    exact List.mem_map_of_mem (List.mem_range.2 (by omega))
  obtain ⟨role, hrole, hposition⟩ := List.mem_map.1 hlast
  have hlt := hlimit role hrole
  rw [hposition, Int.ofNat_eq_natCast] at hlt
  omega

theorem position_lt (template : CommunityTemplate) : ∀ role ∈ rolesForTemplate template, role.position < 2 ^ 31 := by
  intro role hrole
  obtain ⟨entry, -, rfl⟩ := List.mem_map.1 hrole
  exact (Int32.ofNat entry.2).toInt_lt

/-- The roles of a template are ranked as the hierarchy checks expect exactly if there are positions for all of them. -/
theorem laddered_rolesForTemplate_iff (template : CommunityTemplate)
    (hextras : ∀ role ∈ template.extraRoles, role.isDefault = false) :
    Laddered template.extraRoles (rolesForTemplate template) ↔ template.extraRoles.length + 4 ≤ 2 ^ 31 := by
  constructor
  · exact Laddered.length_le (position_lt template)
  · intro hlength
    have hnumbered := positions_rolesForTemplate hlength
    refine ⟨⟨everyoneRole.placed 0, ?_, rfl, rfl⟩, isDefault_iff_bottom hextras hlength, hnumbered, ?_,
      rolesForTemplate_perm template, ?_⟩
    · rw [rolesForTemplate_eq]
      rfl
    · rw [hnumbered, List.range_eq_range']
      exact pairwise_ofNat_range' 0 _
    · exact ⟨_, _, _, _, _, rolesForTemplate_eq template, rfl, rfl, rfl, unplaced_renumber 2 _,
        extras_between hlength⟩

/-- The role the gaming template adds. -/
def squadLeader : RoleTemplate where
  name := "Squad Leader"
  color := some "#f59e0b"
  position := 0
  isDefault := false
  permissions := PermissionSet.defaultMember ||| Permission.screenShare.bit ||| Permission.stream.bit |||
    Permission.moveMembers.bit

theorem laddered_squadLeader : Laddered [squadLeader] (rolesForTemplate { rooms := [], extraRoles := [squadLeader] }) :=
  (laddered_rolesForTemplate_iff { rooms := [], extraRoles := [squadLeader] } (by simp [squadLeader])).2 (by decide)

/-- With one role more than there are positions, `index as i32` wraps and `Admin` ends below everyone. -/
theorem not_laddered_of_too_many :
    ¬∀ template : CommunityTemplate, (∀ role ∈ template.extraRoles, role.isDefault = false) →
      Laddered template.extraRoles (rolesForTemplate template) := by
  intro h
  have hextras : ∀ role ∈ List.replicate (2 ^ 31 - 3) squadLeader, role.isDefault = false := by
    intro role hrole
    rw [List.eq_of_mem_replicate hrole]
    rfl
  have hladdered := h { rooms := [], extraRoles := List.replicate (2 ^ 31 - 3) squadLeader } hextras
  have hlength := hladdered.length_le (position_lt _)
  rw [List.length_replicate] at hlength
  exact absurd hlength (by decide)

end Genzh.Community

namespace Genzh.Community

open Genzh.Lib Genzh.Domain Genzh.Infrastructure

/-! ## The catalogue

The templates a community can be created from. They are a fixed list under stable keys: the key a caller names is looked
up, and one that is not there is refused rather than replaced by the default. What a template builds is one transaction:
its roles, ranked, its channels, and the membership of the owner.
-/

/-! ## The templates -/

/-- The role a template adds for its trusted members: everything a member can do, the two publishing rights, and one more. -/
def trustedRole (name color : String) (p : Permission) : RoleTemplate where
  name := name
  color := some color
  position := 0
  isDefault := false
  permissions := PermissionSet.defaultMember ||| Permission.screenShare.bit ||| Permission.stream.bit ||| p.bit

/-- The key used when a caller names no template. -/
def defaultTemplateKey : String := "general"

/-- A community with no channels at all. -/
def blankTemplateKey : String := "blank"

/-- Every template a community can be created from, under its key. -/
def communityTemplates : List (String × CommunityTemplate) :=
  [(blankTemplateKey, { rooms := [], extraRoles := [] }),
    (defaultTemplateKey, {
      rooms := [⟨"general", some "Welcome to your new server!", .text, 0⟩, ⟨"General Voice", none, .voice, 1⟩]
      extraRoles := [] }),
    ("gaming", {
      rooms := [⟨"general", some "Talk about anything.", .text, 0⟩, ⟨"clips", some "Post your best plays.", .text, 1⟩,
        ⟨"looking-for-group", some "Find people to queue with.", .text, 2⟩, ⟨"Squad Voice", none, .voice, 3⟩,
        ⟨"Game Night", some "Party games, whenever enough people show up.", .game, 4⟩]
      extraRoles := [trustedRole "Squad Leader" "#f59e0b" .moveMembers] }),
    ("friends", {
      rooms := [⟨"general", some "Talk about anything.", .text, 0⟩, ⟨"memes", some "The good stuff.", .text, 1⟩,
        ⟨"Hangout Voice", none, .voice, 2⟩, ⟨"Confessions", some "Anonymous by design.", .confession, 3⟩]
      extraRoles := [trustedRole "Host" "#ec4899" .moveMembers] }),
    ("tech", {
      rooms := [⟨"general", some "Talk about anything.", .text, 0⟩, ⟨"showcase", some "Show what you are building.", .text, 1⟩,
        ⟨"help", some "Stuck on something? Ask here.", .text, 2⟩, ⟨"Pair Programming", none, .voice, 3⟩,
        ⟨"Standup", some "One speaker, everyone else listening.", .stage, 4⟩]
      extraRoles := [trustedRole "Maintainer" "#38bdf8" .manageRoom] }),
    ("study", {
      rooms := [⟨"general", some "Talk about anything.", .text, 0⟩,
        ⟨"homework-help", some "Ask, and show your working.", .text, 1⟩,
        ⟨"resources", some "Notes, links, and past papers.", .text, 2⟩, ⟨"Study Room", none, .voice, 3⟩,
        ⟨"Focus Sessions", some "Work alongside other people, quietly.", .activity, 4⟩]
      extraRoles := [trustedRole "Tutor" "#22c55e" .muteMembers] }),
    ("creative", {
      rooms := [⟨"general", some "Talk about anything.", .text, 0⟩, ⟨"showcase", some "Finished work goes here.", .text, 1⟩,
        ⟨"feedback", some "Works in progress, and honest notes on them.", .text, 2⟩, ⟨"Studio Voice", none, .voice, 3⟩,
        ⟨"Critique Stage", some "One piece at a time, in front of everyone.", .stage, 4⟩]
      extraRoles := [trustedRole "Curator" "#a78bfa" .manageRoom] })]

/-- Look a template up by key. -/
def communityTemplate (key : String) : Option CommunityTemplate :=
  (communityTemplates.find? fun entry => entry.1 = key).map Prod.snd

/-! ## Creating from a template -/

def communityNameMaxLen : Nat := 64

/-- Validate a community name. -/
def validateCommunityName (raw : String) : Except DomainError String :=
  let name := trim raw
  if name.isEmpty || communityNameMaxLen < name.length then
    .error (.invalid "name" s!"must be between 1 and {communityNameMaxLen} characters")
  else .ok name

/-- Input for creating a community. -/
structure CreateCommunity where
  name : String
  /-- Which starting shape to build. `none` means the default template. -/
  template : Option String
  deriving DecidableEq, Repr

/-- The template a creation names, or the default one where it names none. -/
def CreateCommunity.chosen (input : CreateCommunity) : Except ServiceError CommunityTemplate :=
  let key := input.template.getD defaultTemplateKey
  match communityTemplate key with
  | some template => .ok template
  | none => .error (.invalid "template" s!"`{key}` is not a community template")

/-- The identifiers a creation draws: one for the community, and one for each role and each channel. -/
structure CommunityDraw where
  id : CommunityId
  roleIds : Nat → RoleId
  roomIds : Nat → RoomId

/-- Create a community, owned by `ownerId`. -/
def CommunityService.create (ownerId : UserId) (input : CreateCommunity) (draw : CommunityDraw) : SqlM Unit := do
  let _ ← Prog.lift (liftDomain (validateCommunityName input.name))
  let template ← Prog.lift input.chosen
  createFromTemplate draw.id ownerId template
    ((List.range (rolesForTemplate template).length).map draw.roleIds)
    ((List.range template.rooms.length).map draw.roomIds)

/-! ## What every template keeps to -/

theorem mem_communityTemplates {key : String} {template : CommunityTemplate} (h : communityTemplate key = some template) :
    (key, template) ∈ communityTemplates := by
  obtain ⟨entry, hentry, rfl⟩ := Option.map_eq_some_iff.1 h
  have hkey : entry.1 = key := by simpa using List.find?_some hentry
  rw [← hkey]
  exact List.mem_of_find?_eq_some hentry

/-- No template adds a default role, and none adds more than one. -/
theorem extras_of_template {key : String} {template : CommunityTemplate} (h : communityTemplate key = some template) :
    (∀ role ∈ template.extraRoles, role.isDefault = false) ∧ template.extraRoles.length ≤ 1 := by
  have hall : ∀ entry ∈ communityTemplates,
      (∀ role ∈ entry.2.extraRoles, role.isDefault = false) ∧ entry.2.extraRoles.length ≤ 1 := by decide
  exact hall _ (mem_communityTemplates h)

/-- The names of the roles of a template differ. -/
theorem names_of_template {key : String} {template : CommunityTemplate} (h : communityTemplate key = some template) :
    ((rolesForTemplate template).map (·.name)).Nodup := by
  have hall : ∀ entry ∈ communityTemplates, ((rolesForTemplate entry.2).map (·.name)).Nodup := by decide
  exact hall _ (mem_communityTemplates h)

/-- The one default role of a template is the first, and it is the role of everyone. -/
theorem default_of_template {key : String} {template : CommunityTemplate} (h : communityTemplate key = some template) :
    ∃ others, rolesForTemplate template = everyoneRole :: others ∧ ∀ role ∈ others, role.isDefault = false := by
  obtain ⟨hextras, -⟩ := extras_of_template h
  refine ⟨_, rolesForTemplate_eq template, ?_⟩
  intro role hrole
  simp only [List.mem_cons, List.mem_append, List.not_mem_nil, or_false] at hrole
  rcases hrole with rfl | hrole | rfl | rfl
  · rfl
  · exact isDefault_renumber hextras role hrole
  · rfl
  · rfl

end Genzh.Community
