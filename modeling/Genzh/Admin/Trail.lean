/-
The trail that the console leaves. What an administrator does is written to a table and then recorded in the audit log; no
call changes or reads what was recorded, and a record that cannot be written is lost without the call failing.

`trail_tells`: replaying what was done over the tables there were gives the tables there are, and the log has grown by all of
it, or by what is left of it where records were lost.
-/
import Genzh.Lib.Journal
import Genzh.Admin.Bulk
import Genzh.Community.Service
import Genzh.Recommend.Quarantine

namespace Genzh.Admin.Trail

open Genzh.Lib Genzh.Domain Genzh.Infrastructure

/-! ## Records -/

/-- What was done. The log keeps its key. -/
inductive AuditAction where
  | userRegistered
  | userLogin
  | userLogout
  | userProfileUpdated
  | userSuspended
  | userReinstated
  | platformRoleChanged
  | userSessionsRevoked
  | userProfileStaffEdited
  | communityCreated
  | communityUpdated
  | communityRemoved
  | communityQuarantined
  | communityUnquarantined
  | communityMemberJoined
  | communityMemberRemoved
  | communityRoleCreated
  | communityRoleUpdated
  | communityRoleAssigned
  | communityRoleRevoked
  | communityInviteCreated
  | communityInviteRevoked
  | roomCreated
  | roomUpdated
  | roomRemoved
  | roomJoined
  | roomLeft
  | callStarted
  | callEnded
  | messageCreated
  | messageEdited
  | messageRemoved
  | messagePinned
  | messageUnpinned
  | ticketOpened
  | ticketAssigned
  | ticketStatusChanged
  | ticketReplied
  | friendRequested
  | friendResponded
  | friendRemoved
  | userBlocked
  | userUnblocked
  | userOAuthLogin
  | communityInviteRedeemed
  | roomPersonaChanged
  | mediaSessionJoined
  | mediaSessionLeft
  | mediaSessionForceEnded
  | broadcastCreated
  | broadcastDismissed
  | featureFlagUpdated
  | ipBanned
  | ipUnbanned
  | emailDomainBlocked
  | emailDomainUnblocked
  | automodRuleCreated
  | automodRuleRemoved
  | systemJobTriggered
  | storeItemCreated
  | storeItemUpdated
  | storeItemRemoved
  | pointsGranted
  | itemGranted
  deriving DecidableEq

def AuditAction.key : AuditAction → String
  | userRegistered => "user.registered"
  | userLogin => "user.login"
  | userLogout => "user.logout"
  | userProfileUpdated => "user.profile_updated"
  | userSuspended => "user.suspended"
  | userReinstated => "user.reinstated"
  | platformRoleChanged => "user.platform_role_changed"
  | userSessionsRevoked => "user.sessions_revoked"
  | userProfileStaffEdited => "user.profile_staff_edited"
  | communityCreated => "community.created"
  | communityUpdated => "community.updated"
  | communityRemoved => "community.removed"
  | communityQuarantined => "community.quarantined"
  | communityUnquarantined => "community.unquarantined"
  | communityMemberJoined => "community.member_joined"
  | communityMemberRemoved => "community.member_removed"
  | communityRoleCreated => "community.role_created"
  | communityRoleUpdated => "community.role_updated"
  | communityRoleAssigned => "community.role_assigned"
  | communityRoleRevoked => "community.role_revoked"
  | communityInviteCreated => "community.invite_created"
  | communityInviteRevoked => "community.invite_revoked"
  | roomCreated => "room.created"
  | roomUpdated => "room.updated"
  | roomRemoved => "room.removed"
  | roomJoined => "room.joined"
  | roomLeft => "room.left"
  | callStarted => "call.started"
  | callEnded => "call.ended"
  | messageCreated => "message.created"
  | messageEdited => "message.edited"
  | messageRemoved => "message.removed"
  | messagePinned => "message.pinned"
  | messageUnpinned => "message.unpinned"
  | ticketOpened => "ticket.opened"
  | ticketAssigned => "ticket.assigned"
  | ticketStatusChanged => "ticket.status_changed"
  | ticketReplied => "ticket.replied"
  | friendRequested => "friend.requested"
  | friendResponded => "friend.responded"
  | friendRemoved => "friend.removed"
  | userBlocked => "user.blocked"
  | userUnblocked => "user.unblocked"
  | userOAuthLogin => "user.oauth_login"
  | communityInviteRedeemed => "community.invite_redeemed"
  | roomPersonaChanged => "room.persona_changed"
  | mediaSessionJoined => "media.session_joined"
  | mediaSessionLeft => "media.session_left"
  | mediaSessionForceEnded => "media.force_ended"
  | broadcastCreated => "broadcast.created"
  | broadcastDismissed => "broadcast.dismissed"
  | featureFlagUpdated => "settings.feature_flag_updated"
  | ipBanned => "security.ip_banned"
  | ipUnbanned => "security.ip_unbanned"
  | emailDomainBlocked => "security.email_domain_blocked"
  | emailDomainUnblocked => "security.email_domain_unblocked"
  | automodRuleCreated => "automod.rule_created"
  | automodRuleRemoved => "automod.rule_removed"
  | systemJobTriggered => "system.job_triggered"
  | storeItemCreated => "store.item_created"
  | storeItemUpdated => "store.item_updated"
  | storeItemRemoved => "store.item_removed"
  | pointsGranted => "economy.points_granted"
  | itemGranted => "economy.item_granted"

def roleKey : PlatformRole → String
  | .user => "user"
  | .support => "support"
  | .admin => "admin"

/-- `PlatformRole::from_str` -/
def roleFromStr : String → Option PlatformRole
  | "user" => some .user
  | "support" => some .support
  | "admin" => some .admin
  | _ => none

theorem roleFromStr_key (role : PlatformRole) : roleFromStr (roleKey role) = some role := by cases role <;> rfl

/-- A value of a record's metadata: a text, or a setting's own JSON value. -/
inductive Detail (J : Type) where
  | text (s : String)
  | value (j : J)

/-- What to record about one action. -/
structure AuditRecord (J : Type) where
  actorId : Option UserId
  actorHandle : Option String
  action : AuditAction
  subjectType : Option String
  subjectId : Option Uuid
  summary : String
  metadata : List (String × Detail J)

namespace AuditRecord

variable {J : Type}

/-- A record with nothing but the essentials. -/
def new (actor : Option UserId) (action : AuditAction) (summary : String) : AuditRecord J where
  actorId := actor
  actorHandle := none
  action := action
  subjectType := none
  subjectId := none
  summary := summary
  metadata := []

/-- Name the actor, so the entry still reads after their account is gone. -/
def by_ (entry : AuditRecord J) (handle : String) : AuditRecord J := { entry with actorHandle := some handle }

/-- What was acted on. -/
def about (entry : AuditRecord J) (subjectType : String) (subjectId : Uuid) : AuditRecord J :=
  { entry with subjectType := some subjectType, subjectId := some subjectId }

/-- What category was acted on when there is no id. -/
def aboutType (entry : AuditRecord J) (subjectType : String) : AuditRecord J := { entry with subjectType := some subjectType }

def with_ (entry : AuditRecord J) (metadata : List (String × Detail J)) : AuditRecord J := { entry with metadata }

/-- The text under a name. -/
def text (entry : AuditRecord J) (field : String) : Option String :=
  (entry.metadata.lookup field).bind fun d => match d with
    | .text s => some s
    | .value _ => none

/-- The JSON value under a name. -/
def value (entry : AuditRecord J) (field : String) : Option J :=
  (entry.metadata.lookup field).bind fun d => match d with
    | .text _ => none
    | .value j => some j

end AuditRecord

/-! ## The tables -/

structure SystemBroadcast where
  id : Uuid
  title : String
  message : String
  level : String
  isActive : Bool
  createdBy : Option UserId
  createdAt : Timestamp
  expiresAt : Option Timestamp
  deriving DecidableEq, Repr

structure SystemSetting (J : Type) where
  key : String
  value : J
  updatedAt : Timestamp
  updatedBy : Option UserId

structure IpBan where
  id : Uuid
  ipOrCidr : String
  reason : String
  bannedBy : Option UserId
  createdAt : Timestamp
  expiresAt : Option Timestamp
  deriving DecidableEq, Repr

structure BlockedEmailDomain where
  domain : String
  reason : Option String
  createdBy : Option UserId
  createdAt : Timestamp
  deriving DecidableEq, Repr

structure AutomodRule where
  id : Uuid
  name : String
  pattern : String
  isRegex : Bool
  action : String
  isActive : Bool
  createdBy : Option UserId
  createdAt : Timestamp
  deriving DecidableEq, Repr

instance : HasKey SystemBroadcast Uuid := ⟨SystemBroadcast.id⟩
instance {J : Type} : HasKey (SystemSetting J) String := ⟨SystemSetting.key⟩
instance : HasKey IpBan String := ⟨IpBan.ipOrCidr⟩
instance : HasKey BlockedEmailDomain String := ⟨BlockedEmailDomain.domain⟩
instance : HasKey AutomodRule Uuid := ⟨AutomodRule.id⟩

/-- The database as the console writes it. Of two bans of one address there is one, `ip_bans_ip_or_cidr_key`. -/
structure TrailDb (J : Type) extends Db where
  communityName : CommunityId → String
  systemBroadcasts : Table SystemBroadcast
  systemSettings : Table (SystemSetting J)
  ipBans : Table IpBan
  blockedEmailDomains : Table BlockedEmailDomain
  automodRules : Table AutomodRule
  auditLog : List (AuditRecord J)

abbrev TrailM (J : Type) := Prog (TrailDb J) ServiceError

/-- A call of a service that knows only the other tables. -/
def onDb {J α : Type} (m : SqlM α) : TrailM J α := fun s =>
  let (outcome, db) := m.exec s.toDb
  (outcome, { s with toDb := db })

/-! ## The calls -/

section Calls

variable {J : Type} (written : Option Uuid → Bool) (toLowercase : String → String)

/-- Append without letting a logging failure fail the action. -/
def recordBestEffort (entry : AuditRecord J) : TrailM J Unit :=
  Prog.modify fun s => if written entry.subjectId then { s with auditLog := s.auditLog ++ [entry] } else s

/-- An action, and its record. -/
def commit (write : TrailDb J → TrailDb J) (entry : AuditRecord J) : TrailM J Unit := do
  Prog.modify write
  recordBestEffort written entry

/-- Who acts: an administrator, under the handle they have. -/
structure Administrator where
  userId : UserId
  handle : String

variable (admin : Administrator)

/-- A record of what the administrator did. -/
def did (action : AuditAction) (summary : String) : AuditRecord J := (AuditRecord.new (some admin.userId) action summary).by_ admin.handle

def suspend (target : UserId) (reason : String) : TrailM J User := do
  Prog.ensure (admin.userId ≠ target) (.denied "suspend_self")
  let subject ← onDb (findUser target)
  Prog.ensure (!subject.platformRole.isAdmin) (.denied "suspend_admin")
  commit written (fun s => { s with toDb := suspended target reason s.toDb })
    (((did admin .userSuspended s!"suspended @{subject.handle}").about "user" target.uuid).with_ [("reason", .text reason)])
  onDb (findUser target)

def reinstate (target : UserId) : TrailM J User := do
  let subject ← onDb (findUser target)
  commit written (fun s => { s with toDb := reinstated target s.toDb })
    ((did admin .userReinstated s!"reinstated @{subject.handle}").about "user" target.uuid)
  onDb (findUser target)

/-- Apply `action` to each target, collecting outcomes rather than stopping. -/
def each (targets : List UserId) (action : UserId → TrailM J User) : TrailM J BulkReport := do
  Prog.ensure (!targets.isEmpty) (.invalid "targets" "select at least one account")
  Prog.ensure (targets.length ≤ maxBulkTargets) (.invalid "targets" s!"at most {maxBulkTargets} accounts at a time")
  let results ← Prog.collect action targets
  pure (BulkReport.fromOutcomes (results.map fun r => BulkOutcome.of r.1 r.2))

def suspendMany (targets : List UserId) (reason : String) : TrailM J BulkReport :=
  each targets fun target => suspend written admin target reason

def reinstateMany (targets : List UserId) : TrailM J BulkReport := each targets fun target => reinstate written admin target

def setPlatformRole (target : UserId) (role : PlatformRole) : TrailM J User := do
  Prog.ensure (admin.userId ≠ target) (.denied "change_own_platform_role")
  let subject ← onDb (findUser target)
  commit written (fun s => { s with toDb := withRole target role s.toDb })
    (((did admin .platformRoleChanged s!"changed @{subject.handle} from {roleKey subject.platformRole} to {roleKey role}").about "user"
      target.uuid).with_ [("from", .text (roleKey subject.platformRole)), ("to", .text (roleKey role))])
  onDb (findUser target)

theorem key_flagged (isQuarantined : Bool) (row : Community) : key { row with isQuarantined } = key row := rfl

/-- `UPDATE communities SET is_quarantined`, `not_found` where there is no such row. -/
def flag (isQuarantined : Bool) (c : CommunityId) (s : TrailDb J) : TrailDb J :=
  { s with communities := s.communities.update c (fun row => { row with isQuarantined }) (key_flagged isQuarantined) }

def quarantine (c : CommunityId) (reason : String) : TrailM J Unit := do
  let reason := trim reason
  Prog.ensure (!reason.isEmpty) (.invalid "reason" "A reason is required to quarantine a community")
  let s ← Prog.read id
  Prog.ensure (s.communityExists c) (.notFound "community")
  commit written (flag true c)
    (((did admin .communityQuarantined s!"quarantined community '{s.communityName c}': {reason}").about "community" c.uuid).with_
      [("reason", .text reason), ("community_name", .text (s.communityName c))])

def unquarantine (c : CommunityId) : TrailM J Unit := do
  let s ← Prog.read id
  Prog.ensure (s.communityExists c) (.notFound "community")
  commit written (flag false c)
    (((did admin .communityUnquarantined s!"lifted quarantine from community '{s.communityName c}'").about "community" c.uuid).with_
      [("community_name", .text (s.communityName c))])

/-- Force delete a community violating platform policies. -/
def deleteCommunity (c : CommunityId) : TrailM J Unit := do
  let s ← Prog.read id
  Prog.ensure (s.communityExists c) (.notFound "community")
  commit written (fun s => { s with toDb := Community.deleteCommunityRow c s.toDb })
    (((did admin .communityRemoved s!"deleted community '{s.communityName c}' via moderation").about "community" c.uuid).with_
      [("community_name", .text (s.communityName c))])

structure NewBroadcast where
  title : String
  message : String
  level : Option String
  expiresAt : Option Timestamp

def createBroadcast (id : Uuid) (input : NewBroadcast) : TrailM J SystemBroadcast := do
  let title := trim input.title
  let message := trim input.message
  Prog.ensure (!(title.isEmpty || message.isEmpty)) (.invalid "title" "Broadcast title and message are required")
  let level := input.level.getD "info"
  let s ← Prog.read (fun s : TrailDb J => s)
  Prog.ensure (!s.systemBroadcasts.contains id) (.repository (.conflict "system_broadcasts_pkey"))
  let broadcast : SystemBroadcast :=
    { id, title, message, level, isActive := true, createdBy := some admin.userId, createdAt := s.now, expiresAt := input.expiresAt }
  commit written (fun s => { s with systemBroadcasts := s.systemBroadcasts.put broadcast })
    (((did admin .broadcastCreated s!"published system broadcast: '{title}'").about "broadcast" id).with_
      [("title", .text title), ("level", .text level)])
  pure broadcast

/-- Dismiss or deactivate a broadcast. -/
def dismiss (id : Uuid) : TrailM J Unit := do
  let broadcast ← Prog.query fun s => match s.systemBroadcasts.find id with
    | some broadcast => .ok broadcast
    | none => .error (.notFound "broadcast")
  commit written (fun s => { s with systemBroadcasts := s.systemBroadcasts.update id (fun b => { b with isActive := false }) fun _ => rfl })
    (((did admin .broadcastDismissed s!"dismissed system broadcast: '{broadcast.title}'").about "broadcast" id).with_
      [("title", .text broadcast.title)])

/-- Update a specific setting or feature flag. -/
def setSetting (showValue : J → String) (key : String) (value : J) : TrailM J (SystemSetting J) := do
  let now ← Prog.read fun s => s.now
  let setting : SystemSetting J := { key, value, updatedAt := now, updatedBy := some admin.userId }
  commit written (fun s => { s with systemSettings := s.systemSettings.put setting })
    (((did admin .featureFlagUpdated s!"updated feature flag '{key}' to {showValue value}").aboutType "setting").with_
      [("key", .text key), ("value", .value value)])
  pure setting

/-- Add an IP or CIDR block. A ban of an address that is banned already keeps its id; the record has the id drawn for it. -/
def banIp (id : Uuid) (ipOrCidr reason : String) (expiresAt : Option Timestamp) : TrailM J IpBan := do
  let ipOrCidr := trim ipOrCidr
  let reason := trim reason
  Prog.ensure (!(ipOrCidr.isEmpty || reason.isEmpty)) (.invalid "ip_or_cidr" "IP/CIDR address and ban reason are required")
  let row ← Prog.query fun s => match s.ipBans.find ipOrCidr with
    | some held => .ok { held with reason, expiresAt }
    | none =>
      if s.ipBans.rows.any fun ban => ban.id = id then .error (.repository (.conflict "ip_bans_pkey"))
      else .ok { id, ipOrCidr, reason, bannedBy := some admin.userId, createdAt := s.now, expiresAt }
  commit written (fun s => { s with ipBans := s.ipBans.put row })
    (((did admin .ipBanned s!"banned IP '{ipOrCidr}': {reason}").about "ip_ban" id).with_
      [("ip_or_cidr", .text ipOrCidr), ("reason", .text reason)])
  pure row

def unbanIp (id : Uuid) : TrailM J Unit := do
  let ban ← Prog.query fun s => match s.ipBans.rows.find? fun ban => ban.id = id with
    | some ban => .ok ban
    | none => .error (.notFound "ip_ban")
  commit written (fun s => { s with ipBans := s.ipBans.deleteWhere fun ban => ban.id = id })
    (((did admin .ipUnbanned s!"lifted ban for IP '{ban.ipOrCidr}'").about "ip_ban" id).with_ [("ip_or_cidr", .text ban.ipOrCidr)])

/-- `domain.trim().to_lowercase().replace('@', "")` -/
def cleanDomain (domain : String) : String := String.ofList ((toLowercase (trim domain)).toList.filter (· ≠ '@'))

def blockEmailDomain (domain : String) (reason : Option String) : TrailM J BlockedEmailDomain := do
  let domain := cleanDomain toLowercase domain
  Prog.ensure (!domain.isEmpty) (.invalid "domain" "Valid domain name required")
  let row ← Prog.read fun s => match s.blockedEmailDomains.find domain with
    | some held => { held with reason }
    | none => { domain, reason, createdBy := some admin.userId, createdAt := s.now }
  commit written (fun s => { s with blockedEmailDomains := s.blockedEmailDomains.put row })
    (((did admin .emailDomainBlocked s!"blocked disposable email domain '{domain}'").aboutType "email_domain").with_
      [("domain", .text domain)])
  pure row

/-- Unblock an email domain. It is recorded whether or not it was blocked. -/
def unblockEmailDomain (domain : String) : TrailM J Unit :=
  let domain := cleanDomain toLowercase domain
  commit written (fun s => { s with blockedEmailDomains := s.blockedEmailDomains.delete domain })
    (((did admin .emailDomainUnblocked s!"unblocked email domain '{domain}'").aboutType "email_domain").with_
      [("domain", .text domain)])

structure NewAutomodRule where
  name : String
  pattern : String
  isRegex : Bool := false
  action : String := "block"

def createRule (id : Uuid) (input : NewAutomodRule) : TrailM J AutomodRule := do
  let name := trim input.name
  let pattern := trim input.pattern
  Prog.ensure (!(name.isEmpty || pattern.isEmpty)) (.invalid "pattern" "Rule name and pattern are required")
  let s ← Prog.read (fun s : TrailDb J => s)
  Prog.ensure (!s.automodRules.contains id) (.repository (.conflict "automod_rules_pkey"))
  let rule : AutomodRule :=
    { id, name, pattern, isRegex := input.isRegex, action := input.action, isActive := true
      createdBy := some admin.userId, createdAt := s.now }
  commit written (fun s => { s with automodRules := s.automodRules.put rule })
    (((did admin .automodRuleCreated s!"created AutoMod rule '{name}' ({pattern})").about "automod_rule" id).with_
      [("name", .text name), ("pattern", .text pattern)])
  pure rule

def deleteRule (id : Uuid) : TrailM J Unit := do
  let rule ← Prog.query fun s => match s.automodRules.find id with
    | some rule => .ok rule
    | none => .error (.notFound "automod_rule")
  commit written (fun s => { s with automodRules := s.automodRules.delete id })
    (((did admin .automodRuleRemoved s!"removed AutoMod rule '{rule.name}'").about "automod_rule" id).with_ [("name", .text rule.name)])

end Calls

/-! ## Without the log -/

section Erase

variable {J α β : Type} {written : Option Uuid → Bool} {admin : Administrator}

/-- But for the log and the tables it tells of, the call does what the other does on the database. -/
def Erases (m : TrailM J α) (m' : SqlM α) : Prop :=
  ∀ s, (m.exec s).1 = (m'.exec s.toDb).1 ∧ (m.exec s).2.toDb = (m'.exec s.toDb).2

theorem Erases.pure (a : α) : Erases (pure a : TrailM J α) (pure a) := fun _ => ⟨rfl, rfl⟩

theorem Erases.onDb (m : SqlM α) : Erases (onDb m : TrailM J α) m := fun _ => ⟨rfl, rfl⟩

theorem Erases.bind {m : TrailM J α} {m' : SqlM α} {f : α → TrailM J β} {f' : α → SqlM β} (hm : Erases m m') (hf : ∀ a, Erases (f a) (f' a)) :
    Erases (m >>= f) (m' >>= f') := by
  intro s
  obtain ⟨houtcome, hleft⟩ := hm s
  rw [Prog.exec_bind, Prog.exec_bind]
  rcases hs : m.exec s with ⟨_ | a, t⟩ <;> rcases hs' : m'.exec s.toDb with ⟨_ | a', t'⟩ <;> rw [hs, hs'] at houtcome hleft <;>
    cases houtcome <;> cases hleft
  · exact ⟨rfl, rfl⟩
  · exact hf a t

theorem Erases.ensure (c : Bool) (e : ServiceError) : Erases (Prog.ensure c e : TrailM J Unit) (Prog.ensure c e) := by
  intro s
  cases c <;> exact ⟨rfl, rfl⟩

/-- The record changes nothing that the action changes. -/
theorem Erases.commit (write : Db → Db) (e : AuditRecord J) :
    Erases (commit written (fun s => { s with toDb := write s.toDb }) e) (Prog.modify write) := by
  intro s
  refine ⟨rfl, ?_⟩
  show TrailDb.toDb (if _ then _ else _) = write s.toDb
  split <;> rfl

theorem Erases.collect [DecidableEq α] {f : α → TrailM J β} {f' : α → SqlM β} (hf : ∀ a, Erases (f a) (f' a)) (as : List α) :
    Erases (Prog.collect f as) (Prog.collect f' as) := by
  unfold Prog.collect
  generalize [] = seen
  induction as generalizing seen with
  | nil => exact .pure []
  | cons a as ih =>
    unfold Prog.collectFrom
    split
    · exact ih seen
    · have hresult : Erases (Prog.result (f a) : TrailM J _) (Prog.result (f' a)) := by
        intro s
        obtain ⟨houtcome, hleft⟩ := hf a s
        exact ⟨congrArg Except.ok houtcome, hleft⟩
      exact hresult.bind fun r => (ih (a :: seen)).bind fun rs => .pure _

theorem erases_suspend (target : UserId) (reason : String) :
    Erases (suspend (J := J) written admin target reason) (Admin.suspend admin.userId target reason) :=
  (Erases.ensure _ _).bind fun _ => (Erases.onDb _).bind fun _ => (Erases.ensure _ _).bind fun _ =>
    (Erases.commit (suspended target reason) _).bind fun _ => .onDb _

theorem erases_reinstate (target : UserId) : Erases (reinstate (J := J) written admin target) (Admin.reinstate target) :=
  (Erases.onDb _).bind fun _ => (Erases.commit (reinstated target) _).bind fun _ => .onDb _

theorem erases_setPlatformRole (target : UserId) (role : PlatformRole) :
    Erases (setPlatformRole (J := J) written admin target role) (Admin.setPlatformRole admin.userId target role) :=
  (Erases.ensure _ _).bind fun _ => (Erases.onDb _).bind fun _ => (Erases.commit (withRole target role) _).bind fun _ => .onDb _

theorem erases_each {action : UserId → TrailM J User} {action' : UserId → SqlM User} (h : ∀ target, Erases (action target) (action' target))
    (targets : List UserId) : Erases (each targets action) (Admin.each targets action') :=
  (Erases.ensure _ _).bind fun _ => (Erases.ensure _ _).bind fun _ => (Erases.collect h targets).bind fun _ => .pure _

theorem erases_suspendMany (targets : List UserId) (reason : String) :
    Erases (suspendMany (J := J) written admin targets reason) (Admin.suspendMany admin.userId targets reason) :=
  erases_each (fun target => erases_suspend target reason) targets

theorem erases_reinstateMany (targets : List UserId) :
    Erases (reinstateMany (J := J) written admin targets) (Admin.reinstateMany targets) :=
  erases_each erases_reinstate targets

/-- The flag of a community that is not there: one looks first, the other finds no row to update. -/
theorem erases_flag (isQuarantined : Bool) (c : CommunityId) (e : TrailDb J → AuditRecord J) :
    Erases (do
      let s ← Prog.read id
      Prog.ensure (s.communityExists c) (.notFound "community")
      commit written (flag isQuarantined c) (e s)) (Recommend.setQuarantined isQuarantined c) := by
  intro s
  unfold Recommend.setQuarantined
  rw [Prog.exec_read_bind, id_eq, Prog.exec_ensure_bind, Prog.exec_read_bind, Prog.exec_modify_bind, Prog.exec_ensure]
  rcases hfound : s.communityExists c
  · have hsame : s.communities.update c (fun row => { row with isQuarantined }) (key_flagged isQuarantined) = s.communities :=
      Table.update_of_absent hfound
    exact ⟨rfl, congrArg (fun rows => { s.toDb with communities := rows }) hsame.symm⟩
  · exact Erases.commit (fun db =>
      { db with communities := db.communities.update c (fun row => { row with isQuarantined }) fun _ => rfl }) (e s) s

theorem erases_quarantine (c : CommunityId) (reason : String) :
    Erases (quarantine (J := J) written admin c reason) (Recommend.quarantine c reason) :=
  (Erases.ensure _ _).bind fun _ => erases_flag true c _

theorem erases_unquarantine (c : CommunityId) : Erases (unquarantine (J := J) written admin c) (Recommend.unquarantine c) :=
  erases_flag false c _
end Erase

/-! ## Runs -/

/-- What an administrator asks for. -/
inductive Ask (J : Type) where
  | suspend (target : UserId) (reason : String)
  | reinstate (target : UserId)
  | suspendMany (targets : List UserId) (reason : String)
  | reinstateMany (targets : List UserId)
  | setPlatformRole (target : UserId) (role : PlatformRole)
  | quarantine (c : CommunityId) (reason : String)
  | unquarantine (c : CommunityId)
  | deleteCommunity (c : CommunityId)
  | createBroadcast (id : Uuid) (input : NewBroadcast)
  | dismiss (id : Uuid)
  | setSetting (showValue : J → String) (key : String) (value : J)
  | banIp (id : Uuid) (ipOrCidr reason : String) (expiresAt : Option Timestamp)
  | unbanIp (id : Uuid)
  | blockEmailDomain (domain : String) (reason : Option String)
  | unblockEmailDomain (domain : String)
  | createRule (id : Uuid) (input : NewAutomodRule)
  | deleteRule (id : Uuid)

/-- A request to the console: by whom, for what, and which of its records can be written. -/
structure StaffCall (J : Type) where
  caller : UserId
  ask : Ask J
  written : Option Uuid → Bool

section Runs

variable {J : Type} (toLowercase : String → String)

/-- `let _ = m`, the outcome told to the caller. -/
def answered {α : Type} (m : TrailM J α) : TrailM J Unit := do
  let _ ← m
  pure ()

def Ask.serve (written : Option Uuid → Bool) (admin : Administrator) : Ask J → TrailM J Unit
  | suspend target reason => answered (Trail.suspend written admin target reason)
  | reinstate target => answered (Trail.reinstate written admin target)
  | suspendMany targets reason => answered (Trail.suspendMany written admin targets reason)
  | reinstateMany targets => answered (Trail.reinstateMany written admin targets)
  | setPlatformRole target role => answered (Trail.setPlatformRole written admin target role)
  | quarantine c reason => Trail.quarantine written admin c reason
  | unquarantine c => Trail.unquarantine written admin c
  | deleteCommunity c => Trail.deleteCommunity written admin c
  | createBroadcast id input => answered (Trail.createBroadcast written admin id input)
  | dismiss id => Trail.dismiss written admin id
  | setSetting showValue key value => answered (Trail.setSetting written admin showValue key value)
  | banIp id ipOrCidr reason expiresAt => answered (Trail.banIp written admin id ipOrCidr reason expiresAt)
  | unbanIp id => Trail.unbanIp written admin id
  | blockEmailDomain domain reason => answered (Trail.blockEmailDomain written toLowercase admin domain reason)
  | unblockEmailDomain domain => Trail.unblockEmailDomain written toLowercase admin domain
  | createRule id input => answered (Trail.createRule written admin id input)
  | deleteRule id => Trail.deleteRule written admin id

/-- A request, answered. Whoever is no administrator is told that there is nothing there. -/
def StaffCall.serve (c : StaffCall J) : TrailM J Unit := do
  let s ← Prog.read id
  Prog.ensure (roleOf s.toDb c.caller).isAdmin (.notFound "resource")
  let me ← onDb (findUser c.caller)
  c.ask.serve toLowercase c.written ⟨c.caller, me.handle⟩

/-- Is it an action of the calls above? -/
def AuditAction.decides : AuditAction → Bool
  | userSuspended | userReinstated | platformRoleChanged | communityRemoved | communityQuarantined | communityUnquarantined
  | broadcastCreated | broadcastDismissed | featureFlagUpdated | ipBanned | ipUnbanned | emailDomainBlocked | emailDomainUnblocked
  | automodRuleCreated | automodRuleRemoved => true
  | _ => false

/-- What another service records: an action of its own. -/
structure OtherRecord (J : Type) where
  entry : AuditRecord J
  elsewhere : entry.action.decides = false

/-- What happens at the console: the clock goes on, expired bans are pruned, requests are answered, and what other services did
is recorded, where it can be. -/
inductive Event (J : Type) where
  | tick (now : Timestamp)
  | pruneExpiredBans
  | call (c : StaffCall J)
  | other (o : OtherRecord J) (written : Bool)

def step (s : TrailDb J) : Event J → TrailDb J
  | .tick now => { s with toDb := s.toDb.tick now }
  | .pruneExpiredBans => { s with ipBans := s.ipBans.deleteWhere fun ban => ban.expiresAt.any fun t => t ≤ s.now }
  | .call c => ((c.serve toLowercase).exec s).2
  | .other o written => if written then { s with auditLog := s.auditLog ++ [o.entry] } else s

end Runs

/-! ## What the records tell -/

/-- What staff decided about an account. -/
structure Standing where
  isActive : Bool
  suspensionReason : Option String
  platformRole : PlatformRole
  deriving DecidableEq, Repr

def standing (u : User) : Standing := ⟨u.isActive, u.suspensionReason, u.platformRole⟩

/-- What staff decided. -/
structure Decisions (J : Type) where
  accounts : UserId → Option Standing
  /-- Is the community, where there is one, under quarantine? -/
  communities : CommunityId → Option Bool
  /-- Is the broadcast, where there is one, still active? -/
  broadcasts : Uuid → Option Bool
  settings : String → Option J
  /-- Why the address is banned. -/
  bans : String → Option String
  /-- Is the domain blocked? -/
  domains : String → Option Unit
  /-- The name and pattern of a rule. -/
  rules : Uuid → Option (String × String)

variable {J : Type}

/-- What the tables hold of it. -/
def decided (s : TrailDb J) : Decisions J where
  accounts u := (s.users.find u).map standing
  communities c := (s.communities.find c).map (·.isQuarantined)
  broadcasts id := (s.systemBroadcasts.find id).map (·.isActive)
  settings key := (s.systemSettings.find key).map (·.value)
  bans ip := (s.ipBans.find ip).map (·.reason)
  domains domain := (s.blockedEmailDomains.find domain).map fun _ => ()
  rules id := (s.automodRules.find id).map fun rule => (rule.name, rule.pattern)

/-- Change what is decided about one. -/
def amend {κ α : Type} [DecidableEq κ] (f : κ → α) (k : Option κ) (g : α → α) : κ → α := fun k' => if k = some k' then g (f k') else f k'

/-- Change what is decided about the account, or the community, that a record is about. -/
def Decisions.account (d : Decisions J) (e : AuditRecord J) (g : Standing → Standing) : Decisions J :=
  { d with accounts := amend d.accounts (e.subjectId.map UserId.mk) (Option.map g) }

def Decisions.community (d : Decisions J) (e : AuditRecord J) (g : Option Bool → Option Bool) : Decisions J :=
  { d with communities := amend d.communities (e.subjectId.map CommunityId.mk) g }

/-- A record, read back: from its action, its subject and its metadata. -/
def replay (d : Decisions J) (e : AuditRecord J) : Decisions J :=
  match e.action with
  | .userSuspended => d.account e fun a => { a with isActive := false, suspensionReason := e.text "reason" }
  | .userReinstated => d.account e fun a => { a with isActive := true, suspensionReason := none }
  | .platformRoleChanged => d.account e fun a => { a with platformRole := ((e.text "to").bind roleFromStr).getD a.platformRole }
  | .communityRemoved => d.community e fun _ => none
  | .communityQuarantined => d.community e (Option.map fun _ => true)
  | .communityUnquarantined => d.community e (Option.map fun _ => false)
  | .broadcastCreated => { d with broadcasts := amend d.broadcasts e.subjectId fun _ => some true }
  | .broadcastDismissed => { d with broadcasts := amend d.broadcasts e.subjectId (Option.map fun _ => false) }
  | .featureFlagUpdated => { d with settings := amend d.settings (e.text "key") fun held => (e.value "value").or held }
  | .ipBanned => { d with bans := amend d.bans (e.text "ip_or_cidr") fun _ => e.text "reason" }
  | .ipUnbanned => { d with bans := amend d.bans (e.text "ip_or_cidr") fun _ => none }
  | .emailDomainBlocked => { d with domains := amend d.domains (e.text "domain") fun _ => some () }
  | .emailDomainUnblocked => { d with domains := amend d.domains (e.text "domain") fun _ => none }
  | .automodRuleCreated =>
    { d with rules := amend d.rules e.subjectId fun _ => (e.text "name").bind fun name => (e.text "pattern").map fun p => (name, p) }
  | .automodRuleRemoved => { d with rules := amend d.rules e.subjectId fun _ => none }
  | _ => d

/-- The decisions are those the tables hold. Expired bans are pruned without a record, so of the bans it is those there are
that were decided. -/
structure Explains (d : Decisions J) (s : TrailDb J) : Prop where
  accounts : ∀ u, d.accounts u = (decided s).accounts u
  communities : ∀ c, d.communities c = (decided s).communities c
  broadcasts : ∀ id, d.broadcasts id = (decided s).broadcasts id
  settings : ∀ key, d.settings key = (decided s).settings key
  bans : ∀ ip reason, (decided s).bans ip = some reason → d.bans ip = some reason
  domains : ∀ domain, d.domains domain = (decided s).domains domain
  rules : ∀ id, d.rules id = (decided s).rules id
  /-- `ip_bans_pkey` -/
  banIds : ∀ ban ∈ s.ipBans.rows, ∀ ban' ∈ s.ipBans.rows, ban.id = ban'.id → ban = ban'

/-! ## What a write decides -/

section Decide

variable {d : Decisions J} {s : TrailDb J} {e : AuditRecord J}

theorem amend_some {κ α : Type} [DecidableEq κ] (f : κ → α) (k k' : κ) (g : α → α) :
    amend f (some k) g k' = if k = k' then g (f k') else f k' := by
  unfold amend
  simp only [Option.some.injEq]

section Amend

variable {ρ κ β : Type} [DecidableEq κ] [HasKey ρ κ] {t : Table ρ} {f : κ → Option β} {π : ρ → β} {g : Option β → Option β}

theorem amend_put (h : ∀ k, f k = (t.find k).map π) (r : ρ) (hg : ∀ o, g o = some (π r)) (k : κ) :
    amend f (some (key r)) g k = ((t.put r).find k).map π := by
  rw [amend_some, Table.find_put]
  split
  · exact hg _
  · exact h k

theorem amend_update (h : ∀ k, f k = (t.find k).map π) (k₀ : κ) (φ : ρ → ρ) (hφ : ∀ r, key (φ r) = key r)
    (hg : ∀ o : Option ρ, g (o.map π) = (o.map φ).map π) (k : κ) :
    amend f (some k₀) g k = ((t.update k₀ φ hφ).find k).map π := by
  rw [amend_some, Table.find_update, h]
  split
  · exact hg _
  · rfl

theorem amend_delete (h : ∀ k, f k = (t.find k).map π) (k₀ : κ) (k : κ) :
    amend f (some k₀) (fun _ => none) k = ((t.delete k₀).find k).map π := by
  rw [amend_some, Table.find_delete, h]
  split <;> rfl

end Amend

theorem Explains.account (h : Explains d s) {target : UserId} {f : User → User} {g : Standing → Standing} {hf : ∀ u, key (f u) = key u}
    (hid : e.subjectId = some target.uuid) (hg : ∀ u, standing (f u) = g (standing u)) :
    Explains (d.account e g) { s with users := s.users.update target f hf } := by
  have hsubject : e.subjectId.map UserId.mk = some target := by rw [hid]; rfl
  refine ⟨?_, h.communities, h.broadcasts, h.settings, h.bans, h.domains, h.rules, h.banIds⟩
  unfold Decisions.account
  rw [hsubject]
  exact amend_update h.accounts target f hf fun o => by cases o <;> simp [hg]

theorem Explains.flag (h : Explains d s) {c : CommunityId} (isQuarantined : Bool) (hid : e.subjectId = some c.uuid) :
    Explains (d.community e (Option.map fun _ => isQuarantined)) (flag isQuarantined c s) := by
  have hsubject : e.subjectId.map CommunityId.mk = some c := by rw [hid]; rfl
  refine ⟨h.accounts, ?_, h.broadcasts, h.settings, h.bans, h.domains, h.rules, h.banIds⟩
  unfold Decisions.community
  rw [hsubject]
  have hg : ∀ o : Option Community, (o.map (·.isQuarantined)).map (fun _ => isQuarantined) =
      (o.map fun row => { row with isQuarantined }).map (·.isQuarantined) := fun o => by cases o <;> rfl
  exact amend_update h.communities c (fun row => { row with isQuarantined }) (key_flagged isQuarantined) hg

theorem Explains.communityDeleted (h : Explains d s) {c : CommunityId} (hid : e.subjectId = some c.uuid) :
    Explains (d.community e fun _ => none) { s with toDb := Community.deleteCommunityRow c s.toDb } := by
  have hsubject : e.subjectId.map CommunityId.mk = some c := by rw [hid]; rfl
  refine ⟨h.accounts, ?_, h.broadcasts, h.settings, h.bans, h.domains, h.rules, h.banIds⟩
  unfold Decisions.community
  rw [hsubject]
  exact amend_delete h.communities c

theorem Explains.banPut (h : Explains d s) {ban : IpBan} {ipOrCidr reason : String} (hip : ban.ipOrCidr = ipOrCidr)
    (hreason : ban.reason = reason) (hid : ∀ held ∈ s.ipBans.rows, held.id = ban.id → held.ipOrCidr = ban.ipOrCidr) :
    Explains { d with bans := amend d.bans (some ipOrCidr) fun _ => some reason } { s with ipBans := s.ipBans.put ban } := by
  subst hip hreason
  refine ⟨h.accounts, h.communities, h.broadcasts, h.settings, fun ip reason hip => ?_, h.domains, h.rules, ?_⟩
  · have hput : ((s.ipBans.put ban).find ip).map (·.reason) = some reason := hip
    show amend d.bans (some ban.ipOrCidr) (fun _ => some ban.reason) ip = some reason
    rw [Table.find_put, show key ban = ban.ipOrCidr from rfl] at hput
    rw [amend_some]
    by_cases hkey : ban.ipOrCidr = ip
    · rw [if_pos hkey] at hput ⊢
      exact hput
    · rw [if_neg hkey] at hput ⊢
      exact h.bans ip reason hput
  · intro a ha b hb hab
    have hmem : ∀ r, r ∈ (s.ipBans.put ban).rows → r = ban ∨ r ∈ s.ipBans.rows ∧ r.ipOrCidr ≠ ban.ipOrCidr := by
      intro r hr
      have hfind := Table.mem_iff_find.1 hr
      rw [Table.find_put] at hfind
      by_cases hkey : key ban = key r
      · rw [if_pos hkey] at hfind
        exact .inl (Option.some.inj hfind).symm
      · rw [if_neg hkey] at hfind
        exact .inr ⟨Table.mem_iff_find.2 hfind, Ne.symm hkey⟩
    rcases hmem a ha with rfl | ⟨hain, hane⟩
    · rcases hmem b hb with rfl | ⟨hbin, hbne⟩
      · rfl
      · exact absurd (hid b hbin hab.symm) hbne
    · rcases hmem b hb with rfl | ⟨hbin, hbne⟩
      · exact absurd (hid a hain hab) hane
      · exact h.banIds a hain b hbin hab

/-- Bans are gone, and of the others it is decided what was. -/
theorem Explains.bansDeleted (h : Explains d s) {p : IpBan → Bool} {bans : String → Option String}
    (hbans : ∀ ban ∈ s.ipBans.rows, p ban = false → bans ban.ipOrCidr = d.bans ban.ipOrCidr) :
    Explains { d with bans } { s with ipBans := s.ipBans.deleteWhere p } := by
  refine ⟨h.accounts, h.communities, h.broadcasts, h.settings, fun ip reason hip => ?_, h.domains, h.rules, ?_⟩
  · obtain ⟨held, hheld, hreason⟩ := Option.map_eq_some_iff.1 (show ((s.ipBans.deleteWhere p).find ip).map (·.reason) = some reason from hip)
    rw [Table.find_deleteWhere, Option.filter_eq_some_iff] at hheld
    obtain ⟨hfind, hkept⟩ := hheld
    obtain ⟨hmem, rfl⟩ := Table.find_eq_some.1 hfind
    have hsame := hbans held hmem (by simpa using hkept)
    exact hsame.trans (h.bans _ reason (Option.map_eq_some_iff.2 ⟨held, hfind, hreason⟩))
  · exact fun a ha b hb => h.banIds a (List.mem_of_mem_filter ha) b (List.mem_of_mem_filter hb)

theorem Explains.banDeleted (h : Explains d s) {ban : IpBan} (hban : ban ∈ s.ipBans.rows) :
    Explains { d with bans := amend d.bans (some ban.ipOrCidr) fun _ => none }
      { s with ipBans := s.ipBans.deleteWhere fun held => held.id = ban.id } := by
  refine h.bansDeleted fun held hheld hkept => ?_
  -- it is another address, for the ban of this one is gone
  have hother : ban.ipOrCidr ≠ held.ipOrCidr := by
    intro hkey
    have hsame : ban = held := List.inj_on_of_nodup_map s.ipBans.nodup hban hheld hkey
    simp [hsame] at hkept
  rw [amend_some, if_neg hother]

theorem Explains.broadcastPut (h : Explains d s) {b : SystemBroadcast} {id : Uuid} (hid : b.id = id) (hb : b.isActive = true) :
    Explains { d with broadcasts := amend d.broadcasts (some id) fun _ => some true }
      { s with systemBroadcasts := s.systemBroadcasts.put b } := by
  subst hid
  exact ⟨h.accounts, h.communities, amend_put h.broadcasts b fun _ => by rw [hb], h.settings, h.bans, h.domains, h.rules, h.banIds⟩

theorem Explains.broadcastDismissed (h : Explains d s) (id : Uuid) :
    Explains { d with broadcasts := amend d.broadcasts (some id) (Option.map fun _ => false) }
      { s with systemBroadcasts := s.systemBroadcasts.update id (fun b => { b with isActive := false }) fun _ => rfl } := by
  have hg : ∀ o : Option SystemBroadcast, (o.map (·.isActive)).map (fun _ => false) =
      (o.map fun b => { b with isActive := false }).map (·.isActive) := fun o => by cases o <;> rfl
  exact ⟨h.accounts, h.communities, amend_update h.broadcasts id (fun b => { b with isActive := false }) (fun _ => rfl) hg, h.settings,
    h.bans, h.domains, h.rules, h.banIds⟩

theorem Explains.settingPut (h : Explains d s) {setting : SystemSetting J} {key : String} {value : J} (hkey : setting.key = key)
    (hvalue : setting.value = value) :
    Explains { d with settings := amend d.settings (some key) fun held => (some value).or held }
      { s with systemSettings := s.systemSettings.put setting } := by
  subst hkey hvalue
  exact ⟨h.accounts, h.communities, h.broadcasts, amend_put h.settings setting fun _ => rfl, h.bans, h.domains, h.rules, h.banIds⟩

theorem Explains.domainPut (h : Explains d s) {row : BlockedEmailDomain} {domain : String} (hdomain : row.domain = domain) :
    Explains { d with domains := amend d.domains (some domain) fun _ => some () }
      { s with blockedEmailDomains := s.blockedEmailDomains.put row } := by
  subst hdomain
  exact ⟨h.accounts, h.communities, h.broadcasts, h.settings, h.bans, amend_put h.domains row fun _ => rfl, h.rules, h.banIds⟩

theorem Explains.domainDeleted (h : Explains d s) (domain : String) :
    Explains { d with domains := amend d.domains (some domain) fun _ => none }
      { s with blockedEmailDomains := s.blockedEmailDomains.delete domain } :=
  ⟨h.accounts, h.communities, h.broadcasts, h.settings, h.bans, amend_delete h.domains domain, h.rules, h.banIds⟩

theorem Explains.rulePut (h : Explains d s) {rule : AutomodRule} {id : Uuid} {name pattern : String} (hid : rule.id = id)
    (hname : rule.name = name) (hpattern : rule.pattern = pattern) :
    Explains { d with rules := amend d.rules (some id) fun _ => some (name, pattern) }
      { s with automodRules := s.automodRules.put rule } := by
  subst hid hname hpattern
  exact ⟨h.accounts, h.communities, h.broadcasts, h.settings, h.bans, h.domains, amend_put h.rules rule fun _ => rfl, h.banIds⟩

theorem Explains.ruleDeleted (h : Explains d s) (id : Uuid) :
    Explains { d with rules := amend d.rules (some id) fun _ => none } { s with automodRules := s.automodRules.delete id } :=
  ⟨h.accounts, h.communities, h.broadcasts, h.settings, h.bans, h.domains, amend_delete h.rules id, h.banIds⟩

/-- Bans that are gone without a record leave the others as they were decided. -/
theorem Explains.bansPruned (h : Explains d s) (p : IpBan → Bool) : Explains d { s with ipBans := s.ipBans.deleteWhere p } :=
  h.bansDeleted fun _ _ _ => rfl

/-- Neither the clock nor the log is a decision. -/
theorem Explains.ticked (h : Explains d s) (now : Timestamp) : Explains d { s with toDb := s.toDb.tick now } :=
  ⟨h.accounts, h.communities, h.broadcasts, h.settings, h.bans, h.domains, h.rules, h.banIds⟩

theorem Explains.logged (h : Explains d s) (log : List (AuditRecord J)) : Explains d { s with auditLog := log } :=
  ⟨h.accounts, h.communities, h.broadcasts, h.settings, h.bans, h.domains, h.rules, h.banIds⟩

end Decide

/-! ## What a call leaves in the log -/

/-- The audit log, as it tells what the tables hold. -/
def journal : Journal (TrailDb J) (AuditRecord J) (Decisions J) := ⟨TrailDb.auditLog, replay, Explains⟩

/-- The record names who acted. -/
def signed (admin : Administrator) (e : AuditRecord J) : Prop := e.actorId = some admin.userId ∧ e.actorHandle = some admin.handle

section Told

variable {α β : Type} {written : Option Uuid → Bool} {admin : Administrator} {s : TrailDb J} {toLowercase : String → String}

/-- What the program does to the store is told by records of the administrator, and all of them are there if each can be written. -/
def TellsAt (written : Option Uuid → Bool) (admin : Administrator) (m : TrailM J α) (s : TrailDb J) : Prop :=
  journal.Told (∀ id, written id = true) (signed admin) s (m.exec s).2

theorem TellsAt.unchanged {m : TrailM J α} (h : (m.exec s).2 = s) : TellsAt written admin m s := by
  unfold TellsAt
  rw [h]
  exact .refl s

theorem TellsAt.ensure {c : Bool} {e : ServiceError} {m : TrailM J β} (h : c = true → TellsAt written admin m s) :
    TellsAt written admin (Prog.ensure c e >>= fun _ => m) s := by
  unfold TellsAt
  rw [Prog.exec_ensure_bind]
  cases c
  · exact .refl s
  · exact h rfl

theorem TellsAt.read {q : TrailDb J → α} {f : α → TrailM J β} (h : TellsAt written admin (f (q s)) s) :
    TellsAt written admin (Prog.read q >>= f) s := h

theorem TellsAt.query {q : TrailDb J → Except ServiceError α} {f : α → TrailM J β} (h : ∀ a, q s = .ok a → TellsAt written admin (f a) s) :
    TellsAt written admin (Prog.query q >>= f) s := by
  unfold TellsAt
  rw [Prog.exec_query_bind]
  rcases hq : q s with e | a
  · exact .refl s
  · exact h a hq

/-- Looking an account up writes nothing. -/
theorem exec_findUser (target : UserId) (s : TrailDb J) :
    (onDb (findUser target)).exec s = ((s.users.find target).elim (.error (.notFound "user")) .ok, s) := by
  show (((findUser target).exec s.toDb).1, { s with toDb := ((findUser target).exec s.toDb).2 }) = _
  unfold findUser
  rw [Prog.exec_read_bind]
  rcases s.users.find target with _ | u <;> rfl

theorem TellsAt.user {target : UserId} {f : User → TrailM J β} (h : ∀ u, TellsAt written admin (f u) s) :
    TellsAt written admin (onDb (findUser target) >>= f) s := by
  unfold TellsAt
  rw [Prog.exec_bind, exec_findUser]
  rcases s.users.find target with _ | u
  · exact .refl s
  · exact h u

/-- An action is told by its record. -/
theorem TellsAt.committed {write : TrailDb J → TrailDb J} {e : AuditRecord J} {rest : TrailM J α} (hrest : ∀ s, (rest.exec s).2 = s)
    (hlog : (write s).auditLog = s.auditLog) (hsigned : signed admin e) (hwrite : ∀ d, Explains d s → Explains (replay d e) (write s)) :
    TellsAt written admin (commit written write e >>= fun _ => rest) s := by
  have hexec : ((commit written write e >>= fun _ => rest).exec s).2 =
      if written e.subjectId then { write s with auditLog := (write s).auditLog ++ [e] } else write s := hrest _
  unfold TellsAt
  rw [hexec]
  refine .entry (written e.subjectId) ?_ (fun hall => hall _) hsigned fun d hd => ?_
  · show TrailDb.auditLog (if _ then _ else _) = if _ then s.auditLog ++ [e] else s.auditLog
    split
    · rw [hlog]
    · exact hlog
  · show Explains _ (if _ then _ else _)
    split
    · exact (hwrite d hd).logged _
    · exact hwrite d hd

theorem TellsAt.last {write : TrailDb J → TrailDb J} {e : AuditRecord J} (hlog : (write s).auditLog = s.auditLog)
    (hsigned : signed admin e) (hwrite : ∀ d, Explains d s → Explains (replay d e) (write s)) :
    TellsAt written admin (commit written write e) s := by
  rw [← bind_pure (commit written write e)]
  exact .committed (fun _ => rfl) hlog hsigned hwrite

theorem TellsAt.told {m : TrailM J α} (h : TellsAt written admin m s) : TellsAt written admin (answered m) s := by
  unfold TellsAt Trail.answered
  rw [Prog.exec_bind]
  unfold TellsAt at h
  rcases hm : m.exec s with ⟨_ | a, s'⟩ <;> rw [hm] at h <;> exact h

end Told

section Calls

variable {written : Option Uuid → Bool} {admin : Administrator} {toLowercase : String → String}

theorem tells_suspend (target : UserId) (reason : String) (s : TrailDb J) :
    TellsAt written admin (suspend written admin target reason) s := by
  refine .ensure fun _ => .user fun subject => .ensure fun _ => .committed (fun s => ?_) rfl ⟨rfl, rfl⟩ fun d hd => ?_
  · rw [exec_findUser]
  · show Explains (Decisions.account d _ fun a => { a with isActive := false, suspensionReason := some reason }) _
    exact hd.account rfl fun _ => rfl

theorem tells_reinstate (target : UserId) (s : TrailDb J) : TellsAt written admin (reinstate written admin target) s := by
  refine .user fun subject => .committed (fun s => ?_) rfl ⟨rfl, rfl⟩ fun d hd => ?_
  · rw [exec_findUser]
  · exact hd.account rfl fun _ => rfl

theorem tells_setPlatformRole (target : UserId) (role : PlatformRole) (s : TrailDb J) :
    TellsAt written admin (setPlatformRole written admin target role) s := by
  refine .ensure fun _ => .user fun subject => .committed (fun s => ?_) rfl ⟨rfl, rfl⟩ fun d hd => ?_
  · rw [exec_findUser]
  · show Explains (Decisions.account d _ fun a => { a with platformRole := (roleFromStr (roleKey role)).getD a.platformRole }) _
    rw [roleFromStr_key]
    exact hd.account rfl fun _ => rfl

/-- A pass over accounts is told as its accounts are. -/
theorem tells_each {action : UserId → TrailM J User} (h : ∀ target s, TellsAt written admin (action target) s) (targets : List UserId)
    (s : TrailDb J) : TellsAt written admin (each targets action) s := by
  refine .ensure fun _ => .ensure fun _ => ?_
  have hpass : Prog.Leads (journal.Told (∀ id, written id = true) (signed admin)) (Prog.collect action targets) :=
    Prog.Leads.collect (fun s => .refl s) (fun _ _ _ h h' => h.trans h') h targets
  exact Prog.Leads.bind (fun _ _ _ h h' => h.trans h') hpass (fun _ s => .refl s) s

theorem tells_quarantine (c : CommunityId) (reason : String) (s : TrailDb J) :
    TellsAt written admin (quarantine written admin c reason) s :=
  .ensure fun _ => .read <| .ensure fun _ => .last rfl ⟨rfl, rfl⟩ fun _ hd => hd.flag true rfl

theorem tells_unquarantine (c : CommunityId) (s : TrailDb J) : TellsAt written admin (unquarantine written admin c) s :=
  .read <| .ensure fun _ => .last rfl ⟨rfl, rfl⟩ fun _ hd => hd.flag false rfl

theorem tells_deleteCommunity (c : CommunityId) (s : TrailDb J) : TellsAt written admin (deleteCommunity written admin c) s :=
  .read <| .ensure fun _ => .last rfl ⟨rfl, rfl⟩ fun _ hd => hd.communityDeleted rfl

theorem tells_createBroadcast (id : Uuid) (input : NewBroadcast) (s : TrailDb J) :
    TellsAt written admin (createBroadcast written admin id input) s :=
  .ensure fun _ => .read <| .ensure fun _ => .committed (fun _ => rfl) rfl ⟨rfl, rfl⟩ fun _ hd => hd.broadcastPut rfl rfl

theorem tells_dismiss (id : Uuid) (s : TrailDb J) : TellsAt written admin (dismiss written admin id) s :=
  .query fun _ _ => .last rfl ⟨rfl, rfl⟩ fun _ hd => hd.broadcastDismissed id

theorem tells_setSetting (showValue : J → String) (key : String) (value : J) (s : TrailDb J) :
    TellsAt written admin (setSetting written admin showValue key value) s :=
  .read <| .committed (fun _ => rfl) rfl ⟨rfl, rfl⟩ fun _ hd => hd.settingPut rfl rfl

/-- The row a ban leaves has the id of no other. -/
theorem tells_banIp (id : Uuid) (ipOrCidr reason : String) (expiresAt : Option Timestamp) (s : TrailDb J) :
    TellsAt written admin (banIp written admin id ipOrCidr reason expiresAt) s := by
  refine .ensure fun _ => .query fun row hrow => .committed (fun _ => rfl) rfl ⟨rfl, rfl⟩ fun d hd => ?_
  rcases hheld : s.ipBans.find (trim ipOrCidr) with _ | held
  · simp only [hheld] at hrow
    split at hrow
    · cases hrow
    · rename_i hfresh
      cases hrow
      refine hd.banPut rfl rfl fun other hother hid => ?_
      exact absurd (List.any_eq_true.2 ⟨other, hother, decide_eq_true hid⟩) hfresh
  · simp only [hheld] at hrow
    cases hrow
    obtain ⟨hin, hkey⟩ := Table.find_eq_some.1 hheld
    exact hd.banPut hkey rfl fun other hother hid => by rw [hd.banIds other hother held hin hid]

theorem tells_unbanIp (id : Uuid) (s : TrailDb J) : TellsAt written admin (unbanIp written admin id) s := by
  refine .query fun ban hban => .last rfl ⟨rfl, rfl⟩ fun d hd => ?_
  split at hban
  · rename_i held hheld
    cases hban
    have hid : ban.id = id := by simpa using List.find?_some hheld
    rw [← hid]
    exact hd.banDeleted (List.mem_of_find?_eq_some hheld)
  · cases hban

theorem tells_blockEmailDomain (domain : String) (reason : Option String) (s : TrailDb J) :
    TellsAt written admin (blockEmailDomain written toLowercase admin domain reason) s := by
  refine .ensure fun _ => .read <| .committed (fun _ => rfl) rfl ⟨rfl, rfl⟩ fun d hd => hd.domainPut ?_
  split
  · rename_i held hheld
    exact Table.find_key hheld
  · rfl

theorem tells_unblockEmailDomain (domain : String) (s : TrailDb J) :
    TellsAt written admin (unblockEmailDomain written toLowercase admin domain) s :=
  .last rfl ⟨rfl, rfl⟩ fun _ hd => hd.domainDeleted _

theorem tells_createRule (id : Uuid) (input : NewAutomodRule) (s : TrailDb J) :
    TellsAt written admin (createRule written admin id input) s :=
  .ensure fun _ => .read <| .ensure fun _ => .committed (fun _ => rfl) rfl ⟨rfl, rfl⟩ fun _ hd => hd.rulePut rfl rfl rfl

theorem tells_deleteRule (id : Uuid) (s : TrailDb J) : TellsAt written admin (deleteRule written admin id) s :=
  .query fun _ _ => .last rfl ⟨rfl, rfl⟩ fun _ hd => hd.ruleDeleted id

end Calls

/-! ## What a run leaves in the log -/

theorem tells_ask {written : Option Uuid → Bool} {admin : Administrator} {toLowercase : String → String} (ask : Ask J) (s : TrailDb J) :
    TellsAt written admin (ask.serve toLowercase written admin) s := by
  cases ask with
  | suspend target reason => exact (tells_suspend target reason s).told
  | reinstate target => exact (tells_reinstate target s).told
  | suspendMany targets reason => exact (tells_each (fun target s => tells_suspend target reason s) targets s).told
  | reinstateMany targets => exact (tells_each tells_reinstate targets s).told
  | setPlatformRole target role => exact (tells_setPlatformRole target role s).told
  | quarantine c reason => exact tells_quarantine c reason s
  | unquarantine c => exact tells_unquarantine c s
  | deleteCommunity c => exact tells_deleteCommunity c s
  | createBroadcast id input => exact (tells_createBroadcast id input s).told
  | dismiss id => exact tells_dismiss id s
  | setSetting showValue key value => exact (tells_setSetting showValue key value s).told
  | banIp id ipOrCidr reason expiresAt => exact (tells_banIp id ipOrCidr reason expiresAt s).told
  | unbanIp id => exact tells_unbanIp id s
  | blockEmailDomain domain reason => exact (tells_blockEmailDomain domain reason s).told
  | unblockEmailDomain domain => exact tells_unblockEmailDomain domain s
  | createRule id input => exact (tells_createRule id input s).told
  | deleteRule id => exact tells_deleteRule id s

/-- Each record can be written. -/
def Event.recorded : Event J → Prop
  | .call c => ∀ id, c.written id = true
  | .other _ written => written = true
  | _ => True

/-- The record is of a request that an administrator made then, and names them by the handle they had; or it is another service's. -/
def Event.wrote (s : TrailDb J) : Event J → AuditRecord J → Prop
  | .call c, e => ∃ me, s.users.find c.caller = some me ∧ me.platformRole = .admin ∧ signed ⟨c.caller, me.handle⟩ e
  | .other o _, e => e = o.entry
  | _, _ => False

theorem replay_other (d : Decisions J) (o : OtherRecord J) : replay d o.entry = d := by
  rcases o with ⟨⟨actorId, actorHandle, action, subjectType, subjectId, summary, metadata⟩, helsewhere⟩
  cases action <;> first | rfl | cases helsewhere

theorem tells_step {toLowercase : String → String} (ev : Event J) (s : TrailDb J) :
    journal.Told ev.recorded (ev.wrote s) s (step toLowercase s ev) := by
  cases ev with
  | tick now => exact .unseen rfl fun _ h => h.ticked now
  | pruneExpiredBans => exact .unseen rfl fun _ h => h.bansPruned _
  | call c =>
    show journal.Told _ _ s ((c.serve toLowercase).exec s).2
    unfold StaffCall.serve
    rw [Prog.exec_read_bind, Prog.exec_ensure_bind]
    split
    · rename_i hadmin
      rw [Prog.exec_bind, exec_findUser]
      rcases hme : s.users.find c.caller with _ | me
      · exact .refl s
      · have hrole : me.platformRole = .admin := by
          have hall : (((s.users.find c.caller).map User.platformRole).getD PlatformRole.user).isAdmin = true := hadmin
          rw [hme] at hall
          rcases hrole : me.platformRole <;> simp [hrole, PlatformRole.isAdmin] at hall ⊢
        exact (tells_ask c.ask s).mono (fun h => h) fun e he => ⟨me, hme, hrole, he⟩
    · exact .refl s
  | other o written =>
    refine .entry written ?_ (fun h => h) (show o.entry = o.entry from rfl) fun d hd => ?_
    · unfold step
      cases written <;> rfl
    · show Explains (replay d o.entry) (if written then { s with auditLog := s.auditLog ++ [o.entry] } else s)
      rw [replay_other]
      split
      · exact hd.logged _
      · exact hd

/-- Replaying what was done over the tables there were gives the tables there are. The log has grown by all of it, or by what is
left of it where a record could not be written; and what the console recorded was asked for by somebody who was an administrator. -/
theorem trail_tells (toLowercase : String → String) (s : TrailDb J)
    (hids : ∀ ban ∈ s.ipBans.rows, ∀ ban' ∈ s.ipBans.rows, ban.id = ban'.id → ban = ban') (evs : List (Event J)) :
    ∃ es kept, (run (step toLowercase) s evs).auditLog = s.auditLog ++ kept ∧ kept.Sublist es ∧
      ((∀ ev ∈ evs, ev.recorded) → kept = es) ∧
      (∀ e ∈ es, ∃ pre ev post, evs = pre ++ ev :: post ∧ ev.wrote (run (step toLowercase) s pre) e) ∧
      Explains (es.foldl replay (decided s)) (run (step toLowercase) s evs) := by
  have halong : Along (step toLowercase) (fun s ev => journal.Told ev.recorded (ev.wrote s) s (step toLowercase s ev)) s evs :=
    along_true.mono fun s ev _ => tells_step ev s
  obtain ⟨es, kept, hlog, hsub, hall, hby, hview⟩ := Journal.Told.run halong
  refine ⟨es, kept, hlog, hsub, hall, hby, hview _ ?_⟩
  exact ⟨fun _ => rfl, fun _ => rfl, fun _ => rfl, fun _ => rfl, fun _ _ h => h, fun _ => rfl, fun _ => rfl, hids⟩

/-- `root` of the administrators, and `ana`. -/
def rootAndAna : TrailDb String :=
  { Db.empty 0 with
    users := (Table.empty.insert { id := ⟨1⟩, handle := "root", email := "root@genzh.test", platformRole := .admin, isActive := true }).insert
      { id := ⟨2⟩, handle := "ana", email := "ana@genzh.test", isActive := true }
    communityName := fun _ => ""
    systemBroadcasts := .empty
    systemSettings := .empty
    ipBans := .empty
    blockedEmailDomains := .empty
    automodRules := .empty
    auditLog := [] }

/-- Her suspension is in the log, and the ban, whose record was lost, is not. -/
theorem lost_ban_told :
    (run (step id) rootAndAna [.call ⟨⟨1⟩, .banIp 7 "10.0.0.1" "spam" none, fun _ => false⟩,
      .call ⟨⟨1⟩, .suspend ⟨2⟩ "spam", fun _ => true⟩]).auditLog.map (·.action) = [.userSuspended] ∧
    ∃ es kept, (run (step id) rootAndAna [.call ⟨⟨1⟩, .banIp 7 "10.0.0.1" "spam" none, fun _ => false⟩,
        .call ⟨⟨1⟩, .suspend ⟨2⟩ "spam", fun _ => true⟩]).auditLog = [] ++ kept ∧ kept.Sublist es ∧
      Explains (es.foldl replay (decided rootAndAna)) (run (step id) rootAndAna
        [.call ⟨⟨1⟩, .banIp 7 "10.0.0.1" "spam" none, fun _ => false⟩, .call ⟨⟨1⟩, .suspend ⟨2⟩ "spam", fun _ => true⟩]) := by
  obtain ⟨es, kept, hlog, hsub, -, -, hview⟩ := trail_tells id rootAndAna (fun ban hban => (List.not_mem_nil hban).elim)
    [.call ⟨⟨1⟩, .banIp 7 "10.0.0.1" "spam" none, fun _ => false⟩, .call ⟨⟨1⟩, .suspend ⟨2⟩ "spam", fun _ => true⟩]
  exact ⟨by decide +kernel, es, kept, hlog, hsub, hview⟩

end Genzh.Admin.Trail
