/-
Platform staff: who they are, and what they may do to an account. The audit record of each action is best
effort and no check reads it.
-/
import Genzh.Infrastructure.Db

namespace Genzh.Admin

open Genzh.Lib Genzh.Domain Genzh.Infrastructure

/-- What this account is to the platform. An account that is not there has no authority. -/
def roleOf (db : Db) (userId : UserId) : PlatformRole := ((db.users.find userId).map (·.platformRole)).getD .user

/-- One account, by id. -/
def findUser (userId : UserId) : SqlM User := do
  let user ← Prog.read fun db => db.users.find userId
  SqlM.found "user" user

/-- `UPDATE users SET is_active = FALSE` of one account. -/
def suspended (target : UserId) (reason : String) (db : Db) : Db :=
  let suspend := fun u : User => { u with isActive := false, suspendedAt := some db.now, suspensionReason := some reason }
  { db with users := db.users.update target suspend fun _ => rfl }

/-- `UPDATE users SET is_active = TRUE` of one account. -/
def reinstated (target : UserId) (db : Db) : Db :=
  let reinstate := fun u : User => { u with isActive := true, suspendedAt := none, suspensionReason := none }
  { db with users := db.users.update target reinstate fun _ => rfl }

/-- `UPDATE users SET platform_role` of one account. -/
def withRole (target : UserId) (role : PlatformRole) (db : Db) : Db :=
  { db with users := db.users.update target (fun u => { u with platformRole := role }) fun _ => rfl }

/-- Suspend an account. -/
def suspend (actor target : UserId) (reason : String) : SqlM User := do
  Prog.ensure (actor ≠ target) (.denied "suspend_self")
  let subject ← findUser target
  Prog.ensure (!subject.platformRole.isAdmin) (.denied "suspend_admin")
  Prog.modify (suspended target reason)
  findUser target

/-- Lift a suspension. -/
def reinstate (target : UserId) : SqlM User := do
  let _ ← findUser target
  Prog.modify (reinstated target)
  findUser target

/-- Grant or revoke platform authority. -/
def setPlatformRole (actor target : UserId) (role : PlatformRole) : SqlM User := do
  Prog.ensure (actor ≠ target) (.denied "change_own_platform_role")
  let _ ← findUser target
  Prog.modify (withRole target role)
  findUser target

/-- `UPDATE users SET handle` of one account. -/
def renamed (target : UserId) (handle : String) (db : Db) : Db :=
  { db with users := db.users.update target (fun u => { u with handle }) fun _ => rfl }

/-- Does another account have the handle? -/
def handleElsewhere (target : UserId) (handle : String) (db : Db) : Bool :=
  db.users.rows.any fun u => u.id ≠ target && u.handle = handle

/-- Staff update of an account's handle or display name. The handle is not asked to look like one, and `users` has no
column for the display name, so the second statement fails. -/
def updateUserProfile (toLowercase : String → String) (target : UserId) (newHandle newDisplayName : Option String) :
    SqlM User := do
  let _ ← findUser target
  match newHandle with
  | some handle => do
    SqlM.check (fun db => !handleElsewhere target (toLowercase (trim handle)) db) (.conflict "users_handle_key")
    Prog.modify (renamed target (toLowercase (trim handle)))
  | none => pure ()
  match newDisplayName with
  | some _ => SqlM.refuse .database
  | none => findUser target

/-- Force revoke every session of an account. The statement deletes from `refresh_tokens`, a relation that no migration
creates; sessions are rows of `sessions`. `hasRefreshTokens` says whether the database has one from elsewhere, of which
nothing else reads. -/
def revokeAllSessions (hasRefreshTokens : Bool) (target : UserId) : SqlM Unit := do
  let _ ← findUser target
  SqlM.check (fun _ => hasRefreshTokens) .database

/-! ## What the actions write -/

theorem exec_findUser_bind {α : Type} (u : UserId) (f : User → SqlM α) (db : Db) :
    (findUser u >>= f).exec db = match db.users.find u with
      | some user => (f user).exec db
      | none => (.error (.notFound "user"), db) := by
  unfold findUser
  rw [Prog.exec_bind, Prog.exec_read_bind]
  cases db.users.find u <;> rfl

theorem exec_findUser (u : UserId) (db : Db) :
    (findUser u).exec db = (match db.users.find u with
      | some user => .ok user
      | none => .error (.notFound "user"), db) := by
  unfold findUser
  rw [Prog.exec_read_bind]
  cases db.users.find u <;> rfl

theorem exec_revokeAllSessions (hasRefreshTokens : Bool) (target : UserId) (db : Db) :
    (revokeAllSessions hasRefreshTokens target).exec db =
      (if db.users.contains target then if hasRefreshTokens then .ok () else .error (.repository .database)
        else .error (.notFound "user"), db) := by
  unfold revokeAllSessions Table.contains
  rw [exec_findUser_bind]
  rcases db.users.find target with _ | user
  · rfl
  · cases hasRefreshTokens <;> rfl

/-- A suspension that was accepted, and what it leaves of the account. -/
theorem suspend_ok {db db' : Db} {actor target : UserId} {reason : String} {user : User}
    (h : (suspend actor target reason).exec db = (.ok user, db')) :
    db' = suspended target reason db ∧ ∃ row, db.users.find target = some row ∧ row.platformRole.isAdmin = false := by
  unfold suspend at h
  rw [Prog.exec_ensure_bind] at h
  split at h
  · rw [exec_findUser_bind] at h
    rcases hf : db.users.find target with _ | row
    · simp [hf] at h
    · simp only [hf, Prog.exec_ensure_bind, Prog.exec_modify_bind, exec_findUser] at h
      split at h
      · rename_i hrole
        exact ⟨(congrArg Prod.snd h).symm, row, rfl, by simpa using hrole⟩
      · cases h
  · cases h

theorem find_renamed (target : UserId) (handle : String) (db : Db) :
    (renamed target handle db).users.find target =
      (db.users.find target).map fun user => { user with handle } := by
  unfold renamed
  rw [Table.find_update, if_pos rfl]

theorem mem_renamed {target : UserId} {handle : String} {db : Db} {user : User} : user ∈ (renamed target handle db).users.rows ↔
    (∃ old ∈ db.users.rows, old.id = target ∧ { old with handle } = user) ∨ (user ∈ db.users.rows ∧ user.id ≠ target) :=
  Table.mem_update db.users target (fun user => { user with handle }) fun _ => rfl

/-- The handle that an update of a profile comes to write. -/
def writtenHandle (toLowercase : String → String) (target : UserId) (newHandle : Option String) (db : Db) : Option String :=
  (newHandle.map fun handle => toLowercase (trim handle)).filter fun handle =>
    db.users.contains target && !handleElsewhere target handle db

/-- An update of a profile writes a handle or nothing. -/
theorem exec_updateUserProfile (toLowercase : String → String) (target : UserId) (newHandle newDisplayName : Option String)
    (db : Db) : ((updateUserProfile toLowercase target newHandle newDisplayName).exec db).2 =
      (writtenHandle toLowercase target newHandle db).elim db fun handle => renamed target handle db := by
  have hlast : ∀ db : Db, (Prog.exec (match newDisplayName with
      | some _ => SqlM.refuse .database
      | none => findUser target) db).2 = db := by
    intro db
    cases newDisplayName with
    | none => simp only [exec_findUser]
    | some _ => rfl
  unfold updateUserProfile writtenHandle
  rw [exec_findUser_bind]
  rcases hf : db.users.find target with _ | user
  · have hc : db.users.contains target = false := Table.contains_eq_false.2 hf
    cases newHandle <;> simp [hc]
  · have hc : db.users.contains target = true := Table.contains_iff.2 ⟨user, hf⟩
    rcases newHandle with _ | handle
    · exact hlast db
    · simp only
      rw [SqlM.exec_check_bind]
      rcases he : handleElsewhere target (toLowercase (trim handle)) db
      · simpa [Option.filter_some, hc, he] using hlast _
      · simp [Option.filter_some, he]

theorem writtenHandle_some {toLowercase : String → String} {target : UserId} {newHandle : Option String} {db : Db}
    {handle : String} (h : writtenHandle toLowercase target newHandle db = some handle) :
    ∃ raw, newHandle = some raw ∧ toLowercase (trim raw) = handle ∧ db.users.contains target = true ∧
      handleElsewhere target handle db = false := by
  obtain ⟨hmap, hfree⟩ := Option.filter_eq_some_iff.1 h
  obtain ⟨raw, rfl, hraw⟩ := Option.map_eq_some_iff.1 hmap
  rw [Bool.and_eq_true, Bool.not_eq_true'] at hfree
  exact ⟨raw, rfl, hraw, hfree.1, hfree.2⟩

/-- An update of a profile gives one account a handle that no other has, or leaves the accounts alone. -/
theorem updateUserProfile_cases (toLowercase : String → String) (target : UserId) (newHandle newDisplayName : Option String)
    (db : Db) :
    ((updateUserProfile toLowercase target newHandle newDisplayName).exec db).2 = db ∨
    ∃ handle, newHandle = some handle ∧ db.users.contains target = true ∧
      handleElsewhere target (toLowercase (trim handle)) db = false ∧
      ((updateUserProfile toLowercase target newHandle newDisplayName).exec db).2 =
        renamed target (toLowercase (trim handle)) db := by
  rw [exec_updateUserProfile]
  rcases hw : writtenHandle toLowercase target newHandle db with _ | written
  · exact .inl rfl
  · obtain ⟨handle, hhandle, rfl, ht, he⟩ := writtenHandle_some hw
    exact .inr ⟨handle, hhandle, ht, he, rfl⟩

end Genzh.Admin
