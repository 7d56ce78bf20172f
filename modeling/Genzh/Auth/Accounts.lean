/-
Accounts: signing up with a password, logging in with one, and loading the account behind a request. Every
way in ends with a session.

The lower case of a text and Argon2id come from outside. A salt is drawn for every password that is
hashed.
-/
import Genzh.Auth.Sessions
import Genzh.Domain.User

namespace Genzh.Auth

open Genzh.Lib Genzh.Domain Genzh.Infrastructure

/-- What the authentication service is built from. -/
structure AuthService where
  jwt : JwtService
  toLowercase : String → String
  /-- Argon2id under a salt; `none` where the hasher fails. -/
  hashPassword : String → Uuid → Option String
  verifyPassword : String → String → Bool

/-- Registration input. -/
structure RegisterInput where
  handle : String
  email : String
  password : String
  displayName : Option String
  deriving DecidableEq, Repr

/-- Login input: a handle or an e-mail address. -/
structure LoginInput where
  identifier : String
  password : String
  deriving DecidableEq, Repr

/-- The random values a sign-up draws. -/
structure SignUpDraw where
  userId : UserId
  salt : Uuid
  session : Draw
  deriving DecidableEq, Repr

/-- An authenticated identity plus its public profile. -/
structure AuthenticatedUser where
  user : User
  profile : Profile
  deriving DecidableEq, Repr

/-! ## The user repository -/

/-- `INSERT INTO users`. The database looks at its unique indexes in the order they were made. -/
def insertUser (user : User) : RepoM User := do
  RepoM.check (fun db => !db.users.contains user.id) (.conflict "users_pkey")
  RepoM.check (fun db => db.users.rows.all fun u => u.handle ≠ user.handle) (.conflict "users_handle_key")
  RepoM.check (fun db => db.users.rows.all fun u => u.email ≠ user.email) (.conflict "users_email_key")
  Prog.modify fun db => { db with users := db.users.insert user }
  pure user

/-- `INSERT INTO profiles`. -/
def insertProfile (profile : Profile) : RepoM Profile := do
  RepoM.check (fun db => !db.profiles.contains profile.userId) (.conflict "profiles_pkey")
  Prog.modify fun db => { db with profiles := db.profiles.insert profile }
  pure profile

/-- Create an account and its profile atomically. -/
def createUser (user : User) (displayName : String) : RepoM AuthenticatedUser :=
  Prog.transaction do
    let created ← insertUser user
    let profile ← insertProfile { userId := user.id, displayName, avatarUrl := none }
    pure { user := created, profile }

/-- Find an account by handle or e-mail. Where an account has the one and another account the other, the
row the database happens to return is the one that was inserted first. -/
def findByIdentifier (db : Db) (identifier : String) : Option User :=
  db.users.rows.find? fun u => u.handle = identifier || u.email = identifier

/-- The profile of an account, which every account has. -/
def profileOf (db : Db) (userId : UserId) : Except AuthError Profile :=
  match db.profiles.find userId with
  | some profile => .ok profile
  | none => .error (.repository (.notFound "profile"))

/-! ## The service -/

/-- Turn a unique-index violation into the field the user actually needs to fix. -/
def mapRegistrationError : RepositoryError → AuthError
  | .conflict constraint =>
    if constraint = "users_handle_key" then .alreadyRegistered "handle"
    else if constraint = "users_email_key" then .alreadyRegistered "email"
    else .repository (.conflict constraint)
  | e => .repository e

/-- `Err` of a domain rule, as `?` carries it into an authentication result. -/
def orDomain {α : Type} : Except DomainError α → Except AuthError α
  | .ok a => .ok a
  | .error e => .error (.domain e)

variable (auth : AuthService)

/-- The account a registration asks for, and the display name it gets. -/
def candidate (input : RegisterInput) (draw : SignUpDraw) : Except AuthError (User × String) := do
  let handle ← orDomain (normalizeHandle auth.toLowercase input.handle)
  let email ← orDomain (normalizeEmail auth.toLowercase input.email)
  orDomain (validatePassword input.password)
  let displayName ← match input.displayName with
    | some name => orDomain (validateDisplayName name)
    | none => .ok handle
  match auth.hashPassword input.password draw.salt with
  | none => .error .hashing
  | some hash => .ok ({ id := draw.userId, handle, email, isActive := true, passwordHash := some hash }, displayName)

/-- Create an account and log it straight in. -/
def register (input : RegisterInput) (draw : SignUpDraw) : AuthM (AuthenticatedUser × TokenPair) := do
  let (user, displayName) ← Prog.lift (candidate auth input draw)
  let created ← Prog.mapError mapRegistrationError (createUser user displayName)
  let tokens ← start auth.jwt created.user.id draw.session
  pure (created, tokens)

/-- The account credentials belong to. -/
def credentials (input : LoginInput) (db : Db) : Except AuthError User :=
  match findByIdentifier db (auth.toLowercase (trim input.identifier)) with
  | none => .error .invalidCredentials
  | some user =>
    match user.passwordHash with
    | none => .error .invalidCredentials
    | some hash =>
      if !auth.verifyPassword input.password hash then .error .invalidCredentials
      else if !user.isActive then .error .accountInactive
      else .ok user

/-- Exchange credentials for a token pair. -/
def login (input : LoginInput) (draw : Draw) : AuthM (AuthenticatedUser × TokenPair) := do
  let user ← Prog.query (credentials auth input)
  let profile ← Prog.query fun db => profileOf db user.id
  let tokens ← start auth.jwt user.id draw
  pure ({ user, profile }, tokens)

/-- Load the account and profile behind an authenticated request. -/
def currentUser (userId : UserId) (db : Db) : Except AuthError AuthenticatedUser :=
  match db.users.find userId with
  | none => .error .invalidToken
  | some user =>
    if !user.isActive then .error .accountInactive
    else (profileOf db userId).map fun profile => { user, profile }

/-- The field that is taken is that of the index in the conflict. -/
theorem conflict_of_mapped {e : RepositoryError} {field : String} (h : mapRegistrationError e = .alreadyRegistered field) :
    (field = "handle" ∧ e = .conflict "users_handle_key") ∨ (field = "email" ∧ e = .conflict "users_email_key") := by
  cases e with
  | conflict constraint =>
    unfold mapRegistrationError at h
    simp only at h
    split at h
    · rename_i hc
      cases h
      exact .inl ⟨rfl, by rw [hc]⟩
    · split at h
      · rename_i hc
        cases h
        exact .inr ⟨rfl, by rw [hc]⟩
      · cases h
  | _ => cases h

theorem eq_of_mapped_handle {e : RepositoryError} (h : mapRegistrationError e = .alreadyRegistered "handle") :
    e = .conflict "users_handle_key" := by
  rcases conflict_of_mapped h with ⟨-, hc⟩ | ⟨hfield, -⟩
  · exact hc
  · exact absurd hfield (by decide)

theorem eq_of_mapped_email {e : RepositoryError} (h : mapRegistrationError e = .alreadyRegistered "email") :
    e = .conflict "users_email_key" := by
  rcases conflict_of_mapped h with ⟨hfield, -⟩ | ⟨-, hc⟩
  · exact absurd hfield (by decide)
  · exact hc

/-! ## What the database takes -/

def handleTaken (db : Db) (handle : String) : Bool := db.users.rows.any fun u => u.handle = handle

def emailTaken (db : Db) (email : String) : Bool := db.users.rows.any fun u => u.email = email

theorem exec_insertUser (user : User) (db : Db) :
    (insertUser user).exec db =
      if db.users.contains user.id then (.error (.conflict "users_pkey"), db)
      else if handleTaken db user.handle then (.error (.conflict "users_handle_key"), db)
      else if emailTaken db user.email then (.error (.conflict "users_email_key"), db)
      else (.ok user, { db with users := db.users.insert user }) := by
  have hhandle : (db.users.rows.all fun u => u.handle ≠ user.handle) = !handleTaken db user.handle := by
    simp [handleTaken, List.all_eq_not_any_not]
  have hemail : (db.users.rows.all fun u => u.email ≠ user.email) = !emailTaken db user.email := by
    simp [emailTaken, List.all_eq_not_any_not]
  unfold insertUser
  simp only [RepoM.exec_check_bind, hhandle, hemail, Prog.exec_modify_bind, Prog.exec_pure]
  cases db.users.contains user.id <;> cases handleTaken db user.handle <;> cases emailTaken db user.email <;> rfl

theorem exec_insertProfile (profile : Profile) (db : Db) :
    (insertProfile profile).exec db =
      if db.profiles.contains profile.userId then (.error (.conflict "profiles_pkey"), db)
      else (.ok profile, { db with profiles := db.profiles.insert profile }) := by
  unfold insertProfile
  simp only [RepoM.exec_check_bind, Prog.exec_modify_bind, Prog.exec_pure]
  cases db.profiles.contains profile.userId <;> rfl

/-- An account and its profile, inserted. -/
def registeredIn (user : User) (displayName : String) (db : Db) : Db :=
  { db with
    users := db.users.insert user
    profiles := db.profiles.insert { userId := user.id, displayName, avatarUrl := none } }

/-- A registration goes through, which takes a free identifier, handle and address, or it leaves no trace. -/
theorem createUser_cases (user : User) (displayName : String) (db : Db) :
    (db.users.contains user.id = false ∧ handleTaken db user.handle = false ∧ emailTaken db user.email = false ∧
      (createUser user displayName).exec db =
        (.ok { user, profile := { userId := user.id, displayName, avatarUrl := none } }, registeredIn user displayName db)) ∨
    ∃ e, (createUser user displayName).exec db = (.error e, db) := by
  unfold createUser
  rw [Prog.exec_transaction, Prog.exec_bind, exec_insertUser]
  by_cases hid : db.users.contains user.id
  · rw [if_pos hid]
    exact .inr ⟨_, rfl⟩
  rw [if_neg hid]
  by_cases hh : handleTaken db user.handle
  · rw [if_pos hh]
    exact .inr ⟨_, rfl⟩
  rw [if_neg hh]
  by_cases he : emailTaken db user.email
  · rw [if_pos he]
    exact .inr ⟨_, rfl⟩
  rw [if_neg he]
  simp only
  rw [Prog.exec_bind, exec_insertProfile]
  by_cases hp : db.profiles.contains user.id
  · rw [if_pos hp]
    exact .inr ⟨_, rfl⟩
  · rw [if_neg hp]
    simp only [Bool.not_eq_true] at hid hh he
    exact .inl ⟨hid, hh, he, rfl⟩

theorem candidate_ok {auth : AuthService} {input : RegisterInput} {draw : SignUpDraw} {user : User} {displayName : String}
    (h : candidate auth input draw = .ok (user, displayName)) :
    user.id = draw.userId ∧ normalizeHandle auth.toLowercase input.handle = .ok user.handle ∧
      normalizeEmail auth.toLowercase input.email = .ok user.email := by
  unfold candidate at h
  rcases hh : normalizeHandle auth.toLowercase input.handle with e | handle
  · rw [hh] at h
    cases h
  rcases he : normalizeEmail auth.toLowercase input.email with e | email
  · rw [hh, he] at h
    cases h
  rcases hp : validatePassword input.password with e | _
  · rw [hh, he, hp] at h
    cases h
  rw [hh, he, hp] at h
  rcases hd : input.displayName with _ | name
  · rw [hd] at h
    rcases hx : auth.hashPassword input.password draw.salt with _ | hash
    · rw [hx] at h
      cases h
    · rw [hx] at h
      cases h
      exact ⟨rfl, rfl, rfl⟩
  · rw [hd] at h
    rcases hn : validateDisplayName name with e | name'
    · simp only [hn] at h
      cases h
    · simp only [hn] at h
      rcases hx : auth.hashPassword input.password draw.salt with _ | hash
      · rw [hx] at h
        cases h
      · rw [hx] at h
        cases h
        exact ⟨rfl, rfl, rfl⟩

end Genzh.Auth
