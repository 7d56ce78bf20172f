/-
Signing somebody in with an account they hold somewhere else. Three ways this can go, tried in order: the
provider account is already linked to somebody here; it is not, but a verified e-mail matches an account
that is; or neither, and there is a new account to provision.

The random suffixes and the random handle of the search for a free handle are arguments, as the
identifiers are.
-/
import Genzh.Auth.Accounts
import Genzh.Auth.Handle

namespace Genzh.Auth

open Genzh.Lib Genzh.Domain Genzh.Infrastructure

/-- User information retrieved from an external OAuth provider. -/
structure OAuthUserInput where
  provider : String
  providerUserId : String
  /-- Verified e-mail address from the provider, if provided. -/
  email : Option String
  suggestedHandle : Option String
  displayName : Option String
  avatarUrl : Option String
  deriving DecidableEq, Repr

/-- The random values a sign-in through a provider draws. -/
structure OAuthDraw where
  userId : UserId
  session : Draw
  /-- `rand::random::<u16>()` of each round of the search for a handle. -/
  suffixes : List (BitVec 16)
  handle : Uuid
  deriving DecidableEq, Repr

/-- How many times a colliding handle is retried before giving up on the base. -/
def handleAttempts : Nat := 10

/-! ## The repository -/

/-- `INSERT INTO oauth_accounts`. -/
def insertOAuthAccount (account : OAuthAccount) : RepoM OAuthAccount := do
  RepoM.check (fun db => !db.oauthAccounts.contains (account.provider, account.providerUserId))
    (.conflict "oauth_accounts_provider_user_id_key")
  RepoM.check (fun db => db.userExists account.userId) .foreignKey
  Prog.modify fun db => { db with oauthAccounts := db.oauthAccounts.insert account }
  pure account

/-- `INSERT INTO oauth_accounts .. ON CONFLICT (provider, provider_user_id) DO UPDATE SET email`. The account
that was linked first stays linked. -/
def linked (account : OAuthAccount) (db : Db) : Db :=
  { db with oauthAccounts := db.oauthAccounts.upsert account (fun a => { a with email := account.email }) fun _ => rfl }

/-- Link an OAuth account to an existing user. -/
def linkOAuthAccount (account : OAuthAccount) : RepoM Unit := do
  RepoM.check (fun db => db.oauthAccounts.contains (account.provider, account.providerUserId) ||
    db.userExists account.userId) .foreignKey
  Prog.modify (linked account)

/-- Create a user from OAuth registration and link their OAuth identity atomically. -/
def createOAuth (user : User) (displayName : String) (avatarUrl : Option String) (account : OAuthAccount) :
    RepoM AuthenticatedUser :=
  Prog.transaction do
    let created ← insertUser user
    let profile ← insertProfile { userId := user.id, displayName, avatarUrl }
    let _ ← insertOAuthAccount account
    pure { user := created, profile }

/-! ## The three ways -/

/-- Refuse a deactivated account, whichever route reached it. -/
def active (user : User) : Except AuthError User := if user.isActive then .ok user else .error .accountInactive

/-- The account this provider identity is already attached to. -/
def linkedAccount (input : OAuthUserInput) (db : Db) : Except AuthError (Option User) :=
  match db.oauthAccounts.find (input.provider, input.providerUserId) with
  | none => .ok none
  | some link =>
    match db.users.find link.userId with
    | none => .error (.repository (.notFound "user"))
    | some user => (active user).map some

variable (toLowercase : String → String)

/-- The verified address, where it will normalise. -/
def usableEmail (input : OAuthUserInput) : Option String :=
  input.email.bind fun raw => (normalizeEmail toLowercase raw).toOption

/-- An existing account reachable by the verified e-mail. -/
def emailOwner (input : OAuthUserInput) (db : Db) : Except AuthError (Option User) :=
  match (usableEmail toLowercase input).bind (findByIdentifier db) with
  | none => .ok none
  | some user => (active user).map some

/-- The link an identity gets. -/
def linkTo (userId : UserId) (input : OAuthUserInput) (email : String) : OAuthAccount :=
  { userId, provider := input.provider, providerUserId := input.providerUserId, email := some email }

/-- An existing account reachable by the verified e-mail, which we then link. -/
def matchingEmail (input : OAuthUserInput) : AuthM (Option User) := do
  let owner ← Prog.query (emailOwner toLowercase input)
  match owner, usableEmail toLowercase input with
  | some user, some email => do
    Prog.mapError AuthError.repository (linkOAuthAccount (linkTo user.id input email))
    pure (some user)
  | _, _ => pure none

/-- The address of an account whose provider withholds one. -/
def placeholder (provider providerUserId : String) : String := provider ++ "_" ++ providerUserId ++ "@oauth.genzh.local"

/-- The address a provisioned account gets. -/
def provisionedEmail (input : OAuthUserInput) : String :=
  (usableEmail toLowercase input).getD (placeholder input.provider input.providerUserId)

/-- The handle the search prefers. -/
def baseHandle (input : OAuthUserInput) : String :=
  Handle.preferred toLowercase input.suggestedHandle input.email input.provider input.providerUserId

/-- The candidate of a round of the search: the base, and then the base with the suffix of the round before. -/
def handleCandidate (base : String) (suffixes : List (BitVec 16)) : Nat → String
  | 0 => base
  | n + 1 => Handle.withSuffix base (toString ((suffixes.getD n 0).toNat % 10000))

/-- The first candidate nobody has, from round `n` on; a random one when the attempts are used up. -/
def searchHandle (taken : String → Bool) (base : String) (draw : OAuthDraw) : (left n : Nat) → String
  | 0, _ => Handle.random draw.handle
  | left + 1, n =>
    let candidate := handleCandidate base draw.suffixes n
    if taken candidate then searchHandle taken base draw left (n + 1) else candidate

/-- Find a handle nobody has taken, starting from the one we would prefer. -/
def uniqueHandle (input : OAuthUserInput) (draw : OAuthDraw) (db : Db) : String :=
  searchHandle (fun candidate => (findByIdentifier db candidate).isSome) (baseHandle toLowercase input) draw
    handleAttempts 0

/-- The account a provisioning inserts: it has no password. -/
def provisioned (input : OAuthUserInput) (draw : OAuthDraw) (handle : String) : User :=
  { id := draw.userId, handle, email := provisionedEmail toLowercase input, isActive := true, passwordHash := none }

/-- The display name of the provider, or the handle. -/
def provisionedName (input : OAuthUserInput) (handle : String) : String :=
  (input.displayName.bind fun name => (validateDisplayName name).toOption).getD handle

variable (auth : AuthService)

/-- Create an account for somebody this app has not seen before. -/
def provision (input : OAuthUserInput) (draw : OAuthDraw) : AuthM (AuthenticatedUser × TokenPair) := do
  let handle ← Prog.read (uniqueHandle auth.toLowercase input draw)
  let user := provisioned auth.toLowercase input draw handle
  let account := linkTo draw.userId input (provisionedEmail auth.toLowercase input)
  let created ← Prog.mapError mapRegistrationError
    (createOAuth user (provisionedName input handle) input.avatarUrl account)
  let tokens ← start auth.jwt created.user.id draw.session
  pure (created, tokens)

/-- The account a sign-in opens without provisioning one: the linked account, or the one that is linked now
because its address matches. -/
def knownAccount (input : OAuthUserInput) : AuthM (Option User) := do
  let user ← Prog.query (linkedAccount input)
  match user with
  | some user => pure (some user)
  | none => matchingEmail auth.toLowercase input

/-- Open an account that is there. -/
def enter (user : User) (draw : OAuthDraw) : AuthM (AuthenticatedUser × TokenPair) := do
  let profile ← Prog.query fun db => profileOf db user.id
  let tokens ← start auth.jwt user.id draw.session
  pure ({ user, profile }, tokens)

/-- Sign in through a provider, provisioning an account if this is the first time. -/
def loginOrRegister (input : OAuthUserInput) (draw : OAuthDraw) : AuthM (AuthenticatedUser × TokenPair) := do
  let known ← knownAccount auth input
  match known with
  | some user => enter auth user draw
  | none => provision auth input draw

/-! ## The outcomes of the statements -/

/-- An account, its profile and its link, inserted. -/
def provisionedIn (user : User) (displayName : String) (avatarUrl : Option String) (account : OAuthAccount) (db : Db) :
    Db :=
  { db with
    users := db.users.insert user
    profiles := db.profiles.insert { userId := user.id, displayName, avatarUrl }
    oauthAccounts := db.oauthAccounts.insert account }

theorem exec_insertOAuthAccount (account : OAuthAccount) (db : Db) :
    (insertOAuthAccount account).exec db =
      if db.oauthAccounts.contains (account.provider, account.providerUserId) then
        (.error (.conflict "oauth_accounts_provider_user_id_key"), db)
      else if db.userExists account.userId then
        (.ok account, { db with oauthAccounts := db.oauthAccounts.insert account })
      else (.error .foreignKey, db) := by
  unfold insertOAuthAccount
  simp only [RepoM.exec_check_bind, Prog.exec_modify_bind, Prog.exec_pure]
  cases db.oauthAccounts.contains (account.provider, account.providerUserId) <;> rfl

theorem active_ok {user user' : User} (h : active user = .ok user') : user' = user := by
  unfold active at h
  split at h
  · cases h
    rfl
  · cases h

/-- A provisioning goes through, which takes a free identity, identifier, handle and address; or it leaves no
trace, and a conflict it reports on the handle or the address is one. -/
theorem createOAuth_cases (user : User) (displayName : String) (avatarUrl : Option String) (account : OAuthAccount)
    (db : Db) :
    (db.oauthAccounts.contains (account.provider, account.providerUserId) = false ∧
      db.users.contains user.id = false ∧ handleTaken db user.handle = false ∧ emailTaken db user.email = false ∧
      (createOAuth user displayName avatarUrl account).exec db =
        (.ok { user, profile := { userId := user.id, displayName, avatarUrl } },
          provisionedIn user displayName avatarUrl account db)) ∨
    ∃ e, (createOAuth user displayName avatarUrl account).exec db = (.error e, db) ∧
      (e = .conflict "users_handle_key" → handleTaken db user.handle = true) ∧
      (e = .conflict "users_email_key" → emailTaken db user.email = true) := by
  have hne : ∀ {e e' : RepositoryError} {p : Prop}, e ≠ e' → e = e' → p := fun h h' => absurd h' h
  unfold createOAuth
  rw [Prog.exec_transaction, Prog.exec_bind, exec_insertUser]
  by_cases hid : db.users.contains user.id
  · rw [if_pos hid]
    exact .inr ⟨_, rfl, hne (by decide), hne (by decide)⟩
  rw [if_neg hid]
  by_cases hh : handleTaken db user.handle
  · rw [if_pos hh]
    exact .inr ⟨_, rfl, fun _ => hh, hne (by decide)⟩
  rw [if_neg hh]
  by_cases he : emailTaken db user.email
  · rw [if_pos he]
    exact .inr ⟨_, rfl, hne (by decide), fun _ => he⟩
  rw [if_neg he]
  simp only
  rw [Prog.exec_bind, exec_insertProfile]
  by_cases hp : db.profiles.contains user.id
  · rw [if_pos hp]
    exact .inr ⟨_, rfl, hne (by decide), hne (by decide)⟩
  rw [if_neg hp]
  simp only
  rw [Prog.exec_bind, exec_insertOAuthAccount]
  by_cases ho : db.oauthAccounts.contains (account.provider, account.providerUserId)
  · rw [if_pos ho]
    exact .inr ⟨_, rfl, hne (by decide), hne (by decide)⟩
  rw [if_neg ho]
  rcases hx : (db.users.insert user).contains account.userId
  · refine .inr ⟨.foreignKey, ?_, hne (by decide), hne (by decide)⟩
    rw [if_neg (by rw [Db.userExists, hx]; exact Bool.false_ne_true)]
  · simp only [Bool.not_eq_true] at ho hid hh he
    refine .inl ⟨ho, hid, hh, he, ?_⟩
    rw [if_pos (by rw [Db.userExists, hx])]
    rfl

variable {toLowercase} {auth} {input : OAuthUserInput} {db : Db}

/-- The linking of an identity to the account that has its address. -/
def linking (user : User) (input : OAuthUserInput) (email : String) : AuthM Unit :=
  Prog.mapError AuthError.repository (linkOAuthAccount (linkTo user.id input email))

theorem exec_matchingEmail_none (h : usableEmail toLowercase input = none) :
    (matchingEmail toLowercase input).exec db = (.ok none, db) := by
  unfold matchingEmail emailOwner
  rw [Prog.exec_query_bind, h]
  rfl

theorem exec_matchingEmail_some {email : String} (h : usableEmail toLowercase input = some email) :
    (matchingEmail toLowercase input).exec db = match findByIdentifier db email with
      | none => (.ok none, db)
      | some user =>
        match active user with
        | .error e => (.error e, db)
        | .ok user =>
          match (linking user input email).exec db with
          | (.ok _, db') => (.ok (some user), db')
          | (.error e, db') => (.error e, db') := by
  unfold matchingEmail emailOwner
  rw [Prog.exec_query_bind, h, Option.bind_some]
  rcases hf : findByIdentifier db email with _ | user
  · rfl
  · rcases ha : active user with e | user'
    · simp only [ha]
      rfl
    · simp only [ha]
      change ((linking user' input email >>= fun _ => pure (some user')).exec db) = _
      rw [Prog.exec_bind]
      rcases (linking user' input email).exec db with ⟨_ | _, db'⟩ <;> rfl

theorem exec_knownAccount : (knownAccount auth input).exec db = match linkedAccount input db with
    | .error e => (.error e, db)
    | .ok (some user) => (.ok (some user), db)
    | .ok none => (matchingEmail auth.toLowercase input).exec db := by
  unfold knownAccount
  rw [Prog.exec_query_bind]
  rcases linkedAccount input db with e | (_ | user) <;> rfl

/-! ## What a handle of a provisioning is made of -/

theorem not_mem_digits (n : Nat) : '@' ∉ (toString n).toList := by
  rw [Nat.toString_eq_repr, Nat.toList_repr]
  intro h
  exact absurd (Nat.isDigit_of_mem_toDigits (by decide) (by decide) h) (by decide)

theorem not_mem_handleCandidate {base : String} (hbase : '@' ∉ base.toList) (suffixes : List (BitVec 16)) (n : Nat) :
    '@' ∉ (handleCandidate base suffixes n).toList := by
  cases n with
  | zero => exact hbase
  | succ n => exact Handle.not_mem_withSuffix hbase (not_mem_digits _)

theorem not_mem_searchHandle {base : String} (hbase : '@' ∉ base.toList) (taken : String → Bool) (draw : OAuthDraw)
    (left n : Nat) : '@' ∉ (searchHandle taken base draw left n).toList := by
  induction left generalizing n with
  | zero => exact Handle.not_mem_random _
  | succ left ih =>
    unfold searchHandle
    simp only
    split
    · exact ih (n + 1)
    · exact not_mem_handleCandidate hbase draw.suffixes n

/-- Where the provider's identifier has no `@`, neither has the handle. -/
theorem not_mem_uniqueHandle (hid : '@' ∉ input.providerUserId.toList) (draw : OAuthDraw) (db : Db) :
    '@' ∉ (uniqueHandle toLowercase input draw db).toList := by
  unfold uniqueHandle
  exact not_mem_searchHandle (Handle.not_mem_sanitize hid) _ draw _ _

end Genzh.Auth
