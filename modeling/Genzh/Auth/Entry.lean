/-
What the ways in write: a sign-up inserts an account, a log-in none, and a sign-in through a provider opens
the account the identity is linked to, or links it to the account that has its address, or inserts one.
Each may fail at its end, when the session is started, and has written the rest by then.
-/
import Genzh.Auth.SignIns

namespace Genzh.Auth

open Genzh.Lib Genzh.Domain Genzh.Infrastructure

variable {auth : AuthService} {db db' : Db}

/-- The accounts and the links are as they were. -/
structure AccountsKept (db db' : Db) : Prop where
  users : db'.users = db.users
  links : db'.oauthAccounts = db.oauthAccounts

/-- The result is on the account, if there is one. -/
def IsOn (user : User) (r : Except AuthError (AuthenticatedUser × TokenPair)) : Prop :=
  ∀ u tokens, r = .ok (u, tokens) → u.user = user

theorem accountsKept_start (jwt : JwtService) (userId : UserId) (draw : Draw) (db : Db) :
    AccountsKept db ((start jwt userId draw).exec db).2 := by
  rcases start_cases jwt userId draw db with ⟨e, h⟩ | ⟨s, -, -, h⟩
  · rw [h]
    exact ⟨rfl, rfl⟩
  · rw [h]
    exact ⟨rfl, rfl⟩

variable (auth) in
/-- A session started at the end of a way in. -/
theorem start_outcome (u : AuthenticatedUser) (draw : Draw) (db : Db) :
    AccountsKept db ((start auth.jwt u.user.id draw >>= fun tokens => pure (u, tokens)).exec db).2 ∧
      IsOn u.user ((start auth.jwt u.user.id draw >>= fun tokens => pure (u, tokens)).exec db).1 := by
  have hk := accountsKept_start auth.jwt u.user.id draw db
  rw [Prog.exec_bind]
  rcases hs : (start auth.jwt u.user.id draw).exec db with ⟨e | tokens, db'⟩
  · rw [hs] at hk
    exact ⟨hk, fun _ _ h => by cases h⟩
  · rw [hs] at hk
    refine ⟨hk, fun v tokens' h => ?_⟩
    cases h
    rfl

variable (auth) in
theorem enter_outcome (user : User) (draw : Draw) (db : Db) :
    AccountsKept db ((Prog.query (fun db => profileOf db user.id) >>= fun profile =>
        start auth.jwt user.id draw >>= fun tokens => pure (({ user, profile } : AuthenticatedUser), tokens)).exec db).2 ∧
      IsOn user ((Prog.query (fun db => profileOf db user.id) >>= fun profile =>
        start auth.jwt user.id draw >>= fun tokens => pure (({ user, profile } : AuthenticatedUser), tokens)).exec db).1 := by
  rw [Prog.exec_query_bind]
  rcases profileOf db user.id with e | profile
  · exact ⟨⟨rfl, rfl⟩, fun _ _ h => by cases h⟩
  · exact start_outcome auth { user, profile } draw db

variable (auth) in
/-- A registration inserts the account it asks for, or nothing. -/
theorem register_cases (input : RegisterInput) (draw : SignUpDraw) (db : Db) :
    (∃ e, (register auth input draw).exec db = (.error e, db)) ∨
    ∃ user displayName, candidate auth input draw = .ok (user, displayName) ∧ db.users.contains user.id = false ∧
      handleTaken db user.handle = false ∧ emailTaken db user.email = false ∧
      AccountsKept (registeredIn user displayName db) ((register auth input draw).exec db).2 ∧
      IsOn user ((register auth input draw).exec db).1 := by
  unfold register
  rw [Prog.exec_lift_bind]
  rcases hc : candidate auth input draw with e | ⟨user, displayName⟩
  · exact .inl ⟨e, rfl⟩
  · simp only
    rw [Prog.exec_bind, Prog.exec_mapError]
    rcases createUser_cases user displayName db with ⟨hid, hhandle, hemail, hx⟩ | ⟨e, hx⟩
    · rw [hx]
      right
      obtain ⟨hk, hon⟩ := start_outcome auth { user, profile := { userId := user.id, displayName, avatarUrl := none } }
        draw.session (registeredIn user displayName db)
      exact ⟨user, displayName, rfl, hid, hhandle, hemail, hk, hon⟩
    · rw [hx]
      exact .inl ⟨_, rfl⟩

variable (auth) in
/-- A log-in opens the account its credentials belong to. -/
theorem login_cases (input : LoginInput) (draw : Draw) (db : Db) :
    AccountsKept db ((login auth input draw).exec db).2 ∧
      ∀ u tokens, ((login auth input draw).exec db).1 = .ok (u, tokens) → credentials auth input db = .ok u.user := by
  unfold login
  rw [Prog.exec_query_bind]
  rcases hc : credentials auth input db with e | user
  · exact ⟨⟨rfl, rfl⟩, fun _ _ h => by cases h⟩
  · obtain ⟨hk, hon⟩ := enter_outcome auth user draw db
    exact ⟨hk, fun u tokens h => by rw [hon u tokens h]⟩

/-- What a sign-in through a provider comes to. -/
inductive Entry (auth : AuthService) (input : OAuthUserInput) (draw : OAuthDraw) (db : Db) :
    Except AuthError (AuthenticatedUser × TokenPair) → Db → Prop where
  | refused {e : AuthError} : Entry auth input draw db (.error e) db
  | linked {link : OAuthAccount} {user : User} {r : Except AuthError (AuthenticatedUser × TokenPair)} {db' : Db}
      (hlink : db.oauthAccounts.find (input.provider, input.providerUserId) = some link)
      (huser : db.users.find link.userId = some user) (hkeeps : AccountsKept db db') (hon : IsOn user r) : Entry auth input draw db r db'
  | matched {email : String} {user : User} {r : Except AuthError (AuthenticatedUser × TokenPair)} {db' : Db}
      (hlink : db.oauthAccounts.find (input.provider, input.providerUserId) = none)
      (hemail : usableEmail auth.toLowercase input = some email) (hfind : findByIdentifier db email = some user)
      (hkeeps : AccountsKept (Auth.linked (linkTo user.id input email) db) db') (hon : IsOn user r) : Entry auth input draw db r db'
  | provisioned {handle name : String} {r : Except AuthError (AuthenticatedUser × TokenPair)} {db' : Db}
      (hhandle : handle = uniqueHandle auth.toLowercase input draw db)
      (hlink : db.oauthAccounts.contains (input.provider, input.providerUserId) = false)
      (hid : db.users.contains draw.userId = false)
      (hkeeps : AccountsKept (provisionedIn (Auth.provisioned auth.toLowercase input draw handle) name input.avatarUrl
        (linkTo draw.userId input (provisionedEmail auth.toLowercase input)) db) db')
      (hon : IsOn (Auth.provisioned auth.toLowercase input draw handle) r) : Entry auth input draw db r db'

theorem provision_entry (input : OAuthUserInput) (draw : OAuthDraw) (db : Db) :
    Entry auth input draw db ((provision auth input draw).exec db).1 ((provision auth input draw).exec db).2 := by
  unfold provision
  rw [Prog.exec_read_bind, Prog.exec_bind, Prog.exec_mapError]
  rcases createOAuth_cases (Auth.provisioned auth.toLowercase input draw (uniqueHandle auth.toLowercase input draw db))
    (provisionedName input (uniqueHandle auth.toLowercase input draw db)) input.avatarUrl
    (linkTo draw.userId input (provisionedEmail auth.toLowercase input)) db with ⟨hlink, hid, -, -, hx⟩ | ⟨e, hx, -, -⟩
  · rw [hx]
    obtain ⟨hk, hon⟩ := start_outcome auth _ draw.session _
    exact .provisioned rfl hlink hid hk hon
  · rw [hx]
    exact .refused

variable (auth) in
theorem loginOrRegister_entry (input : OAuthUserInput) (draw : OAuthDraw) (db : Db) :
    Entry auth input draw db ((loginOrRegister auth input draw).exec db).1 ((loginOrRegister auth input draw).exec db).2 := by
  unfold loginOrRegister
  rw [Prog.exec_bind, exec_knownAccount]
  unfold linkedAccount
  rcases hl : db.oauthAccounts.find (input.provider, input.providerUserId) with _ | link
  · rcases he : usableEmail auth.toLowercase input with _ | email
    · simp only [exec_matchingEmail_none he]
      exact provision_entry input draw db
    · simp only [exec_matchingEmail_some he]
      rcases hf : findByIdentifier db email with _ | user
      · exact provision_entry input draw db
      · rcases ha : active user with e | user'
        · simp only [ha]
          exact .refused
        · obtain rfl := active_ok ha
          rcases SignIn.linking_cases ⟨input, draw⟩ db user' email with hx | ⟨e, hx⟩
          · simp only [ha, hx]
            obtain ⟨hk, hon⟩ := enter_outcome auth user' draw.session (Auth.linked (linkTo user'.id input email) db)
            exact .matched hl he hf hk hon
          · simp only [ha, hx]
            exact .refused
  · rcases hu : db.users.find link.userId with _ | user
    · simp only [hu]
      exact .refused
    · rcases ha : active user with e | user'
      · simp only [hu, ha]
        exact .refused
      · obtain rfl := active_ok ha
        simp only [hu, ha]
        obtain ⟨hk, hon⟩ := enter_outcome auth user' draw.session db
        exact .linked hl hu hk hon

end Genzh.Auth
