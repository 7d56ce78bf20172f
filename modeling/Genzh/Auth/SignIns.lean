/-
Sign-ins through a provider that run at the same time, one statement of one of them after the other: the
lookup of the link, of the linked account, of the account with the address, the linking, the lookup of the
profile, each lookup of a handle, the transaction that provisions an account, and the insertion of the
session. By itself each is the sign-in of `loginOrRegister`.

What else happens to the database meanwhile is left open: it puts anything in the place of anything, except
the linked identities, which nothing but a sign-in writes.
-/
import Genzh.Auth.OAuth
import Genzh.Auth.Calls

namespace Genzh.Auth.SignIn

open Genzh.Lib Genzh.Domain Genzh.Infrastructure

/-- What a provider says about whoever signs in, and the random values of the sign-in. -/
structure Job where
  input : OAuthUserInput
  draw : OAuthDraw

/-- How far a sign-in has come. -/
inductive Call where
  | begun
  /-- The identity is linked; the account is loaded next. -/
  | linkedTo (userId : UserId)
  /-- It is not, and there is an address to look for. -/
  | unlinked (email : String)
  /-- An account has the address; the identity is linked to it next. -/
  | matched (user : User) (email : String)
  /-- The account is known; its profile is loaded next. -/
  | known (user : User)
  | profiled (u : AuthenticatedUser)
  /-- Round `n` of the search for a handle. -/
  | searching (n : Nat)
  /-- The handle is chosen; the account is inserted next. -/
  | chosen (handle : String)
  | created (u : AuthenticatedUser)
  | finished (provisioned : Bool) (outcome : Except AuthError (AuthenticatedUser × TokenPair))
  deriving DecidableEq

section Advance

variable (auth : AuthService) (job : Job)

/-- The candidate of a round. -/
def Job.candidate (n : Nat) : String := handleCandidate (baseHandle auth.toLowercase job.input) job.draw.suffixes n

/-- The transaction that provisions an account under a handle. -/
def Job.provisioning (handle : String) : Prog Db AuthError AuthenticatedUser :=
  Prog.mapError mapRegistrationError
    (createOAuth (provisioned auth.toLowercase job.input job.draw handle) (provisionedName job.input handle)
      job.input.avatarUrl (linkTo job.draw.userId job.input (provisionedEmail auth.toLowercase job.input)))

/-- The insertion of a session, the last statement of a sign-in. -/
def opening (isNew : Bool) (u : AuthenticatedUser) (db : Db) : Call × Db :=
  let started := (start auth.jwt u.user.id job.draw.session).exec db
  (.finished isNew (started.1.map fun tokens => (u, tokens)), started.2)

/-- The next statement of a sign-in, and what it computes up to the one after. -/
def advance : Call → Db → Call × Db
  | .begun, db =>
    match db.oauthAccounts.find (job.input.provider, job.input.providerUserId) with
    | some link => (.linkedTo link.userId, db)
    | none =>
      match usableEmail auth.toLowercase job.input with
      | some email => (.unlinked email, db)
      | none => (.searching 0, db)
  | .linkedTo userId, db =>
    match db.users.find userId with
    | none => (.finished false (.error (.repository (.notFound "user"))), db)
    | some user =>
      match active user with
      | .ok user => (.known user, db)
      | .error e => (.finished false (.error e), db)
  | .unlinked email, db =>
    match findByIdentifier db email with
    | none => (.searching 0, db)
    | some user =>
      match active user with
      | .ok user => (.matched user email, db)
      | .error e => (.finished false (.error e), db)
  | .matched user email, db =>
    match (linking user job.input email).exec db with
    | (.ok _, db') => (.known user, db')
    | (.error e, db') => (.finished false (.error e), db')
  | .known user, db =>
    match profileOf db user.id with
    | .ok profile => (.profiled { user, profile }, db)
    | .error e => (.finished false (.error e), db)
  | .profiled u, db => opening auth job false u db
  | .searching n, db =>
    if (findByIdentifier db (job.candidate auth n)).isNone then (.chosen (job.candidate auth n), db)
    else if n + 1 < handleAttempts then (.searching (n + 1), db)
    else (.chosen (Handle.random job.draw.handle), db)
  | .chosen handle, db =>
    match (job.provisioning auth handle).exec db with
    | (.ok u, db') => (.created u, db')
    | (.error e, db') => (.finished false (.error e), db')
  | .created u, db => opening auth job true u db
  | .finished isNew outcome, db => (.finished isNew outcome, db)

/-- What else is written while sign-ins run. -/
def elsewhere (written db : Db) : Db := { written with oauthAccounts := db.oauthAccounts }

variable {I : Type} [DecidableEq I]

/-- The sign-ins on the database. -/
abbrev SignIns (I : Type) := System Db I Call

/-- One event of the sign-ins on the database. -/
def step (jobs : I → Job) : SignIns I → Event I Db → SignIns I :=
  System.step (fun i => advance auth (jobs i)) elsewhere

/-- Sign-ins none of which has begun. -/
def begin (db : Db) : SignIns I := { store := db, calls := fun _ => .begun }

end Advance

/-! ## A sign-in by itself -/

section Alone

variable (auth : AuthService) (job : Job) {I : Type} (i : I)

/-- Taken by itself, a sign-in comes from one state to another. -/
abbrev Reaches (c : Call) (db : Db) (c' : Call) (db' : Db) : Prop :=
  System.Reaches (fun _ : I => advance auth job) i c db c' db'

variable {auth job i}

variable (db : Db)

/-- The search ends with the handle of `searchHandle`. -/
theorem reaches_chosen (left n : Nat) (h : left + n = handleAttempts) (hleft : 0 < left) :
    Reaches auth job i (.searching n) db
      (.chosen (searchHandle (fun c => (findByIdentifier db c).isSome) (baseHandle auth.toLowercase job.input) job.draw
        left n)) db := by
  induction left generalizing n with
  | zero => omega
  | succ left ih =>
    unfold searchHandle
    rcases hf : findByIdentifier db (job.candidate auth n) with _ | user
    · have hnone : (findByIdentifier db (handleCandidate (baseHandle auth.toLowercase job.input) job.draw.suffixes n)).isSome =
          false := by rw [show findByIdentifier db (handleCandidate _ _ n) = none from hf]; rfl
      simp only [hnone, Bool.false_eq_true, if_false]
      exact .one (by simp only [advance, hf, Option.isNone_none, if_true]; rfl)
    · have hsome : (findByIdentifier db (handleCandidate (baseHandle auth.toLowercase job.input) job.draw.suffixes n)).isSome =
          true := by rw [show findByIdentifier db (handleCandidate _ _ n) = some user from hf]; rfl
      simp only [hsome, if_true]
      rcases Nat.eq_zero_or_pos left with rfl | hpos
      · -- the attempts are used up
        have hlast : ¬ n + 1 < handleAttempts := by omega
        exact .one (by simp only [advance, hf, Option.isNone_some, Bool.false_eq_true, if_false, hlast, searchHandle])
      · have hnext : n + 1 < handleAttempts := by omega
        refine .head (.searching (n + 1)) db ?_ (ih (n + 1) (by omega) hpos)
        simp only [advance, hf, Option.isNone_some, Bool.false_eq_true, if_false, hnext, if_true]

/-- What comes after the account is known. -/
theorem reaches_known (user : User) :
    Reaches auth job i (.known user) db (.finished false ((enter auth user job.draw).exec db).1)
      ((enter auth user job.draw).exec db).2 := by
  unfold enter
  rw [Prog.exec_query_bind]
  rcases hp : profileOf db user.id with e | profile
  · exact .one (by simp only [advance, hp])
  · refine .head (.profiled { user, profile }) db (by simp only [advance, hp]) (.one ?_)
    simp only [advance, opening]
    rw [Prog.exec_bind]
    rcases (start auth.jwt user.id job.draw.session).exec db with ⟨_ | tokens, db'⟩ <;> rfl

variable (auth job i) in
/-- What comes where there is no account to open. -/
theorem reaches_provision :
    ∃ isNew, Reaches auth job i (.searching 0) db
      (.finished isNew ((provision auth job.input job.draw).exec db).1) ((provision auth job.input job.draw).exec db).2 := by
  unfold provision
  rw [Prog.exec_read_bind]
  have hchosen : Reaches auth job i (.searching 0) db (.chosen (uniqueHandle auth.toLowercase job.input job.draw db)) db :=
    reaches_chosen db handleAttempts 0 rfl (by decide)
  rw [Prog.exec_bind]
  rcases hc : (job.provisioning auth (uniqueHandle auth.toLowercase job.input job.draw db)).exec db with ⟨e | u, db'⟩
  · refine ⟨false, hchosen.trans (.one ?_)⟩
    unfold Job.provisioning at hc
    simp only [advance, Job.provisioning, hc]
  · refine ⟨true, hchosen.trans (.head (.created u) db' ?_ (.one ?_))⟩
    · simp only [advance, hc]
    · unfold Job.provisioning at hc
      simp only [advance, opening, hc]
      rw [Prog.exec_bind]
      rcases (start auth.jwt u.user.id job.draw.session).exec db' with ⟨_ | tokens, db''⟩ <;> rfl

/-- By itself, a sign-in comes to its end with the outcome and the database of `loginOrRegister`. -/
theorem reaches_finished :
    ∃ isNew, Reaches auth job i .begun db (.finished isNew ((loginOrRegister auth job.input job.draw).exec db).1)
      ((loginOrRegister auth job.input job.draw).exec db).2 := by
  unfold loginOrRegister
  rw [Prog.exec_bind, exec_knownAccount]
  unfold linkedAccount
  rcases hl : db.oauthAccounts.find (job.input.provider, job.input.providerUserId) with _ | link
  · rcases he : usableEmail auth.toLowercase job.input with _ | email
    · obtain ⟨isNew, hp⟩ := reaches_provision auth job i db
      simp only [exec_matchingEmail_none he]
      exact ⟨isNew, .head (.searching 0) db (by simp only [advance, hl, he]) hp⟩
    · have hbegun : advance auth job .begun db = (.unlinked email, db) := by simp only [advance, hl, he]
      simp only [exec_matchingEmail_some he]
      rcases hf : findByIdentifier db email with _ | user
      · obtain ⟨isNew, hp⟩ := reaches_provision auth job i db
        exact ⟨isNew, .head _ _ hbegun (.head (.searching 0) db (by simp only [advance, hf]) hp)⟩
      · rcases ha : active user with e | user'
        · exact ⟨false, .head _ _ hbegun (.one (by simp only [advance, hf, ha]))⟩
        · have hmatched : advance auth job (.unlinked email) db = (.matched user' email, db) := by simp only [advance, hf, ha]
          rcases hlink : (linking user' job.input email).exec db with ⟨e | _, db'⟩
          · simp only [ha, hlink]
            exact ⟨false, .head _ _ hbegun (.head _ _ hmatched (.one (by simp only [advance, hlink])))⟩
          · simp only [ha, hlink]
            refine ⟨false, .head _ _ hbegun (.head _ _ hmatched (.head (.known user') db' ?_ (reaches_known db' user')))⟩
            simp only [advance, hlink]
  · have hbegun : advance auth job .begun db = (.linkedTo link.userId, db) := by simp only [advance, hl]
    rcases hu : db.users.find link.userId with _ | user
    · exact ⟨false, .head _ _ hbegun (.one (by simp only [advance, hu]))⟩
    · rcases ha : active user with e | user'
      · exact ⟨false, .head _ _ hbegun (.one (by simp only [advance, hu, ha]; rfl))⟩
      · simp only [hu, ha]
        refine ⟨false, .head _ _ hbegun (.head (.known user') db ?_ (reaches_known db user'))⟩
        simp only [advance, hu, ha]

end Alone

/-! ## What a statement does -/

section Statements

variable (auth : AuthService) (job : Job)

/-- The identity somebody signs in with. -/
def Job.identity : String × String := (job.input.provider, job.input.providerUserId)

/-- Has the sign-in provisioned an account? -/
def provisions : Call → Bool
  | .created _ => true
  | .finished isNew _ => isNew
  | _ => false

/-- The account a provisioning inserts under a handle, with its profile. -/
def Job.account (handle : String) : AuthenticatedUser where
  user := provisioned auth.toLowercase job.input job.draw handle
  profile := { userId := job.draw.userId, displayName := provisionedName job.input handle, avatarUrl := job.input.avatarUrl }

/-- The database with that account. -/
def Job.inserted (handle : String) : Db → Db :=
  provisionedIn (provisioned auth.toLowercase job.input job.draw handle) (provisionedName job.input handle)
    job.input.avatarUrl (linkTo job.draw.userId job.input (provisionedEmail auth.toLowercase job.input))

/-- What the statements of a sign-in do: from its state to the next one, and to the database. -/
inductive Statement (db : Db) : Call → Call → Db → Prop where
  | foundLink {link : OAuthAccount} (hfind : db.oauthAccounts.find job.identity = some link) :
      Statement db .begun (.linkedTo link.userId) db
  | noLink {email : String} (hfind : db.oauthAccounts.find job.identity = none)
      (hemail : usableEmail auth.toLowercase job.input = some email) : Statement db .begun (.unlinked email) db
  | noAddress (hfind : db.oauthAccounts.find job.identity = none) (hemail : usableEmail auth.toLowercase job.input = none) :
      Statement db .begun (.searching 0) db
  | load {userId : UserId} {user : User} (hfind : db.users.find userId = some user) :
      Statement db (.linkedTo userId) (.known user) db
  | matching {email : String} {user : User} (hfind : findByIdentifier db email = some user) :
      Statement db (.unlinked email) (.matched user email) db
  | noMatch {email : String} (hfind : findByIdentifier db email = none) : Statement db (.unlinked email) (.searching 0) db
  | link {user : User} {email : String} :
      Statement db (.matched user email) (.known user) (linked (linkTo user.id job.input email) db)
  | profile {user : User} {profile : Profile} (hfind : profileOf db user.id = .ok profile) :
      Statement db (.known user) (.profiled { user, profile }) db
  | take {n : Nat} (hfree : findByIdentifier db (job.candidate auth n) = none) :
      Statement db (.searching n) (.chosen (job.candidate auth n)) db
  | next {n : Nat} (hn : n + 1 < handleAttempts) : Statement db (.searching n) (.searching (n + 1)) db
  | giveUp {n : Nat} (htaken : findByIdentifier db (job.candidate auth n) ≠ none) (hn : ¬ n + 1 < handleAttempts) :
      Statement db (.searching n) (.chosen (Handle.random job.draw.handle)) db
  | create {handle : String} (hfree : db.oauthAccounts.contains job.identity = false)
      (hid : db.users.contains job.draw.userId = false) (hhandle : handleTaken db handle = false)
      (hemail : emailTaken db (provisionedEmail auth.toLowercase job.input) = false) :
      Statement db (.chosen handle) (.created (job.account auth handle)) (job.inserted auth handle db)
  | clash {handle : String} {e : AuthError} (hhandle : e = .alreadyRegistered "handle" → handleTaken db handle = true)
      (hemail : e = .alreadyRegistered "email" → emailTaken db (provisionedEmail auth.toLowercase job.input) = true) :
      Statement db (.chosen handle) (.finished false (.error e)) db
  | session {c : Call} {u : AuthenticatedUser} {s : Session} (hc : c = .profiled u ∨ c = .created u)
      (hs : newSession auth.jwt u.user.id job.draw.session db.now = some s) (hinsert : insertable s db = true) :
      Statement db c
        (.finished (provisions c) ((orPanic (tokenPair auth.jwt u.user.id job.draw.session db.now)).map fun tokens => (u, tokens)))
        (Auth.inserted s db)
  | refuse {c : Call} {e : AuthError} (hc : ∀ handle, c ≠ .chosen handle) :
      Statement db c (.finished (provisions c) (.error e)) db
  | rest {isNew : Bool} {outcome : Except AuthError (AuthenticatedUser × TokenPair)} :
      Statement db (.finished isNew outcome) (.finished isNew outcome) db

variable {auth job} {db : Db}

variable (job db) in
theorem linking_cases (user : User) (email : String) :
    (linking user job.input email).exec db = (.ok (), linked (linkTo user.id job.input email) db) ∨
      ∃ e, (linking user job.input email).exec db = (.error e, db) := by
  unfold linking linkOAuthAccount
  rw [Prog.exec_mapError, RepoM.exec_check_bind]
  split
  · exact .inl rfl
  · exact .inr ⟨_, rfl⟩

variable (auth job db) in
theorem provisioning_cases (handle : String) :
    (db.oauthAccounts.contains job.identity = false ∧ db.users.contains job.draw.userId = false ∧
      handleTaken db handle = false ∧ emailTaken db (provisionedEmail auth.toLowercase job.input) = false ∧
      (job.provisioning auth handle).exec db = (.ok (job.account auth handle), job.inserted auth handle db)) ∨
    ∃ e, (job.provisioning auth handle).exec db = (.error e, db) ∧
      (e = .alreadyRegistered "handle" → handleTaken db handle = true) ∧
      (e = .alreadyRegistered "email" → emailTaken db (provisionedEmail auth.toLowercase job.input) = true) := by
  unfold Job.provisioning
  rw [Prog.exec_mapError]
  rcases createOAuth_cases (provisioned auth.toLowercase job.input job.draw handle) (provisionedName job.input handle)
    job.input.avatarUrl (linkTo job.draw.userId job.input (provisionedEmail auth.toLowercase job.input)) db with
    ⟨hfree, hid, hhandle, hemail, hx⟩ | ⟨e, hx, hhandle, hemail⟩
  · rw [hx]
    exact .inl ⟨hfree, hid, hhandle, hemail, rfl⟩
  · rw [hx]
    exact .inr ⟨mapRegistrationError e, rfl, fun he => hhandle (eq_of_mapped_handle he), fun he => hemail (eq_of_mapped_email he)⟩

theorem opening_statement {c : Call} {u : AuthenticatedUser} (hc : c = .profiled u ∨ c = .created u) :
    Statement auth job db c (opening auth job (provisions c) u db).1 (opening auth job (provisions c) u db).2 := by
  unfold opening
  rcases start_cases auth.jwt u.user.id job.draw.session db with ⟨e, hx⟩ | ⟨s, hs, hi, hx⟩
  · rw [hx]
    refine .refuse ?_
    rcases hc with rfl | rfl <;> exact fun _ h => by cases h
  · rw [hx]
    exact .session hc hs hi

variable (auth job) in
/-- The next step of a sign-in is one of the statements. -/
theorem advance_statement (c : Call) (db : Db) : Statement auth job db c (advance auth job c db).1 (advance auth job c db).2 := by
  have hno : ∀ {c : Call}, (∀ handle, c ≠ .chosen handle) → provisions c = false →
      ∀ e, Statement auth job db c (.finished false (.error e)) db := by
    intro c hc hp e
    rw [← hp]
    exact .refuse hc
  cases c with
  | begun =>
    simp only [advance]
    rcases hl : db.oauthAccounts.find job.identity with _ | link
    · rcases he : usableEmail auth.toLowercase job.input with _ | email
      · simp only [show db.oauthAccounts.find (job.input.provider, job.input.providerUserId) = none from hl]
        exact .noAddress hl he
      · simp only [show db.oauthAccounts.find (job.input.provider, job.input.providerUserId) = none from hl]
        exact .noLink hl he
    · simp only [show db.oauthAccounts.find (job.input.provider, job.input.providerUserId) = some link from hl]
      exact .foundLink hl
  | linkedTo userId =>
    simp only [advance]
    rcases hu : db.users.find userId with _ | user
    · exact hno (fun _ h => by cases h) rfl _
    · rcases ha : active user with e | user'
      · simp only [ha]
        exact hno (fun _ h => by cases h) rfl _
      · obtain rfl := active_ok ha
        simp only [ha]
        exact .load hu
  | unlinked email =>
    simp only [advance]
    rcases hf : findByIdentifier db email with _ | user
    · exact .noMatch hf
    · rcases ha : active user with e | user'
      · simp only [ha]
        exact hno (fun _ h => by cases h) rfl _
      · obtain rfl := active_ok ha
        simp only [ha]
        exact .matching hf
  | matched user email =>
    simp only [advance]
    rcases linking_cases job db user email with hx | ⟨e, hx⟩
    · rw [hx]
      exact .link
    · rw [hx]
      exact hno (fun _ h => by cases h) rfl _
  | known user =>
    simp only [advance]
    rcases hp : profileOf db user.id with e | profile
    · exact hno (fun _ h => by cases h) rfl _
    · exact .profile hp
  | profiled u => exact opening_statement (c := .profiled u) (.inl rfl)
  | searching n =>
    simp only [advance]
    rcases hf : findByIdentifier db (job.candidate auth n) with _ | user
    · simp only [Option.isNone_none, if_true]
      exact .take hf
    · simp only [Option.isNone_some, Bool.false_eq_true, if_false]
      by_cases hn : n + 1 < handleAttempts
      · simp only [hn, if_true]
        exact .next hn
      · simp only [hn, if_false]
        exact .giveUp (by rw [hf]; exact Option.some_ne_none user) hn
  | chosen handle =>
    simp only [advance]
    rcases provisioning_cases auth job db handle with
      ⟨hfree, hid, hhandle, hemail, hx⟩ | ⟨e, hx, hhandle, hemail⟩
    · rw [hx]
      exact .create hfree hid hhandle hemail
    · rw [hx]
      exact .clash hhandle hemail
  | created u => exact opening_statement (c := .created u) (.inr rfl)
  | finished isNew outcome => exact .rest

end Statements

/-! ## An application -/

/-- ASCII text, and a hasher that only marks what it hashes. -/
def asciiAuth : AuthService where
  jwt := hourly
  toLowercase := fun s => String.ofList (asciiLowercase s.toList)
  hashPassword := fun password _ => some ("argon2:" ++ password)
  verifyPassword := fun password hash => hash = "argon2:" ++ password

/-- A database with two accounts. -/
def twoAccounts : Db :=
  { oneAccount with
    users := oneAccount.users.insert { id := ⟨2⟩, handle := "ben", email := "ben@genzh.test", isActive := true }
    profiles := (Table.empty.insert { userId := ⟨1⟩, displayName := "ana", avatarUrl := none }).insert
      { userId := ⟨2⟩, displayName := "ben", avatarUrl := none } }

end Genzh.Auth.SignIn
