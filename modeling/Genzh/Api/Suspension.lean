/-
What a suspension reaches. It clears one flag of the account's row, and every way in that reads the row
refuses from then on: logging in, signing in through a provider, refreshing, `GET /me`, a media join. An
access token that still verifies and a socket that was authenticated before are not asked about the row,
so between the commit of a suspension and the reinstatement nothing succeeds as the account exactly as
long as neither is used.

`Inactive` is the invariant: no request but a reinstatement clears it.
-/
import Genzh.Api.Endpoints
import Genzh.Room.Accounts

namespace Genzh.Api

open Genzh.Lib Genzh.Domain Genzh.Infrastructure Genzh.Auth Genzh.Admin Genzh.Room

/-- The account is there and deactivated. -/
def Inactive (a : UserId) (db : Db) : Prop := ∃ row, db.users.find a = some row ∧ row.isActive = false

/-- Whoever is suspended before is suspended after. -/
def Keeps (a : UserId) (db db' : Db) : Prop := Inactive a db → Inactive a db'

/-! ## What keeps a suspension -/

section Keeps

variable {E α β : Type} {a : UserId}

theorem keeps_of_frames {m : Prog Db E α} (h : Prog.Frames Db.users m) : Prog.Leads (Keeps a) m := by
  refine Prog.Keeps.of_frames (I := Inactive a) (fun db db' husers hi => ?_) h
  unfold Inactive
  rw [husers]
  exact hi

theorem keeps_bind {m : Prog Db E α} {f : α → Prog Db E β} (hm : Prog.Leads (Keeps a) m)
    (hf : ∀ x, Prog.Leads (Keeps a) (f x)) : Prog.Leads (Keeps a) (m >>= f) :=
  Prog.Keeps.bind (I := Inactive a) hm hf

theorem keeps_transaction {m : Prog Db E α} (hm : Prog.Leads (Keeps a) m) : Prog.Leads (Keeps a) (Prog.transaction m) :=
  Prog.Leads.transaction (fun _ h => h) hm

theorem keeps_mapError {E' : Type} {f : E → E'} {m : Prog Db E α} (hm : Prog.Leads (Keeps a) m) :
    Prog.Leads (Keeps a) (Prog.mapError f m) := by
  intro db hi
  rw [Prog.exec_mapError]
  exact hm db hi

/-- An update that leaves the flag of the account alone keeps it. -/
theorem keeps_update {f : User → User} {hf} {t : UserId} {db : Db} (h : t = a → ∀ u, u.isActive = false → (f u).isActive = false) :
    Keeps a db { db with users := db.users.update t f hf } := by
  rintro ⟨row, hrow, hinactive⟩
  unfold Inactive
  simp only [Table.find_update, hrow]
  split
  · exact ⟨f row, rfl, h ‹_› row hinactive⟩
  · exact ⟨row, rfl, hinactive⟩

/-- A new account is not one that is there already. -/
theorem keeps_insertUser (user : User) : Prog.Leads (Keeps a) (insertUser user) := by
  refine keeps_bind (keeps_of_frames (RepoM.frames_check _ _)) fun _ => ?_
  refine keeps_bind (keeps_of_frames (RepoM.frames_check _ _)) fun _ => ?_
  refine keeps_bind (keeps_of_frames (RepoM.frames_check _ _)) fun _ => ?_
  refine keeps_bind ?_ fun _ => keeps_of_frames (Prog.Frames.pure _)
  rintro db ⟨row, hrow, hinactive⟩
  exact ⟨row, by rw [Prog.exec_modify, Table.find_insert, hrow]; rfl, hinactive⟩

theorem users_insertProfile (profile : Profile) : Prog.Frames Db.users (insertProfile profile) :=
  (RepoM.frames_check _ _).bind fun _ => Prog.Frames.bind (Prog.Frames.modify fun _ => rfl) fun _ => Prog.Frames.pure _

theorem keeps_createUser (user : User) (name : String) : Prog.Leads (Keeps a) (createUser user name) := by
  refine keeps_transaction (keeps_bind (keeps_insertUser user) fun _ => keeps_of_frames ?_)
  exact (users_insertProfile _).bind fun _ => Prog.Frames.pure _

theorem keeps_createOAuth (user : User) (name : String) (avatar : Option String) (account : OAuthAccount) :
    Prog.Leads (Keeps a) (createOAuth user name avatar account) := by
  refine keeps_transaction (keeps_bind (keeps_insertUser user) fun _ => keeps_of_frames ?_)
  refine (users_insertProfile _).bind fun _ => Prog.Frames.bind ?_ fun _ => Prog.Frames.pure _
  refine (RepoM.frames_check _ _).bind fun _ => (RepoM.frames_check _ _).bind fun _ => ?_
  exact Prog.Frames.bind (Prog.Frames.modify fun _ => rfl) fun _ => Prog.Frames.pure _

variable (auth : AuthService)

theorem keeps_register (input : RegisterInput) (draw : SignUpDraw) : Prog.Leads (Keeps a) (Auth.register auth input draw) := by
  refine keeps_bind (keeps_of_frames (Prog.Frames.lift _)) fun found => ?_
  refine keeps_bind (keeps_mapError (keeps_createUser _ _)) fun created => ?_
  exact keeps_of_frames ((users_start auth.jwt _ draw.session).bind fun _ => Prog.Frames.pure _)

theorem keeps_login (input : LoginInput) (draw : Draw) : Prog.Leads (Keeps a) (login auth input draw) := by
  refine keeps_of_frames ((Prog.Frames.query _).bind fun user => (Prog.Frames.query _).bind fun _ => ?_)
  exact (users_start auth.jwt _ draw).bind fun _ => Prog.Frames.pure _

theorem keeps_matchingEmail (input : OAuthUserInput) : Prog.Frames Db.users (matchingEmail auth.toLowercase input) := by
  refine (Prog.Frames.query _).bind fun owner => ?_
  split
  · refine Prog.Frames.bind (Prog.Frames.mapError ?_) fun _ => Prog.Frames.pure _
    exact (RepoM.frames_check _ _).bind fun _ => Prog.Frames.modify fun _ => rfl
  · exact Prog.Frames.pure _

theorem keeps_oauth (input : OAuthUserInput) (draw : OAuthDraw) : Prog.Leads (Keeps a) (loginOrRegister auth input draw) := by
  refine keeps_bind (keeps_of_frames ((Prog.Frames.query _).bind fun user => ?_)) fun known => ?_
  · cases user with
    | some user => exact Prog.Frames.pure _
    | none => exact keeps_matchingEmail auth input
  · cases known with
    | some user =>
      exact keeps_of_frames ((Prog.Frames.query _).bind fun _ =>
        (users_start auth.jwt _ draw.session).bind fun _ => Prog.Frames.pure _)
    | none =>
      refine keeps_bind (keeps_of_frames (Prog.Frames.read _)) fun handle => ?_
      refine keeps_bind (keeps_mapError (keeps_createOAuth _ _ _ _)) fun created => ?_
      exact keeps_of_frames ((users_start auth.jwt _ draw.session).bind fun _ => Prog.Frames.pure _)

end Keeps

/-! ## Staff actions -/

section Staff

variable {a : UserId}

theorem users_findUser (u : UserId) : Prog.Frames Db.users (findUser u) := by
  intro db
  rw [exec_findUser]

theorem keeps_suspend (actor target : UserId) (reason : String) : Prog.Leads (Keeps a) (suspend actor target reason) := by
  refine keeps_bind (keeps_of_frames (Prog.Frames.ensure _ _)) fun _ => ?_
  refine keeps_bind (keeps_of_frames (users_findUser _)) fun _ => ?_
  refine keeps_bind (keeps_of_frames (Prog.Frames.ensure _ _)) fun _ => ?_
  refine keeps_bind (fun db => ?_) fun _ => keeps_of_frames (users_findUser _)
  exact keeps_update fun _ _ _ => rfl

theorem keeps_reinstate {target : UserId} (h : target ≠ a) : Prog.Leads (Keeps a) (reinstate target) := by
  refine keeps_bind (keeps_of_frames (users_findUser _)) fun _ => ?_
  refine keeps_bind (fun db => ?_) fun _ => keeps_of_frames (users_findUser _)
  exact keeps_update fun ht => absurd ht h

theorem keeps_setPlatformRole (actor target : UserId) (role : PlatformRole) :
    Prog.Leads (Keeps a) (setPlatformRole actor target role) := by
  refine keeps_bind (keeps_of_frames (Prog.Frames.ensure _ _)) fun _ => ?_
  refine keeps_bind (keeps_of_frames (users_findUser _)) fun _ => ?_
  refine keeps_bind (fun db => ?_) fun _ => keeps_of_frames (users_findUser _)
  exact keeps_update fun _ _ h => h

theorem frames_findUser (u : UserId) : Prog.Frames id (findUser u) := by
  intro db
  rw [exec_findUser]

/-- A reinstatement that is refused writes nothing. -/
theorem clean_reinstate (target : UserId) : Prog.Clean (reinstate target) := by
  intro db h
  unfold reinstate at h ⊢
  rw [exec_findUser_bind] at h ⊢
  rcases hf : db.users.find target with _ | row
  · rfl
  · -- The account is there, so the second lookup finds it too.
    simp [hf, Prog.exec_modify_bind, exec_findUser, reinstated, Table.find_update, Except.isOk, Except.toBool] at h

end Staff

/-! ## The step -/

variable {cfg : Config} {a : UserId}

/-- The same, of a program over the world. -/
def Stays (a : UserId) (w w' : World) : Prop := Keeps a w.db w'.db

theorem exec_onDb {E α : Type} (f : E → ApiError) (m : Prog Db E α) (w : World) :
    (onDb f m).exec w = ((m.exec w.db).1.mapError f, { w with db := (m.exec w.db).2 }) := by
  rcases h : m.exec w.db with ⟨_ | a, db⟩ <;> simp only [onDb, Prog.exec] at h ⊢ <;> rw [h] <;> rfl

theorem keeps_onDb {E α : Type} {I : Db → Prop} {f : E → ApiError} {m : Prog Db E α} (hm : Prog.Keeps I m) :
    Prog.Keeps (fun w : World => I w.db) (onDb f m) := by
  intro w h
  rw [exec_onDb]
  exact hm w.db h

theorem stays_onDb {E α : Type} {f : E → ApiError} {m : Prog Db E α} (hm : Prog.Leads (Keeps a) m) :
    Prog.Leads (Stays a) (onDb f m) :=
  keeps_onDb (I := Inactive a) hm

theorem stays_bind {α β : Type} {m : ApiM α} {f : α → ApiM β} (hm : Prog.Leads (Stays a) m)
    (hf : ∀ x, Prog.Leads (Stays a) (f x)) : Prog.Leads (Stays a) (m >>= f) :=
  Prog.Keeps.bind (I := fun w : World => Inactive a w.db) hm hf

/-- What leaves the database alone keeps the suspension. -/
theorem stays_of_frames {α : Type} {m : ApiM α} (h : Prog.Frames World.db m) : Prog.Leads (Stays a) m := by
  intro w hi
  rw [show ((m.exec w).2).db = w.db from h w]
  exact hi

theorem frames_bearer (token : AccessClaims) : Prog.Frames World.db (bearer cfg token) := Prog.Frames.query _

theorem frames_requireStaff (caller : UserId) : Prog.Frames World.db (requireStaff caller) :=
  (Prog.Frames.read _).bind fun _ => (Prog.Frames.ensure _ _).bind fun _ => Prog.Frames.pure _

theorem frames_requireAdmin (caller : UserId) : Prog.Frames World.db (requireAdmin caller) :=
  (frames_requireStaff caller).bind fun _ => Prog.Frames.ensure _ _

theorem frames_socketAuth (i : Nat) (token : AccessClaims) : Prog.Frames World.db (socketAuth cfg i token) :=
  (Prog.Frames.query _).bind fun _ => Prog.Frames.modify fun _ => rfl

theorem frames_socketCommand (i : Nat) (c : Command) : Prog.Frames World.db (socketCommand i c) := by
  refine (Prog.Frames.read _).bind fun s => Prog.Frames.bind (Prog.Frames.modify fun _ => rfl) fun _ => ?_
  refine (Prog.Frames.ensure _ _).bind fun _ => ?_
  cases c with
  | subscribe r => exact (Prog.Frames.read _).bind fun _ => Prog.Frames.ensure _ _
  | unsubscribe r => exact Prog.Frames.pure _
  | focus r => exact Prog.Frames.pure _

theorem stays_socketSend (i : Nat) (id : MessageId) (r : RoomId) (content : String) (isAnonymous : Option Bool)
    (verdict : Option Messaging.FloodVerdict) :
    Prog.Leads (Stays a) (socketSend i id r content isAnonymous verdict) := by
  refine stays_bind (stays_of_frames (Prog.Frames.read _)) fun session => ?_
  cases session.currentUser with
  | none => exact stays_of_frames (Prog.Frames.fail _)
  | some user =>
    refine stays_bind (stays_of_frames (Prog.Frames.ensure _ _)) fun _ => ?_
    refine stays_bind (stays_of_frames (Prog.Frames.modify fun _ => rfl)) fun _ => ?_
    refine stays_bind (stays_of_frames (Prog.Frames.read _)) fun masked => ?_
    refine stays_bind (stays_onDb (keeps_of_frames (users_post _ _ _ _ _ _ _))) fun _ => ?_
    cases masked with
    | true => exact stays_onDb (f := .service) (keeps_of_frames (frames_identity (fun _ _ => rfl) r user).attempt)
    | false => exact stays_of_frames (Prog.Frames.pure _)

/-- Is the event a reinstatement of the account that is accepted? -/
def reinstates (cfg : Config) (w : World) (a : UserId) : Event → Bool
  | .staff token (.reinstate target) => target = a && succeeds cfg w (.staff token (.reinstate target))
  | _ => false

/-- The staff endpoints other than a reinstatement of the account keep the suspension. -/
theorem stays_serveStaff (caller : UserId) {endpoint : StaffEndpoint} (h : endpoint ≠ .reinstate a) :
    Prog.Leads (Stays a) (serveStaff caller endpoint) := by
  have hfind : ∀ u, Prog.Leads (Stays a) (onDb ApiError.service (findUser u)) :=
    fun u => stays_onDb (keeps_of_frames (users_findUser u))
  have hadmin : Prog.Leads (Stays a) (requireAdmin caller) := stays_of_frames (frames_requireAdmin caller)
  cases endpoint with
  | findUser target =>
    refine stays_bind (stays_of_frames (frames_requireStaff caller)) fun _ => ?_
    exact stays_bind (hfind target) fun _ => stays_of_frames (Prog.Frames.pure _)
  | suspend target reason =>
    refine stays_bind hadmin fun _ => stays_bind (stays_of_frames (Prog.Frames.ensure _ _)) fun _ => ?_
    refine stays_bind (hfind caller) fun _ => ?_
    exact stays_bind (stays_onDb (keeps_suspend _ _ _)) fun _ => stays_of_frames (Prog.Frames.pure _)
  | reinstate target =>
    refine stays_bind hadmin fun _ => stays_bind (hfind caller) fun _ => ?_
    refine stays_bind (stays_onDb (keeps_reinstate ?_)) fun _ => stays_of_frames (Prog.Frames.pure _)
    rintro rfl
    exact h rfl
  | setPlatformRole target role =>
    refine stays_bind hadmin fun _ => stays_bind (hfind caller) fun _ => ?_
    exact stays_bind (stays_onDb (keeps_setPlatformRole _ _ _)) fun _ => stays_of_frames (Prog.Frames.pure _)
  | terminate r =>
    refine stays_bind hadmin fun _ => stays_bind (hfind caller) fun _ => ?_
    exact stays_onDb (keeps_of_frames (users_terminate r))

theorem frames_onDb {E α : Type} {f : E → ApiError} {m : Prog Db E α} (hm : Prog.Frames id m) :
    Prog.Frames id (onDb f m) := by
  intro w
  rw [exec_onDb, show (m.exec w.db).2 = w.db from hm w.db]

theorem clean_onDb {E α : Type} {f : E → ApiError} {m : Prog Db E α} (hm : Prog.Clean m) : Prog.Clean (onDb f m) := by
  intro w h
  rw [exec_onDb] at h ⊢
  have hok : (m.exec w.db).1.isOk = false := by
    rcases hr : (m.exec w.db).1 with e | x
    · rfl
    · rw [hr] at h
      cases h
  simp only [hm w.db hok]

/-- A reinstatement that is not accepted changes nothing. -/
theorem reinstate_unaccepted {token : AccessClaims} {target : UserId} {w : World}
    (h : succeeds cfg w (.staff token (.reinstate target)) = false) :
    step cfg w (.staff token (.reinstate target)) = w := by
  have hclean : Prog.Clean (respond cfg (.staff token (.reinstate target))) := by
    refine Prog.Clean.bind (Prog.Frames.query _) fun caller => ?_
    refine Prog.Clean.bind ?_ fun _ => Prog.Clean.bind (frames_onDb (frames_findUser _)) fun _ => ?_
    · refine Prog.Frames.bind ?_ fun _ => Prog.Frames.ensure _ _
      exact (Prog.Frames.read _).bind fun _ => (Prog.Frames.ensure _ _).bind fun _ => Prog.Frames.pure _
    · exact (clean_onDb (clean_reinstate target)).seq fun _ _ => rfl
  exact hclean w h

/-- Whatever happens but a reinstatement of the account keeps the suspension. -/
theorem stays_respond {e : Event} (h : ∀ token, e ≠ .staff token (.reinstate a)) : Prog.Leads (Stays a) (respond cfg e) := by
  have hbearer : ∀ {token : AccessClaims} {f : CurrentUser → ApiM Unit}, (∀ caller, Prog.Leads (Stays a) (f caller)) →
      Prog.Leads (Stays a) (bearer cfg token >>= f) := fun hf => stays_bind (stays_of_frames (frames_bearer _)) hf
  have hpure : ∀ {α : Type} (x : α), Prog.Leads (Stays a) (pure () : ApiM Unit) := fun _ => stays_of_frames (Prog.Frames.pure _)
  cases e with
  | request token endpoint =>
    exact hbearer fun caller => stays_onDb (keeps_of_frames (users_handle (by cases endpoint <;> rfl)))
  | me token => exact hbearer fun caller => stays_bind (stays_onDb (keeps_of_frames (Prog.Frames.query _))) hpure
  | mediaJoin token r =>
    refine hbearer fun caller => stays_bind (stays_onDb (keeps_of_frames (Prog.Frames.query _))) fun user => ?_
    exact stays_bind (stays_onDb (keeps_of_frames (users_mediaJoin _ _ _ _))) hpure
  | staff token endpoint =>
    refine hbearer fun caller => stays_serveStaff _ ?_
    rintro rfl
    exact h token rfl
  | register input draw =>
    refine stays_bind (stays_of_frames (Prog.Frames.ensure _ _)) fun _ => ?_
    exact stays_bind (stays_onDb (keeps_register _ _ _)) hpure
  | login input draw => exact stays_bind (stays_onDb (keeps_login _ _ _)) hpure
  | oauth input draw => exact stays_bind (stays_onDb (keeps_oauth _ _ _)) hpure
  | refresh refreshToken draw => exact stays_bind (stays_onDb (keeps_of_frames (users_refresh _ _ _))) hpure
  | logout refreshToken => exact stays_onDb (keeps_of_frames (users_endSession _ _))
  | socketOpen i token =>
    refine stays_bind (stays_of_frames (Prog.Frames.modify fun _ => rfl)) fun _ => ?_
    cases token with
    | some token => exact stays_of_frames (frames_socketAuth i token)
    | none => exact hpure ()
  | socketAuth i token => exact stays_of_frames (frames_socketAuth i token)
  | socketCommand i c => exact stays_of_frames (frames_socketCommand i c)
  | socketSend i id r content isAnonymous verdict => exact stays_socketSend i id r content isAnonymous verdict
  | expire => exact stays_onDb (keeps_of_frames (users_handle rfl))
  | reap grace => exact stays_onDb (keeps_of_frames (users_handle rfl))
  | clock now => exact fun w hi => hi

/-- One step keeps the suspension, unless it is an accepted reinstatement of the account. -/
theorem inactive_step {w : World} {e : Event} (hi : Inactive a w.db) (hr : reinstates cfg w a e = false) :
    Inactive a (step cfg w e).db := by
  by_cases he : ∃ token, e = .staff token (.reinstate a)
  · obtain ⟨token, rfl⟩ := he
    rw [reinstate_unaccepted (by simpa [reinstates] using hr)]
    exact hi
  · exact stays_respond (fun token h => he ⟨token, h⟩) w hi

/-! ## What is refused -/

/-- Does the token resolve to the account? -/
def resolves (cfg : Config) (w : World) (a : UserId) (token : AccessClaims) : Bool :=
  match cfg.auth.jwt.authenticate token w.db.now with
  | .ok caller => caller.userId = a
  | .error _ => false

/-- Is it the account the identity is linked to, or else the one its address belongs to? -/
def opens (cfg : Config) (db : Db) (a : UserId) (input : OAuthUserInput) : Bool :=
  match db.oauthAccounts.find (input.provider, input.providerUserId) with
  | some link => link.userId = a
  | none => ((usableEmail cfg.auth.toLowercase input).bind (findByIdentifier db)).any fun user => user.id = a

/-- Is the event authorised as the account? -/
def actsAs (cfg : Config) (w : World) (a : UserId) : Event → Bool
  | .request token _ | .me token | .mediaJoin token _ | .staff token _ => resolves cfg w a token
  | .login input _ =>
    (findByIdentifier w.db (cfg.auth.toLowercase (trim input.identifier))).any fun user => user.id = a
  | .oauth input _ => opens cfg w.db a input
  | .refresh refreshToken _ =>
    (findByTokenHash w.db (cfg.auth.jwt.hashRefreshToken refreshToken)).any fun session => session.userId = a
  | .socketOpen _ token => token.any (resolves cfg w a)
  | .socketAuth _ token => resolves cfg w a token
  | .socketCommand i _ | .socketSend i .. => (w.sockets i).currentUser = some a
  | .register .. | .logout _ | .expire | .reap _ | .clock _ => false

/-- The role an endpoint of the console is for. -/
def allowed (role : PlatformRole) : StaffEndpoint → Bool
  | .findUser _ => role.isStaff
  | .suspend .. | .reinstate _ | .setPlatformRole .. | .terminate _ => role.isAdmin

/-- Is the event let in as the account by an access token or a socket alone, with nothing that asks whether
the account is active? -/
def unasked (cfg : Config) (w : World) (a : UserId) : Event → Bool
  | .request token _ => resolves cfg w a token
  | .staff token endpoint => resolves cfg w a token && allowed (roleOf w.db a) endpoint
  | .socketOpen _ token => token.any (resolves cfg w a)
  | .socketAuth _ token => resolves cfg w a token
  | .socketCommand i _ | .socketSend i .. => (w.sockets i).currentUser = some a
  | .me _ | .mediaJoin .. | .login .. | .oauth .. | .refresh .. | .register .. | .logout _ | .expire | .reap _
  | .clock _ => false

theorem bearer_resolves {w : World} {token : AccessClaims} (h : resolves cfg w a token = true) :
    ∃ caller, (bearer cfg token).exec w = (.ok caller, w) ∧ caller.userId = a := by
  unfold resolves at h
  unfold bearer
  rw [Prog.exec_query]
  rcases hc : cfg.auth.jwt.authenticate token w.db.now with e | caller
  · simp [hc] at h
  · exact ⟨caller, rfl, by simpa [hc] using h⟩

/-- Whatever loads the account of the caller refuses a suspended one. -/
theorem currentUser_inactive {db : Db} (hi : Inactive a db) : currentUser a db = .error .accountInactive := by
  obtain ⟨row, hrow, hinactive⟩ := hi
  simp [currentUser, hrow, hinactive]

theorem checkAccount_inactive {db : Db} (hi : Inactive a db) : checkAccount db a = .error .accountInactive := by
  obtain ⟨row, hrow, hinactive⟩ := hi
  simp [checkAccount, hrow, hinactive]

/-- A row of the account is the suspended one. -/
theorem inactive_row {db : Db} (hi : Inactive a db) {user : User} (hu : user ∈ db.users.rows) (ha : user.id = a) :
    user.isActive = false := by
  obtain ⟨row, hrow, hinactive⟩ := hi
  have := Table.mem_iff_find.1 hu
  rw [show key user = a from ha, hrow] at this
  rwa [← Option.some.inj this]

theorem mem_of_findByIdentifier {db : Db} {identifier : String} {user : User}
    (h : findByIdentifier db identifier = some user) : user ∈ db.users.rows := List.mem_of_find?_eq_some h

/-- Credentials of a suspended account are refused, right or wrong. -/
theorem credentials_inactive (auth : AuthService) {db : Db} {input : LoginInput} {user : User} (hi : Inactive a db)
    (hf : findByIdentifier db (auth.toLowercase (trim input.identifier)) = some user) (ha : user.id = a) :
    ∃ e, credentials auth input db = .error e := by
  have hinactive := inactive_row hi (mem_of_findByIdentifier hf) ha
  unfold credentials
  simp only [hf, hinactive]
  rcases user.passwordHash with _ | hash
  · exact ⟨_, rfl⟩
  · by_cases hv : auth.verifyPassword input.password hash
    · exact ⟨.accountInactive, by simp [hv]⟩
    · exact ⟨.invalidCredentials, by simp [hv]⟩

/-- So is an identity that would open it. -/
theorem knownAccount_inactive {db : Db} {input : OAuthUserInput} (hi : Inactive a db)
    (ho : opens cfg db a input = true) :
    (knownAccount cfg.auth input).exec db = (.error .accountInactive, db) := by
  unfold opens at ho
  unfold knownAccount
  rw [Prog.exec_query_bind]
  unfold linkedAccount
  rcases hl : db.oauthAccounts.find (input.provider, input.providerUserId) with _ | link
  · rw [hl] at ho
    obtain ⟨user, hu, ha⟩ := (Option.any_eq_true _ _).1 ho
    obtain ⟨email, -, hf⟩ := Option.bind_eq_some_iff.1 hu
    have hinactive := inactive_row hi (mem_of_findByIdentifier hf) (of_decide_eq_true ha)
    simp only
    unfold matchingEmail emailOwner
    rw [Prog.exec_query_bind, hu]
    simp [active, hinactive, Except.map]
  · rw [hl] at ho
    obtain ⟨row, hrow, hinactive⟩ := hi
    have ha : link.userId = a := of_decide_eq_true ho
    simp [ha, hrow, active, hinactive, Except.map]

/-- And a refresh token of a session of the account: revoked, it is taken for a theft; live, the account is
asked about. -/
theorem refresh_inactive {jwt : JwtService} {db : Db} {refreshToken : String} {draw : Draw}
    {session : Infrastructure.Session} (hi : Inactive a db)
    (hf : findByTokenHash db (jwt.hashRefreshToken refreshToken) = some session) (ha : session.userId = a) :
    ((refresh jwt refreshToken draw).exec db).1.isOk = false := by
  unfold refresh
  rw [Prog.exec_query_bind]
  unfold presented
  simp only [hf]
  by_cases hr : session.revokedAt.isSome
  · simp only [hr, if_true]
    rfl
  · by_cases hu : isUsable session db.now
    · simp only [hr, hu, if_true, Bool.false_eq_true, if_false]
      rw [Prog.exec_query_bind, ha, checkAccount_inactive hi]
      rfl
    · simp only [hr, hu, Bool.false_eq_true, if_false]
      rfl

/-- A call that fails fails its endpoint. -/
theorem isOk_onDb {E α : Type} {f : E → ApiError} {m : Prog Db E α} {k : α → ApiM Unit} {w : World}
    (h : (m.exec w.db).1.isOk = false) : ((onDb f m >>= k).exec w).1.isOk = false := by
  rw [Prog.exec_bind, exec_onDb]
  rcases hm : (m.exec w.db).1 with e | x
  · rfl
  · rw [hm] at h
    cases h

/-- The console is for those whose role an endpoint is for. -/
theorem serveStaff_refused {w : World} {caller : UserId} {endpoint : StaffEndpoint}
    (h : allowed (roleOf w.db caller) endpoint = false) : ((serveStaff caller endpoint).exec w).1.isOk = false := by
  have hadmin : (roleOf w.db caller).isAdmin = false → ∃ e, (requireAdmin caller).exec w = (.error e, w) := by
    intro hrole
    unfold requireAdmin requireStaff
    by_cases hs : (roleOf w.db caller).isStaff
    · exact ⟨.forbidden "platform_admin", by simp [Prog.exec_bind, Prog.exec_ensure, hs, hrole]⟩
    · exact ⟨.domain (.notFound "resource"), by simp [Prog.exec_bind, Prog.exec_ensure, hs]⟩
  cases endpoint with
  | findUser target =>
    unfold serveStaff requireStaff
    simp [Prog.exec_bind, Prog.exec_ensure, show (roleOf w.db caller).isStaff = false from h, Except.isOk, Except.toBool]
  | suspend | reinstate | setPlatformRole | terminate =>
    obtain ⟨e, he⟩ := hadmin h
    unfold serveStaff
    rw [Prog.exec_bind_error he]
    rfl

/-- Nothing that is authorised as a suspended account succeeds, unless a token or a socket alone lets it in. -/
theorem refused {w : World} {e : Event} (hi : Inactive a w.db) (ha : actsAs cfg w a e = true)
    (hu : unasked cfg w a e = false) : succeeds cfg w e = false := by
  unfold succeeds
  cases e with
  | request | socketOpen | socketAuth | socketCommand | socketSend => cases ha.symm.trans hu
  | register | logout | expire | reap | clock => cases ha
  | me token =>
    obtain ⟨caller, hb, rfl⟩ := bearer_resolves ha
    simp only [respond]
    rw [Prog.exec_bind_ok hb]
    exact isOk_onDb (by rw [Prog.exec_query, currentUser_inactive hi]; rfl)
  | mediaJoin token r =>
    obtain ⟨caller, hb, rfl⟩ := bearer_resolves ha
    simp only [respond]
    rw [Prog.exec_bind_ok hb]
    exact isOk_onDb (by rw [Prog.exec_query, currentUser_inactive hi]; rfl)
  | staff token endpoint =>
    obtain ⟨caller, hb, hc⟩ := bearer_resolves ha
    simp only [respond]
    rw [Prog.exec_bind_ok hb, hc]
    have ha : resolves cfg w a token = true := ha
    have hu : (resolves cfg w a token && allowed (roleOf w.db a) endpoint) = false := hu
    rw [ha, Bool.true_and] at hu
    exact serveStaff_refused hu
  | login input draw =>
    obtain ⟨user, hf, hc⟩ := (Option.any_eq_true _ _).1 ha
    obtain ⟨err, herr⟩ := credentials_inactive cfg.auth hi hf (of_decide_eq_true hc)
    exact isOk_onDb (by rw [login, Prog.exec_query_bind, herr]; rfl)
  | oauth input draw =>
    exact isOk_onDb (by rw [loginOrRegister, Prog.exec_bind_error (knownAccount_inactive hi ha)]; rfl)
  | refresh refreshToken draw =>
    obtain ⟨session, hf, hc⟩ := (Option.any_eq_true _ _).1 ha
    exact isOk_onDb (refresh_inactive hi hf (of_decide_eq_true hc))

theorem ok_onDb {E α : Type} {f : E → ApiError} {m : Prog Db E α} {w w' : World} {x : α}
    (h : (onDb f m).exec w = (.ok x, w')) : ∃ db, m.exec w.db = (.ok x, db) ∧ w' = { w with db } := by
  rw [exec_onDb] at h
  rcases hm : m.exec w.db with ⟨e | y, db⟩
  · rw [hm] at h
    cases h
  · rw [hm] at h
    cases h
    exact ⟨db, rfl, rfl⟩

/-- A suspension that is accepted: the account is deactivated. -/
theorem suspend_commits {w : World} {token : AccessClaims} {reason : String}
    (h : succeeds cfg w (.staff token (.suspend a reason)) = true) :
    Inactive a (run (step cfg) w [.staff token (.suspend a reason)]).db := by
  unfold succeeds at h
  rw [run_cons, run_nil, step]
  rcases he : (respond cfg (.staff token (.suspend a reason))).exec w with ⟨_ | _, w'⟩
  · rw [he] at h
    cases h
  · obtain ⟨caller, w₁, -, he⟩ := Prog.bind_ok he
    obtain ⟨_, w₂, -, he⟩ := Prog.bind_ok he
    obtain ⟨_, w₃, -, he⟩ := Prog.bind_ok he
    obtain ⟨_, w₄, -, he⟩ := Prog.bind_ok he
    obtain ⟨user, w₅, he, hlast⟩ := Prog.bind_ok he
    obtain ⟨db, hsuspend, rfl⟩ := ok_onDb he
    obtain rfl : w' = { w₄ with db } := (congrArg Prod.snd hlast).symm
    obtain ⟨rfl, row, hrow, -⟩ := suspend_ok hsuspend
    exact ⟨_, by unfold suspended; rw [Table.find_update, if_pos rfl, hrow]; rfl, rfl⟩

/-- From the commit of a suspension on, as long as no reinstatement of the account is accepted: where nothing is
let in as the account by an access token or a socket alone, nothing that is authorised as it succeeds. -/
theorem suspension_holds (cfg : Config) (a : UserId) (reason : String) (token : AccessClaims) (w : World)
    (before after : List Event)
    (hs : succeeds cfg (run (step cfg) w before) (.staff token (.suspend a reason)) = true)
    (hc : Along (step cfg) (fun w e => reinstates cfg w a e = false ∧ unasked cfg w a e = false)
      (run (step cfg) w (before ++ [.staff token (.suspend a reason)])) after) :
    Along (step cfg) (fun w e => actsAs cfg w a e = true → succeeds cfg w e = false)
      (run (step cfg) w (before ++ [.staff token (.suspend a reason)])) after := by
  refine along_of_along (I := fun w => Inactive a w.db) (fun w e hi hc => ?_) ?_ hc
  · exact ⟨inactive_step hi hc.1, fun ha => refused hi ha hc.2⟩
  · rw [run_append]
    exact suspend_commits hs

/-! ### An account that stays busy -/

/-- An hour's access tokens, ASCII text, and a hasher that only marks what it hashes. -/
def plain : Config where
  auth :=
    { jwt := JwtService.new "genzh" "web" 3600 (30 * 24 * 3600) fun token => "sha256:" ++ token
      toLowercase := fun s => String.ofList (asciiLowercase s.toList)
      hashPassword := fun password _ => some ("argon2:" ++ password)
      verifyPassword := fun password hash => hash = "argon2:" ++ password }
  media := ⟨"key", "wss://media", 600⟩
  allowPasswordSignup := true

/-- A database with one administrator. -/
def staffed : World where
  db := { Db.empty 0 with
    users := Table.empty.insert
      { id := ⟨1⟩, handle := "root", email := "root@genzh.test", isActive := true,
        passwordHash := some "argon2:correct horse", platformRole := .admin }
    profiles := Table.empty.insert { userId := ⟨1⟩, displayName := "root", avatarUrl := none } }
  sockets := fun _ => Session.fresh

/-- The access token of the session an account starts at the epoch. -/
def tokenAtEpoch (u : UserId) (draw : Draw) : AccessClaims :=
  { iss := "genzh", aud := "web", sub := u, sid := draw.sessionId, jti := draw.jti, iat := 0, exp := 3600, typ := "access" }

def rootDraw : Draw := { sessionId := ⟨10⟩, refreshToken := "r", jti := 1 }
def malDraw : Draw := { sessionId := ⟨11⟩, refreshToken := "m", jti := 2 }

/-- The administrator logs in, and somebody signs up, opens a socket and is made support staff. -/
def arrivals : List Event :=
  [.login { identifier := "root", password := "correct horse" } rootDraw,
    .register { handle := "mal", email := "mal@genzh.test", password := "battery staple", displayName := none }
      { userId := ⟨2⟩, salt := 3, session := malDraw },
    .socketOpen 0 (some (tokenAtEpoch ⟨2⟩ malDraw)),
    .staff (tokenAtEpoch ⟨1⟩ rootDraw) (.setPlatformRole ⟨2⟩ .support)]

/-- A refresh, a log-in and a look at the own account. -/
def refusedTries : List Event :=
  [.refresh "m" { sessionId := ⟨12⟩, refreshToken := "n", jti := 4 },
    .login { identifier := "mal", password := "battery staple" } { sessionId := ⟨13⟩, refreshToken := "o", jti := 5 },
    .me (tokenAtEpoch ⟨2⟩ malDraw)]

/-- Whatever asks about the account refuses it. -/
theorem suspension_holds_where_asked :
    Along (step plain) (fun w e => actsAs plain w ⟨2⟩ e = true → succeeds plain w e = false)
      (run (step plain) staffed (arrivals ++ [.staff (tokenAtEpoch ⟨1⟩ rootDraw) (.suspend ⟨2⟩ "spam")])) refusedTries :=
  suspension_holds plain ⟨2⟩ "spam" (tokenAtEpoch ⟨1⟩ rootDraw) staffed arrivals refusedTries (by decide +kernel)
    (by decide +kernel)

/-- A room made and written to with the token from before, a subscription over the socket from before, a new
socket, and an account looked up as staff. -/
def unaskedTries : List Event :=
  [.request (tokenAtEpoch ⟨2⟩ malDraw) (.createRoom ⟨20⟩ none { name := "lounge", roomType := .text }),
    .request (tokenAtEpoch ⟨2⟩ malDraw) (.postMessage ⟨30⟩ ⟨20⟩ "still here" false none none),
    .socketCommand 0 (.subscribe ⟨20⟩), .socketOpen 1 (some (tokenAtEpoch ⟨2⟩ malDraw)),
    .staff (tokenAtEpoch ⟨2⟩ malDraw) (.findUser ⟨1⟩)]

/-- The account is suspended and never reinstated, and every one of these succeeds. -/
theorem suspended_still_acts :
    succeeds plain (run (step plain) staffed arrivals) (.staff (tokenAtEpoch ⟨1⟩ rootDraw) (.suspend ⟨2⟩ "spam")) = true ∧
      Along (step plain)
        (fun w e => reinstates plain w ⟨2⟩ e = false ∧ actsAs plain w ⟨2⟩ e = true ∧ succeeds plain w e = true)
        (run (step plain) staffed (arrivals ++ [.staff (tokenAtEpoch ⟨1⟩ rootDraw) (.suspend ⟨2⟩ "spam")])) unaskedTries ∧
      ¬ Along (step plain) (fun w e => actsAs plain w ⟨2⟩ e = true → succeeds plain w e = false)
        (run (step plain) staffed (arrivals ++ [.staff (tokenAtEpoch ⟨1⟩ rootDraw) (.suspend ⟨2⟩ "spam")])) unaskedTries := by
  have hacts : Along (step plain)
      (fun w e => reinstates plain w ⟨2⟩ e = false ∧ actsAs plain w ⟨2⟩ e = true ∧ succeeds plain w e = true)
      (run (step plain) staffed (arrivals ++ [.staff (tokenAtEpoch ⟨1⟩ rootDraw) (.suspend ⟨2⟩ "spam")])) unaskedTries := by
    decide +kernel
  refine ⟨by decide +kernel, hacts, fun h => ?_⟩
  have hrefused := h.1 hacts.1.2.1
  rw [hacts.1.2.2] at hrefused
  cases hrefused

end Genzh.Api
