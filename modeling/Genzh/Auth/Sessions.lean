/-
Sessions: issuing a token pair, rotating it, and ending it. Nothing here knows how somebody proved who they
are; every way in ends with `start`.

The hash of a refresh token comes from outside, and so do the random values a call draws: the identifier
of the new session, its refresh token and the identifier of the access token. An access token is its
claims here; the signature over them is not modelled.
-/
import Genzh.Infrastructure.Db

namespace Genzh.Auth

open Genzh.Lib Genzh.Domain Genzh.Infrastructure

/-- Something went wrong authenticating or provisioning an account. -/
inductive AuthError where
  | alreadyRegistered (field : String)
  | invalidCredentials
  | accountInactive
  | invalidToken
  | invalidSession
  | domain (e : DomainError)
  | repository (e : RepositoryError)
  | hashing
  | panicked
  deriving DecidableEq, Repr

/-- Claims on an access token. -/
structure AccessClaims where
  iss : String
  aud : String
  sub : UserId
  sid : SessionId
  jti : Uuid
  iat : Int
  exp : Int
  typ : String
  deriving DecidableEq, Repr

/-- An access and refresh pair handed to a client. -/
structure TokenPair where
  accessToken : AccessClaims
  refreshToken : String
  expiresIn : Int
  tokenType : String
  deriving DecidableEq, Repr

/-- The caller a token resolves to. -/
structure CurrentUser where
  userId : UserId
  sessionId : SessionId
  deriving DecidableEq, Repr

/-- The token service: its issuer, its audience, its two lifetimes in seconds, and the hash a refresh token is
stored under. -/
structure JwtService where
  issuer : String
  audience : String
  accessTtl : Int
  refreshTtl : Int
  hashRefreshToken : String → String

namespace JwtService

/-- The lifetimes are clamped: a minute to an hour, an hour to ninety days. -/
def new (issuer audience : String) (accessTtlSeconds refreshTtlSeconds : Int) (hashRefreshToken : String → String) :
    JwtService where
  issuer := issuer
  audience := audience
  accessTtl := max 60 (min accessTtlSeconds (60 * 60))
  refreshTtl := max 3600 (min refreshTtlSeconds (90 * 24 * 3600))
  hashRefreshToken := hashRefreshToken

variable (jwt : JwtService)

/-- When a refresh token minted now would expire; `none` where the addition panics. -/
def refreshExpiry (now : Timestamp) : Option Timestamp := Timestamp.add now (Duration.seconds jwt.refreshTtl)

/-- Whole seconds since the epoch. -/
def epochSeconds (t : Timestamp) : Int := t / 1000000

/-- Mint an access token for a session; `none` where the addition panics. -/
def issueAccess (userId : UserId) (sessionId : SessionId) (jti : Uuid) (now : Timestamp) : Option AccessClaims :=
  (Timestamp.add now (Duration.seconds jwt.accessTtl)).map fun expiry =>
    { iss := jwt.issuer, aud := jwt.audience, sub := userId, sid := sessionId, jti, iat := epochSeconds now,
      exp := epochSeconds expiry, typ := "access" }

/-- How many seconds past its expiry a token is still taken. -/
def leeway : Int := 5

/-- Validate an access token and resolve the caller. The database is not asked. -/
def authenticate (token : AccessClaims) (now : Timestamp) : Except AuthError CurrentUser :=
  if token.iss ≠ jwt.issuer || token.aud ≠ jwt.audience || token.exp + leeway < epochSeconds now then
    .error .invalidToken
  else if token.typ ≠ "access" then .error .invalidToken
  else .ok { userId := token.sub, sessionId := token.sid }

end JwtService

/-- The random values a call that starts a session draws. -/
structure Draw where
  sessionId : SessionId
  refreshToken : String
  jti : Uuid
  deriving DecidableEq, Repr

abbrev AuthM := Prog Db AuthError

/-- A check on the database, and the error of the statement it belongs to. -/
def check (c : Db → Bool) (e : RepositoryError) : AuthM Unit := do
  let holds ← Prog.read c
  Prog.ensure holds (.repository e)

/-- Can this session still be exchanged for a new token pair? -/
def isUsable (s : Session) (now : Timestamp) : Bool := s.revokedAt.isNone && now < s.expiresAt

/-! ## The session repository -/

/-- `UPDATE sessions SET revoked_at = now()` of one row that is live. -/
def revokeRow (now : Timestamp) (s : Session) : Session := { s with revokedAt := s.revokedAt.or (some now) }

/-- `UPDATE sessions SET revoked_at = now() WHERE id = $1 AND revoked_at IS NULL`. -/
def revoked (id : SessionId) (db : Db) : Db :=
  { db with sessions := db.sessions.update id (revokeRow db.now) fun _ => rfl }

/-- `UPDATE sessions SET revoked_at = now() WHERE user_id = $1 AND revoked_at IS NULL`. -/
def revokedAll (userId : UserId) (db : Db) : Db :=
  { db with sessions := db.sessions.updateWhere (fun s => s.userId = userId) (revokeRow db.now) fun _ => rfl }

/-- Is there a session by this identifier that is not revoked? -/
def isLive (db : Db) (id : SessionId) : Bool := (db.sessions.find id).any fun s => s.revokedAt.isNone

/-- Look a session up by the hash of its refresh token. -/
def findByTokenHash (db : Db) (hash : String) : Option Session :=
  db.sessions.rows.find? fun s => s.refreshTokenHash = hash

/-- Revoke one session. Returns whether it was live. -/
def revoke (id : SessionId) : AuthM Bool := do
  let live ← Prog.read fun db => isLive db id
  Prog.modify (revoked id)
  pure live

/-- Revoke every live session of an account. Returns how many there were. -/
def revokeAllForUser (userId : UserId) : AuthM Nat := do
  let live ← Prog.read fun db => db.sessions.count fun s => s.userId = userId && s.revokedAt.isNone
  Prog.modify (revokedAll userId)
  pure live

/-- Does the database take the row of a new session? -/
def insertable (s : Session) (db : Db) : Bool :=
  (!db.sessions.contains s.id && db.sessions.rows.all fun t => t.refreshTokenHash ≠ s.refreshTokenHash) &&
    db.userExists s.userId && s.expiresAt.storable

/-- Store a new session. The column the statement does not bind takes its default. -/
def createSession (s : Session) : AuthM Session := do
  check (fun _ => s.expiresAt.storable) .database
  check (fun db => !db.sessions.contains s.id && db.sessions.rows.all fun t => t.refreshTokenHash ≠ s.refreshTokenHash)
    (.conflict "sessions")
  check (fun db => db.userExists s.userId) .foreignKey
  let now ← Prog.read Db.now
  let created := { s with createdAt := now }
  Prog.modify fun db => { db with sessions := db.sessions.insert created }
  pure created

/-! ## The session manager -/

/-- A result the clock arithmetic can fail to give. -/
def orPanic {α : Type} : Option α → Except AuthError α
  | some a => .ok a
  | none => .error .panicked

/-- The row of a new session. -/
def newSession (jwt : JwtService) (userId : UserId) (draw : Draw) (now : Timestamp) : Option Session :=
  (jwt.refreshExpiry now).map fun expiresAt =>
    { id := draw.sessionId, userId, refreshTokenHash := jwt.hashRefreshToken draw.refreshToken, expiresAt,
      revokedAt := none, createdAt := now }

/-- The pair that proves a session. -/
def tokenPair (jwt : JwtService) (userId : UserId) (draw : Draw) (now : Timestamp) : Option TokenPair :=
  (jwt.issueAccess userId draw.sessionId draw.jti now).map fun accessToken =>
    { accessToken, refreshToken := draw.refreshToken, expiresIn := jwt.accessTtl, tokenType := "Bearer" }

/-- Record a new session and hand back the pair that proves it. -/
def start (jwt : JwtService) (userId : UserId) (draw : Draw) : AuthM TokenPair := do
  let session ← Prog.query fun db => orPanic (newSession jwt userId draw db.now)
  let _ ← createSession session
  Prog.query fun db => orPanic (tokenPair jwt userId draw db.now)

/-- What the lookup of a refresh finds out: the session, unless it is unknown or expired. The flag says that
it is revoked. -/
def presented (jwt : JwtService) (db : Db) (refreshToken : String) : Except AuthError (Session × Bool) :=
  match findByTokenHash db (jwt.hashRefreshToken refreshToken) with
  | none => .error .invalidSession
  | some session =>
    if session.revokedAt.isSome then .ok (session, true)
    else if isUsable session db.now then .ok (session, false)
    else .error .invalidSession

/-- What a refresh asks of the account. -/
def checkAccount (db : Db) (userId : UserId) : Except AuthError Unit :=
  match db.users.find userId with
  | none => .error .invalidSession
  | some user => if user.isActive then .ok () else .error .accountInactive

/-- Rotate a refresh token. A revoked one is taken as evidence of theft, and ends every session of the
account. -/
def refresh (jwt : JwtService) (refreshToken : String) (draw : Draw) : AuthM TokenPair := do
  let (session, reused) ← Prog.query fun db => presented jwt db refreshToken
  if reused then do
    let _ ← revokeAllForUser session.userId
    Prog.fail .invalidSession
  else do
    Prog.query fun db => checkAccount db session.userId
    let _ ← revoke session.id
    start jwt session.userId draw

/-- End a session, silent about whether the token was known. -/
def endSession (jwt : JwtService) (refreshToken : String) : AuthM Unit := do
  let session ← Prog.read fun db => findByTokenHash db (jwt.hashRefreshToken refreshToken)
  match session with
  | some session => do
    let _ ← revoke session.id
    pure ()
  | none => pure ()

/-! ## Sessions leave the accounts alone -/

theorem frames_check {γ : Type} {obs : Db → γ} (c : Db → Bool) (e : RepositoryError) : Prog.Frames obs (check c e) :=
  (Prog.Frames.read _).bind fun _ => Prog.Frames.ensure _ _

theorem users_start (jwt : JwtService) (userId : UserId) (draw : Draw) : Prog.Frames Db.users (start jwt userId draw) := by
  refine (Prog.Frames.query _).bind fun s => Prog.Frames.bind ?_ fun _ => Prog.Frames.query _
  refine (frames_check _ _).bind fun _ => (frames_check _ _).bind fun _ => (frames_check _ _).bind fun _ => ?_
  refine (Prog.Frames.read _).bind fun _ => ?_
  exact Prog.Frames.bind (Prog.Frames.modify fun _ => rfl) fun _ => Prog.Frames.pure _

theorem users_revoke (id : SessionId) : Prog.Frames Db.users (revoke id) :=
  (Prog.Frames.read _).bind fun _ => Prog.Frames.bind (Prog.Frames.modify fun _ => rfl) fun _ => Prog.Frames.pure _

theorem users_refresh (jwt : JwtService) (refreshToken : String) (draw : Draw) :
    Prog.Frames Db.users (refresh jwt refreshToken draw) := by
  refine (Prog.Frames.query _).bind fun found => ?_
  obtain ⟨session, reused⟩ := found
  cases reused with
  | true =>
    refine Prog.Frames.bind ?_ fun _ => Prog.Frames.fail _
    refine (Prog.Frames.read _).bind fun _ => ?_
    exact Prog.Frames.bind (Prog.Frames.modify fun _ => rfl) fun _ => Prog.Frames.pure _
  | false => exact (Prog.Frames.query _).bind fun _ => (users_revoke _).bind fun _ => users_start jwt _ draw

theorem users_endSession (jwt : JwtService) (refreshToken : String) : Prog.Frames Db.users (endSession jwt refreshToken) := by
  refine (Prog.Frames.read _).bind fun found => ?_
  cases found with
  | none => exact Prog.Frames.pure _
  | some session => exact (users_revoke _).bind fun _ => Prog.Frames.pure _

end Genzh.Auth
