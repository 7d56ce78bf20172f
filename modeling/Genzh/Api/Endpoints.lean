/-
The ways in: what a request or a socket command is authorised by, and what it then calls. A bearer token is
verified on its own; a socket is authenticated once and keeps its user; staff authority is looked up for
every request; sign-ins and refreshes ask about the account.

Endpoints authenticate alike and differ in the service they call. Those over the rooms, the blocks and
the communities are one kind here, with the request of `Room.Request` each of them makes for its caller.
-/
import Genzh.Api.Session
import Genzh.Admin.Staff
import Genzh.Auth.OAuth
import Genzh.Room.Request

namespace Genzh.Api

open Genzh.Lib Genzh.Domain Genzh.Infrastructure Genzh.Auth Genzh.Admin Genzh.Community Genzh.Room Genzh.Messaging

/-- Anything a handler can fail with. -/
inductive ApiError where
  | domain (e : DomainError)
  | service (e : ServiceError)
  | auth (e : AuthError)
  | badRequest (reason : String)
  | unauthenticated
  | forbidden (reason : String)
  deriving DecidableEq, Repr

/-- What the API is configured with. -/
structure Config where
  auth : AuthService
  media : MediaConfig
  allowPasswordSignup : Bool

/-- The database, and the open connections. -/
structure World where
  db : Db
  sockets : Nat → Api.Session

abbrev ApiM := Prog World ApiError

/-- A service call, whose errors an endpoint passes on. -/
def onDb {E α : Type} (f : E → ApiError) (m : Prog Db E α) : ApiM α := fun w =>
  match m.exec w.db with
  | (.ok a, db) => (.ok a, { w with db })
  | (.error e, db) => (.error (f e), { w with db })

/-! ## Who is calling -/

/-- The caller of a bearer token. -/
def bearer (cfg : Config) (token : AccessClaims) : ApiM CurrentUser :=
  Prog.query fun w => (cfg.auth.jwt.authenticate token w.db.now).mapError fun _ => .unauthenticated

/-- A caller who works the support queue. The console is not there for anybody else. -/
def requireStaff (caller : UserId) : ApiM PlatformRole := do
  let role ← Prog.read fun w => roleOf w.db caller
  Prog.ensure role.isStaff (.domain (.notFound "resource"))
  pure role

/-- A caller who may enforce. -/
def requireAdmin (caller : UserId) : ApiM Unit := do
  let role ← requireStaff caller
  Prog.ensure role.isAdmin (.forbidden "platform_admin")

/-! ## The endpoints -/

/-- What anybody signed in may ask for. -/
inductive Endpoint where
  | createCommunity (id : CommunityId) (roles : List (RoleId × RoleTemplate)) (rooms : List (RoomId × RoomTemplate))
  | deleteCommunity (id : CommunityId)
  | block (target : UserId)
  | unblock (target : UserId)
  | createRoom (id : RoomId) (communityId : Option CommunityId) (input : CreateRoom)
  | openDirect (id : RoomId) (target : UserId) (targetName targetHandle : String)
  | getRoom (r : RoomId)
  | joinRoom (r : RoomId)
  | leaveRoom (r : RoomId)
  | setPersona (r : RoomId) (isAnonymous : Bool)
  | updateRoom (r : RoomId) (input : UpdateRoom)
  | deleteRoom (r : RoomId)
  | postMessage (id : MessageId) (r : RoomId) (content : String) (isAnonymous : Bool) (verdict : Option FloodVerdict)
      (replyTo : Option MessageId)
  | history (r : RoomId) (before : Option Timestamp) (beforeId : Option MessageId) (limit : Option Int)

/-- The service call of an endpoint. -/
def Endpoint.request (caller : UserId) : Endpoint → Room.Request
  | createCommunity id roles rooms => .createCommunity id caller roles rooms
  | deleteCommunity id => .deleteCommunity id caller
  | block target => .block caller target
  | unblock target => .unblock caller target
  | createRoom id communityId input => .create id communityId caller input
  | openDirect id target name handle => .openDirect id caller target name handle
  | getRoom r => .get r caller
  | joinRoom r => .join r caller
  | leaveRoom r => .leave r caller
  | setPersona r isAnonymous => .setPersona r caller isAnonymous
  | updateRoom r input => .update r caller input
  | deleteRoom r => .delete r caller
  | postMessage id r content isAnonymous verdict replyTo => .post id r caller content isAnonymous verdict replyTo
  | history r before beforeId limit => .history r caller before beforeId limit

/-- What staff may ask for. -/
inductive StaffEndpoint where
  | findUser (target : UserId)
  | suspend (target : UserId) (reason : String)
  | reinstate (target : UserId)
  | setPlatformRole (target : UserId) (role : PlatformRole)
  | terminate (r : RoomId)
  deriving DecidableEq, Repr

/-- An endpoint of the console. Whoever enforces is looked up for the audit record first. -/
def serveStaff (caller : UserId) : StaffEndpoint → ApiM Unit
  | .findUser target => do
    let _ ← requireStaff caller
    let _ ← onDb .service (findUser target)
    pure ()
  | .suspend target reason => do
    requireAdmin caller
    Prog.ensure (!(trim reason).isEmpty)
      (.badRequest "a suspension needs a reason: it is what the audit entry will say")
    let _ ← onDb .service (findUser caller)
    let _ ← onDb .service (suspend caller target (trim reason))
    pure ()
  | .reinstate target => do
    requireAdmin caller
    let _ ← onDb .service (findUser caller)
    let _ ← onDb .service (reinstate target)
    pure ()
  | .setPlatformRole target role => do
    requireAdmin caller
    let _ ← onDb .service (findUser caller)
    let _ ← onDb .service (setPlatformRole caller target role)
    pure ()
  | .terminate r => do
    requireAdmin caller
    let _ ← onDb .service (findUser caller)
    onDb .service (terminateSession r)

/-! ## Sockets -/

/-- A connection nobody has authenticated. -/
def Session.fresh : Session := { currentUser := none, subscribedRooms := [], focusedRoom := none, pendingFocus := none }

/-- Take an identity on. What another identity was reading is not inherited. -/
def Session.authenticate (s : Session) (user : UserId) : Session :=
  { s with
    currentUser := some user
    focusedRoom := if s.currentUser.all fun u => u = user then s.focusedRoom else none }

/-- Set the state of a connection. -/
def setSocket (i : Nat) (s : Session) (w : World) : World := { w with sockets := Function.update w.sockets i s }

/-- Accept a token over a connection. -/
def socketAuth (cfg : Config) (i : Nat) (token : AccessClaims) : ApiM Unit := do
  let caller ← Prog.query fun w => (cfg.auth.jwt.authenticate token w.db.now).mapError ApiError.auth
  Prog.modify fun w => setSocket i ((w.sockets i).authenticate caller.userId) w

/-- What comes of a command over a connection nobody has authenticated, or about a room that is not
visible: nothing. -/
def ignored : ApiError := .unauthenticated

/-- A command about the rooms a client follows. -/
def socketCommand (i : Nat) (c : Command) : ApiM Unit := do
  let session ← Prog.read fun w => w.sockets i
  Prog.modify fun w => setSocket i (command w.db session c) w
  Prog.ensure session.currentUser.isSome ignored
  match c with
  | .subscribe roomId => do
    let next ← Prog.read fun w => w.sockets i
    Prog.ensure (next.isSubscribed roomId) ignored
  | .unsubscribe _ | .focus _ => pure ()

/-- The persona a message is sent under: the chosen one, or the one last set in the room. -/
def persona (db : Db) (r : RoomId) (u : UserId) (chosen : Option Bool) : Bool :=
  chosen.getD ((db.roomParticipants.find (r, u)).any (·.isAnonymous))

/-- Send a message into a room the connection is subscribed to. -/
def socketSend (i : Nat) (id : MessageId) (r : RoomId) (content : String) (isAnonymous : Option Bool)
    (verdict : Option FloodVerdict) : ApiM Unit := do
  let session ← Prog.read fun w => w.sockets i
  match session.currentUser with
  | none => Prog.fail ignored
  | some user => do
    Prog.ensure (session.isSubscribed r) ignored
    Prog.modify fun w => setSocket i (session.attend (some r)) w
    let masked ← Prog.read fun w => persona w.db r user isAnonymous
    let _ ← onDb .service (post id r user content masked verdict none)
    if masked then onDb .service (Prog.attempt (getOrCreateAnonymousIdentity r user)) else pure ()

/-! ## What happens at the API -/

inductive Event where
  | request (token : AccessClaims) (endpoint : Endpoint)
  | me (token : AccessClaims)
  | mediaJoin (token : AccessClaims) (r : RoomId)
  | staff (token : AccessClaims) (endpoint : StaffEndpoint)
  | register (input : RegisterInput) (draw : SignUpDraw)
  | login (input : LoginInput) (draw : Draw)
  | oauth (input : OAuthUserInput) (draw : OAuthDraw)
  | refresh (refreshToken : String) (draw : Draw)
  | logout (refreshToken : String)
  | socketOpen (i : Nat) (token : Option AccessClaims)
  | socketAuth (i : Nat) (token : AccessClaims)
  | socketCommand (i : Nat) (c : Command)
  | socketSend (i : Nat) (id : MessageId) (r : RoomId) (content : String) (isAnonymous : Option Bool)
      (verdict : Option FloodVerdict)
  | expire
  | reap (grace : Duration)
  | clock (now : Timestamp)

def passwordSignupDisabled : String :=
  "Password signup is disabled in production. Please sign up with Google or Discord."

/-- What an event runs. -/
def respond (cfg : Config) : Event → ApiM Unit
  | .request token endpoint => do
    let caller ← bearer cfg token
    onDb .service (handle (endpoint.request caller.userId))
  | .me token => do
    let caller ← bearer cfg token
    let _ ← onDb .auth (Prog.query (currentUser caller.userId))
    pure ()
  | .mediaJoin token r => do
    let caller ← bearer cfg token
    let user ← onDb .auth (Prog.query (currentUser caller.userId))
    let _ ← onDb .service (mediaJoin cfg.media r caller.userId user.profile.displayName)
    pure ()
  | .staff token endpoint => do
    let caller ← bearer cfg token
    serveStaff caller.userId endpoint
  | .register input draw => do
    Prog.ensure cfg.allowPasswordSignup (.forbidden passwordSignupDisabled)
    let _ ← onDb .auth (Auth.register cfg.auth input draw)
    pure ()
  | .login input draw => do
    let _ ← onDb .auth (login cfg.auth input draw)
    pure ()
  | .oauth input draw => do
    let _ ← onDb .auth (loginOrRegister cfg.auth input draw)
    pure ()
  | .refresh refreshToken draw => do
    let _ ← onDb .auth (refresh cfg.auth.jwt refreshToken draw)
    pure ()
  | .logout refreshToken => onDb .auth (endSession cfg.auth.jwt refreshToken)
  | .socketOpen i token => do
    Prog.modify (setSocket i Session.fresh)
    match token with
    | some token => Api.socketAuth cfg i token
    | none => pure ()
  | .socketAuth i token => Api.socketAuth cfg i token
  | .socketCommand i c => Api.socketCommand i c
  | .socketSend i id r content isAnonymous verdict => Api.socketSend i id r content isAnonymous verdict
  | .expire => onDb .service (handle .expire)
  | .reap grace => onDb .service (handle (.reap grace))
  | .clock now => Prog.modify fun w => { w with db := w.db.tick now }

/-- The world an event leaves, whatever its outcome. -/
def step (cfg : Config) (w : World) (e : Event) : World := ((respond cfg e).exec w).2

/-- Did the event succeed? -/
def succeeds (cfg : Config) (w : World) (e : Event) : Bool := ((respond cfg e).exec w).1.isOk

end Genzh.Api
