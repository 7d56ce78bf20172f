/-
Media joins: the caller must see the room, the room must carry media, and what comes back is an access
token for the media server. A token is its claims here; the signature over them is not modelled.
-/
import Genzh.Room.Service

namespace Genzh.Room

open Genzh.Lib Genzh.Domain Genzh.Infrastructure

/-- What the media server is allowed to believe about a participant. -/
structure VideoGrant where
  room : RoomId
  roomJoin : Bool
  canPublish : Bool
  canPublishSources : List String
  canSubscribe : Bool
  canPublishData : Bool
  deriving DecidableEq, Repr

/-- The claims of an access token. -/
structure LiveKitClaims where
  iss : String
  sub : UserId
  exp : Int
  iat : Int
  nbf : Int
  name : String
  video : VideoGrant
  deriving DecidableEq, Repr

/-- What the client gets back from a successful media join. -/
structure MediaJoinResponse where
  roomId : RoomId
  participantId : UserId
  mediaUrl : String
  token : LiveKitClaims
  expiresAt : Timestamp
  deriving DecidableEq, Repr

/-- The media service's configuration. -/
structure MediaConfig where
  apiKey : String
  mediaUrl : String
  tokenTtlSeconds : Int

/-- Translate control-plane permissions into a video grant. -/
def livekitGrant (roomId : RoomId) (permissions : PermissionSet) : VideoGrant :=
  let sources :=
    (if permissions.allows .speak then ["microphone"] else []) ++
    (if permissions.allows .useVideo then ["camera"] else []) ++
    (if permissions.allows .screenShare then ["screen_share", "screen_share_audio"] else [])
  { room := roomId, roomJoin := true, canPublish := !sources.isEmpty, canPublishSources := sources,
    canSubscribe := permissions.allows .viewRoom, canPublishData := false }

/-- Whole seconds since the epoch. -/
def epochSeconds (t : Timestamp) : Int := t / 1000000

/-- Authorise a media join and mint a token. -/
def mediaJoin (config : MediaConfig) (roomId : RoomId) (userId : UserId) (displayName : String) :
    SqlM MediaJoinResponse := do
  let a ← Prog.query fun db => visibleAccess db roomId userId
  Prog.lift (liftDomain a.room.requireMedia)
  Prog.ensure (a.permissions.allows .viewRoom) (.denied "view_room")
  let now ← Prog.read Db.now
  let expiresAt := now + Duration.seconds config.tokenTtlSeconds
  let token : LiveKitClaims :=
    { iss := config.apiKey, sub := userId, exp := epochSeconds expiresAt, iat := epochSeconds now,
      nbf := epochSeconds now, name := displayName, video := livekitGrant roomId a.permissions }
  pure { roomId, participantId := userId, mediaUrl := config.mediaUrl, token, expiresAt }

end Genzh.Room
