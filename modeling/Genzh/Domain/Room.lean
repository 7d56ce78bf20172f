/-
Rooms: what a room is for, its lifecycle, who may find it, and the predicates that split the product
in two. A room of a community is a channel and persists; a standalone room is either a direct
conversation, by its category, or a playground room, which expires.
-/
import Genzh.Domain.Permission
import Genzh.Domain.Text

namespace Genzh.Domain

def roomNameMaxLen : Nat := 64
/-- Hard ceiling on participants in one media room. -/
def mediaRoomMaxParticipants : Int := 50
/-- The `category` a two-person direct conversation carries. -/
def directCategory : String := "dm"
/-- How long a playground room lives when its creator picks no duration. -/
def defaultPlaygroundTtlMinutes : Int := 360
/-- The longest duration a playground room may be created with. -/
def maxPlaygroundTtlMinutes : Int := 24 * 60
/-- How long a playground room may sit empty before it is ended. -/
def playgroundEmptyGraceSeconds : Int := 180

/-- What a room is for. -/
inductive RoomType where
  | text
  | voice
  | video
  | stage
  | truthOrDare
  | wouldYouRather
  | hotTakes
  | poll
  | trivia
  | debate
  | guessWho
  | game
  | activity
  | randomChat
  | anonymousChat
  | matchInterest
  | friendFinder
  | topicRoom
  | confession
  | quickChat
  deriving DecidableEq, Repr

namespace RoomType

/-- Does joining this room involve the media plane? -/
def isMedia : RoomType → Bool
  | voice | video | activity | stage => true
  | _ => false

/-- Stable lower-case name, used in errors, URLs, and logs. -/
def asStr : RoomType → String
  | text => "text"
  | voice => "voice"
  | video => "video"
  | stage => "stage"
  | truthOrDare => "truth_or_dare"
  | wouldYouRather => "would_you_rather"
  | hotTakes => "hot_takes"
  | poll => "poll"
  | trivia => "trivia"
  | debate => "debate"
  | guessWho => "guess_who"
  | game => "game"
  | activity => "activity"
  | randomChat => "random_chat"
  | anonymousChat => "anonymous_chat"
  | matchInterest => "match_interest"
  | friendFinder => "friend_finder"
  | topicRoom => "topic_room"
  | confession => "confession"
  | quickChat => "quick_chat"

/-- The permission a participant needs to publish a camera track here. -/
def cameraPermission : RoomType → Permission
  | stage => .screenShare
  | _ => .useVideo

end RoomType

/-- Lifecycle status of a room. -/
inductive RoomStatus where
  | created
  | waiting
  | active
  | ending
  | ended
  deriving DecidableEq, Repr

/-- Discoverability and access visibility of a room. -/
inductive RoomVisibility where
  | «public»
  | unlisted
  | friendsOnly
  | «private»
  deriving DecidableEq, Repr

/-- Participant role within a room. -/
inductive RoomParticipantRole where
  | owner
  | moderator
  | participant
  | observer
  deriving DecidableEq, Repr

/-- A room on the platform, standalone or of a community. -/
structure Room where
  id : RoomId
  communityId : Option CommunityId
  ownerId : Option UserId
  name : String
  topic : Option String
  category : String
  roomType : RoomType
  visibility : RoomVisibility
  status : RoomStatus
  isAnonymous : Bool
  position : Int
  /-- Cap on simultaneous participants; `none` means the global default. -/
  maxParticipants : Option Int
  currentParticipants : Int
  startedAt : Option Timestamp
  expiresAt : Option Timestamp
  endedAt : Option Timestamp
  createdAt : Timestamp
  updatedAt : Timestamp
  deriving DecidableEq, Repr

namespace Room

/-- Effective participant cap for this room. -/
def participantLimit (r : Room) : Int := r.maxParticipants.getD mediaRoomMaxParticipants

/-- Is this a two-person direct conversation? -/
def isDirect (r : Room) : Bool := r.category = directCategory

/-- Is this one of the throwaway rooms on the playground side of the app? -/
def isPlayground (r : Room) : Bool := r.communityId.isNone && !r.isDirect

/-- Reject media joins on non-media rooms. A direct conversation passes despite being a text room. -/
def requireMedia (r : Room) : Except DomainError Unit :=
  if r.roomType.isMedia || r.isDirect then .ok () else .error (.unsupportedRoomType r.roomType.asStr)

/-- Has this room expired? -/
def isExpired (r : Room) (now : Timestamp) : Bool := r.expiresAt.any fun exp => exp ≤ now

end Room

/-- An anonymous identity scoped strictly to a single room. -/
structure RoomAnonymousIdentity where
  roomId : RoomId
  userId : UserId
  aliasName : String
  avatarSeed : String
  accentColor : String
  createdAt : Timestamp
  deriving DecidableEq, Repr

/-- Participant membership in a live room. -/
structure RoomParticipant where
  roomId : RoomId
  userId : UserId
  role : RoomParticipantRole
  isMuted : Bool
  isAnonymous : Bool
  joinedAt : Timestamp
  lastSeenAt : Timestamp
  deriving DecidableEq, Repr

/-- Validate a room name. -/
def validateRoomName (raw : String) : Except DomainError String :=
  let name := trim raw
  if name.isEmpty || roomNameMaxLen < name.length then
    .error (.invalid "name" s!"must be between 1 and {roomNameMaxLen} characters")
  else .ok name

theorem validateRoomName_ok {raw name : String} (h : validateRoomName raw = .ok name) :
    name = trim raw ∧ name.isEmpty = false ∧ name.length ≤ roomNameMaxLen := by
  unfold validateRoomName at h
  simp only [refuse_eq_ok, Bool.or_eq_true, decide_eq_true_eq, not_or, Bool.not_eq_true, not_lt] at h
  obtain ⟨⟨hempty, hlength⟩, hok⟩ := h
  cases hok
  exact ⟨rfl, hempty, hlength⟩

/-! ## Anonymous identities -/

def anonymousAdjectives : List String :=
  ["Blue", "Pixel", "Neon", "Velvet", "Cosmic", "Chill", "Spicy", "Golden", "Cyber", "Quiet",
    "Silver", "Mystic", "Electric", "Midnight", "Solar", "Shadow", "Sunny", "Happy", "Lucky",
    "Breezy", "Ruby", "Frosty", "Hyper", "Clever", "Brave", "Dreamy", "Astral", "Atomic"]

def anonymousNouns : List String :=
  ["Fox", "Cat", "Panda", "Ghost", "Owl", "Otter", "Falcon", "Wolf", "Koala", "Rabbit", "Dolphin",
    "Tiger", "Hawk", "Bear", "Raven", "Dragon", "Phoenix", "Badger", "Hedgehog", "Penguin",
    "Sloth", "Gecko", "Lynx", "Raccoon", "Sparrow", "Hamster", "Firefly", "Chameleon"]

def anonymousColors : List String :=
  ["#5865f2", "#57f287", "#fee75c", "#eb459e", "#ed4245", "#3ba55d", "#a855f7", "#06b6d4",
    "#f97316", "#14b8a6", "#ec4899", "#8b5cf6"]

/-- The 64-bit hash of a user in a room: a wrapping multiplication and a xor for each byte. -/
def anonymousHash (roomId : RoomId) (userId : UserId) : BitVec 64 :=
  (Uuid.asBytes roomId.uuid ++ Uuid.asBytes userId.uuid).foldl
    (fun hash byte => hash * 0x100000001b3#64 ^^^ byte.setWidth 64) 0xcbf29ce484222325#64

/-- A deterministic anonymous identity for a user in a room: alias, avatar seed and accent colour. The
discriminator has four digits, so the format's padding to four adds none. -/
def generateAnonymousIdentity (roomId : RoomId) (userId : UserId) : String × String × String :=
  let hash := (anonymousHash roomId userId).toNat
  let adjective := anonymousAdjectives.getD (hash % anonymousAdjectives.length) ""
  let noun := anonymousNouns.getD (hash / 2 ^ 8 % anonymousNouns.length) ""
  let color := anonymousColors.getD (hash / 2 ^ 16 % anonymousColors.length) ""
  let discriminator := hash / 2 ^ 24 % 9000 + 1000
  (s!"{adjective}{noun}#{discriminator}", s!"{noun}-{discriminator}", color)

end Genzh.Domain
