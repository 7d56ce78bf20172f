/-
What the server calls somebody in a room. A participant may wear a persona there, and is then to be known by the alias of
that room alone; but every path that names a participant resolves the name for itself. Messages and typing signals ask
for the persona, a media token and a ringing call take the name from the profile.

`names_masked_iff`: in every run, what is shown of whoever wears a persona is their alias or no name, exactly as long as
nobody with a persona takes a media token or rings, whose profile calls them anything else.
-/
import Genzh.Api.Endpoints
import Genzh.Room.Ended

namespace Genzh.Api

open Genzh.Lib Genzh.Domain Genzh.Infrastructure Genzh.Auth Genzh.Room Genzh.Messaging

/-! ## Names -/

/-- A name of a participant that the server puts in front of the others of a room, or that it puts none there. -/
structure Shown where
  roomId : RoomId
  userId : UserId
  name : Option String
  deriving DecidableEq, Repr

/-- Does the participant wear a persona in the room? -/
def wearsPersona (db : Db) (r : RoomId) (u : UserId) : Bool := (db.roomParticipants.find (r, u)).any (·.isAnonymous)

/-- The alias of a user in a room, if one was ever needed. -/
def aliasOf (db : Db) (r : RoomId) (u : UserId) : Option String := (db.roomAnonymousIdentities.find (r, u)).map (·.aliasName)

/-- The name an account goes by in public. -/
def displayNameOf (db : Db) (u : UserId) : Option String := (db.profiles.find u).map (·.displayName)

/-- What stands for a name that cannot be read. -/
def nobody : String := "Someone"

/-- What to call somebody in a room: their name, or the mask they are wearing. -/
def speakerName (db : Db) (r : RoomId) (u : UserId) : String :=
  let name :=
    match db.roomParticipants.find (r, u) with
    | some participant => if participant.isAnonymous then aliasOf db r u else displayNameOf db u
    | none => none
  name.getD nobody

/-- How the author of a message is named: by the alias for a message sent under the persona, and otherwise by nothing but
their identifier. -/
def authorShown (db : Db) (r : RoomId) (m : Message) : Shown :=
  { roomId := r, userId := m.authorId, name := if m.isAnonymous then aliasOf db r m.authorId else none }

/-! ## The paths that name somebody -/

abbrev PersonaM := Prog Db ApiError

def fromService {α : Type} (m : SqlM α) : PersonaM α := Prog.mapError .service m

/-- `.ok()`: the outcome of a call that may fail. -/
def okOf {α : Type} (m : SqlM α) : PersonaM (Option α) := fun db =>
  ((.ok (m.exec db).1.toOption : Except ApiError (Option α)), (m.exec db).2)

/-- `POST /rooms/{id}/media/join`: the token names the participant to everybody else in the call. -/
def joinMedia (config : MediaConfig) (r : RoomId) (u : UserId) : PersonaM (List Shown) := do
  let user ← Prog.mapError .auth (Prog.query (currentUser u))
  let response ← fromService (mediaJoin config r u user.profile.displayName)
  pure [{ roomId := response.roomId, userId := response.participantId, name := some response.token.name }]

def sessionHistoryLimit : Int := 50

/-- `POST /rooms/{id}/session`: a join, the recent messages, and a media token where the room carries media. -/
def openRoomSession (config : MediaConfig) (r : RoomId) (u : UserId) : PersonaM (List Shown) := do
  let _ ← fromService (join r u)
  let a ← fromService (Prog.query fun db => visibleAccess db r u)
  let page ← fromService (history r u none none (some sessionHistoryLimit))
  let authors ← Prog.read fun db => page.messages.map (authorShown db r)
  if a.room.roomType.isMedia then do
    let session ← joinMedia config r u
    pure (authors ++ session)
  else pure authors

/-- A typing signal of a connection that follows the room. -/
def announceTyping (r : RoomId) (u : UserId) : PersonaM (List Shown) := do
  let name ← Prog.read fun db => speakerName db r u
  pure [{ roomId := r, userId := u, name := some name }]

/-- The identity of the author of a message, looked up only for one under the persona. -/
def messageIdentity (masked : Bool) (r : RoomId) (u : UserId) : PersonaM (Option RoomAnonymousIdentity) :=
  if masked then okOf (getOrCreateAnonymousIdentity r u) else pure none

/-- A message is sent, under the persona or not. The identity is made up for the first message under it. -/
def sendAs (masked : Bool) (id : MessageId) (r : RoomId) (u : UserId) (content : String) (verdict : Option FloodVerdict)
    (replyTo : Option MessageId) : PersonaM (List Shown) := do
  let message ← fromService (post id r u content masked verdict replyTo)
  let identity ← messageIdentity masked r u
  pure [{ roomId := message.roomId, userId := message.authorId, name := identity.map (·.aliasName) }]

/-- `POST /rooms/{id}/messages`: what the body says, or else the participant's persona, or else the room's default. -/
def postMessage (id : MessageId) (r : RoomId) (u : UserId) (content : String) (chosen : Option Bool)
    (verdict : Option FloodVerdict) (replyTo : Option MessageId) : PersonaM (List Shown) := do
  let a ← fromService (Prog.query fun db => visibleAccess db r u)
  let participant ← Prog.read fun db => db.roomParticipants.find (r, u)
  sendAs (chosen.getD ((participant.map (·.isAnonymous)).getD a.room.isAnonymous)) id r u content verdict replyTo

/-- `send_message` over a socket: what the command says, or else the participant's persona. -/
def sendMessage (id : MessageId) (r : RoomId) (u : UserId) (content : String) (chosen : Option Bool)
    (verdict : Option FloodVerdict) : PersonaM (List Shown) := do
  let masked ← Prog.read fun db => persona db r u chosen
  sendAs masked id r u content verdict none

/-- What an edit is refused for, and the text it stores otherwise. -/
def checkEdit (db : Db) (messageId : MessageId) (u : UserId) (content : String) : Except ServiceError String :=
  match db.messages.find messageId with
  | none => .error (.notFound "message")
  | some existing => do
    let a ← visibleAccess db existing.roomId u
    a.require .sendMessage
    if existing.authorId ≠ u then .error (.denied "message_author_only")
    else do
      let content ← liftDomain (validateMessageContent content)
      liftDomain (checkContent content)
      .ok content

/-- `PATCH /messages/{id}`. -/
def editMessage (messageId : MessageId) (u : UserId) (content : String) : PersonaM (List Shown) := do
  let content ← fromService (Prog.query fun db => checkEdit db messageId u content)
  Prog.modify fun db =>
    { db with messages := db.messages.update messageId (fun m => { m with content, editedAt := some db.now }) fun _ => rfl }
  let updated ← Prog.read fun db => db.messages.find messageId
  match updated with
  | none => Prog.fail (.service (.repository (.notFound "message")))
  | some updated => do
    let author ← Prog.read fun db => authorShown db updated.roomId updated
    pure [author]

/-- `GET /rooms/{id}/messages`. -/
def readHistory (r : RoomId) (u : UserId) (before : Option Timestamp) (beforeId : Option MessageId) (limit : Option Int) :
    PersonaM (List Shown) := do
  let page ← fromService (history r u before beforeId limit)
  Prog.read fun db => page.messages.map (authorShown db r)

/-- `POST /rooms/{id}/call/ring`: the other one in a direct conversation is told who calls. -/
def ring (r : RoomId) (u : UserId) : PersonaM (List Shown) := do
  let a ← fromService (Prog.query fun db => visibleAccess db r u)
  Prog.ensure a.room.isDirect (.service (.invalid "room" "only a direct conversation can be called"))
  let peer ← Prog.read fun db => directPeer db r u
  Prog.ensure peer.isSome (.service (.notFound "call recipient"))
  let user ← Prog.mapError .auth (Prog.query (currentUser u))
  pure [{ roomId := r, userId := u, name := some user.profile.displayName }]

/-- `PATCH /me`, the name in it. -/
def updateDisplayName (u : UserId) (displayName : String) : PersonaM (List Shown) := do
  let _ ← Prog.lift ((validateDisplayName displayName).mapError .domain)
  let found ← Prog.read fun db => db.profiles.contains u
  Prog.modify fun db => { db with profiles := db.profiles.update u (fun p => { p with displayName }) fun _ => rfl }
  Prog.ensure found (.auth (.repository (.notFound "profile")))
  pure []

/-! ## Runs -/

/-- What happens in the rooms. -/
inductive RoomEvent where
  | service (req : Room.Request)
  | displayName (u : UserId) (name : String)
  | mediaJoin (r : RoomId) (u : UserId)
  | openSession (r : RoomId) (u : UserId)
  | ring (r : RoomId) (u : UserId)
  | typing (r : RoomId) (u : UserId)
  | post (id : MessageId) (r : RoomId) (u : UserId) (content : String) (chosen : Option Bool) (verdict : Option FloodVerdict)
      (replyTo : Option MessageId)
  | send (id : MessageId) (r : RoomId) (u : UserId) (content : String) (chosen : Option Bool) (verdict : Option FloodVerdict)
  | edit (messageId : MessageId) (u : UserId) (content : String)
  | history (r : RoomId) (u : UserId) (before : Option Timestamp) (beforeId : Option MessageId) (limit : Option Int)

/-- The names an event puts in front of others. -/
def showNames (config : MediaConfig) : RoomEvent → PersonaM (List Shown)
  | .service req => do
    fromService (handle req)
    pure []
  | .displayName u name => updateDisplayName u name
  | .mediaJoin r u => joinMedia config r u
  | .openSession r u => openRoomSession config r u
  | .ring r u => Api.ring r u
  | .typing r u => announceTyping r u
  | .post id r u content chosen verdict replyTo => postMessage id r u content chosen verdict replyTo
  | .send id r u content chosen verdict => sendMessage id r u content chosen verdict
  | .edit messageId u content => editMessage messageId u content
  | .history r u before beforeId limit => readHistory r u before beforeId limit

def roomStep (config : MediaConfig) (db : Db) (e : RoomEvent) : Db := ((showNames config e).exec db).2

/-- No name but the alias, for whoever wears a persona. -/
def masks (db : Db) (r : RoomId) (u : UserId) (name : String) : Bool :=
  !wearsPersona db r u || (name = nobody || aliasOf db r u = some name)

def Shown.Masked (db : Db) (s : Shown) : Prop := ∀ name, s.name = some name → masks db s.roomId s.userId name = true

/-- Every name an event shows is the alias of whoever wears a persona. -/
def NamesMasked (config : MediaConfig) (db : Db) (e : RoomEvent) : Prop :=
  ∀ shown db', (showNames config e).exec db = (.ok shown, db') → ∀ s ∈ shown, s.Masked db'

/-- Is the profile's name no other than the alias, for somebody with a persona? -/
def profileMasked (db : Db) (r : RoomId) (u : UserId) : Bool := (displayNameOf db u).all (masks db r u)

/-- Is it a room for media? -/
def mediaRoom (db : Db) (r : RoomId) : Bool := (db.room r).any fun row => row.roomType.isMedia

/-- What being issued a media token takes. -/
def issuable (db : Db) (r : RoomId) (u : UserId) : Bool := callable db r u && (currentUser u db).isOk

/-- What ringing takes: a direct conversation, with somebody to ring. -/
def ringable (db : Db) (r : RoomId) (u : UserId) : Bool :=
  match visibleAccess db r u with
  | .ok a => a.room.isDirect && (directPeer db r u).isSome && (currentUser u db).isOk
  | .error _ => false

/-- What it takes that a room session comes with a media token. -/
def sessionIssues (db : Db) (r : RoomId) (u : UserId) : Bool :=
  joinable db r u && mediaRoom db r && (currentUser u db).isOk

/-- The alias a session finds. It joins the room first, and joining an anonymous room makes an alias up for whoever has
none there. -/
def sessionAlias (db : Db) (r : RoomId) (u : UserId) : Option String :=
  if (db.room r).any (·.isAnonymous) then some ((aliasOf db r u).getD (generateAnonymousIdentity r u).1) else aliasOf db r u

/-- Is the profile's name no other than the alias that a session finds? -/
def sessionMasked (db : Db) (r : RoomId) (u : UserId) : Bool :=
  (displayNameOf db u).all fun name => !wearsPersona db r u || (name = nobody || sessionAlias db r u = some name)

/-- Nobody who wears a persona is called by their profile: whoever can be issued a media token, or can ring, wears none or
goes by their alias in public. -/
def ProfileUnused (db : Db) : RoomEvent → Prop
  | .mediaJoin r u => issuable db r u = true → profileMasked db r u = true
  | .ring r u => ringable db r u = true → profileMasked db r u = true
  | .openSession r u => sessionIssues db r u = true → sessionMasked db r u = true
  | _ => True

/-! ## What is shown -/

section Shown

variable {config : MediaConfig} {db db' : Db} {r : RoomId} {u : UserId} {shown : List Shown}

theorem fromService_ok {α : Type} {m : SqlM α} {a : α} (h : (fromService m).exec db = (.ok a, db')) : m.exec db = (.ok a, db') := by
  unfold fromService at h
  rw [Prog.exec_mapError] at h
  rcases hm : m.exec db with ⟨_ | a', db''⟩ <;> rw [hm] at h <;> cases h
  rfl

theorem okOf_some {α : Type} {m : SqlM α} {a : α} (h : (okOf m).exec db = (.ok (some a), db')) : m.exec db = (.ok a, db') := by
  obtain ⟨hvalue, rfl⟩ := Prod.mk.inj h
  rcases hm : m.exec db with ⟨_ | a', db''⟩
  · rw [hm] at hvalue
    cases hvalue
  · rw [hm] at hvalue
    cases hvalue
    rfl

theorem fromQuery_ok {α : Type} {q : Db → Except ServiceError α} {a : α}
    (h : (fromService (Prog.query q)).exec db = (.ok a, db')) : q db = .ok a ∧ db' = db := by
  obtain ⟨hq, rfl⟩ := Prod.mk.inj (fromService_ok h)
  exact ⟨hq, rfl⟩

theorem currentUser_ok {user : AuthenticatedUser} (h : (Prog.mapError ApiError.auth (Prog.query (currentUser u))).exec db = (.ok user, db')) :
    db' = db ∧ displayNameOf db u = some user.profile.displayName := by
  rw [Prog.exec_mapError, Prog.exec_query] at h
  rcases hc : currentUser u db with e | found
  · rw [hc] at h
    cases h
  · rw [hc] at h
    cases h
    refine ⟨rfl, ?_⟩
    unfold currentUser profileOf at hc
    rcases hu : db.users.find u with _ | row
    · rw [hu] at hc
      cases hc
    · rw [hu] at hc
      simp only at hc
      split at hc
      · cases hc
      · unfold displayNameOf
        rcases hp : db.profiles.find u with _ | profile
        · rw [hp] at hc
          cases hc
        · rw [hp] at hc
          cases hc
          rfl

/-- A media token is issued to nobody but the caller, in the room that was asked for, and issuing it writes nothing. -/
theorem mediaJoin_ok {name : String} {response : MediaJoinResponse}
    (h : (fromService (mediaJoin config r u name)).exec db = (.ok response, db')) :
    db' = db ∧ response.roomId = r ∧ response.participantId = u ∧ response.token.name = name := by
  obtain ⟨a, db₁, ha, h₁⟩ := Prog.bind_ok (fromService_ok h)
  obtain ⟨_, db₂, hmedia, h₂⟩ := Prog.bind_ok h₁
  obtain ⟨_, db₃, hview, h₃⟩ := Prog.bind_ok h₂
  have e₁ : db = db₁ := (Prod.mk.inj ha).2
  have e₂ : db₁ = db₂ := (Prod.mk.inj hmedia).2
  have e₃ : db₂ = db₃ := (Prog.ensure_ok hview).2.symm
  rw [Prog.exec_read_bind, Prog.exec_pure] at h₃
  obtain ⟨hresponse, e₄⟩ := Prod.mk.inj h₃
  cases hresponse
  exact ⟨by rw [← e₄, ← e₃, ← e₂, e₁], rfl, rfl, rfl⟩

/-- A media token names its holder by the profile. -/
theorem joinMedia_ok (h : (joinMedia config r u).exec db = (.ok shown, db')) :
    db' = db ∧ ∃ name, displayNameOf db u = some name ∧ shown = [{ roomId := r, userId := u, name := some name }] := by
  obtain ⟨user, db₁, huser, h₁⟩ := Prog.bind_ok h
  obtain ⟨rfl, hname⟩ := currentUser_ok huser
  obtain ⟨response, db₂, hresponse, h₂⟩ := Prog.bind_ok h₁
  obtain ⟨rfl, hroom, huser, htoken⟩ := mediaJoin_ok hresponse
  obtain ⟨hshown, rfl⟩ := Prod.mk.inj h₂
  cases hshown
  exact ⟨rfl, user.profile.displayName, hname, by rw [hroom, huser, htoken]⟩

/-- So does a ring. -/
theorem ring_ok (h : (ring r u).exec db = (.ok shown, db')) :
    db' = db ∧ ∃ name, displayNameOf db u = some name ∧ shown = [{ roomId := r, userId := u, name := some name }] := by
  obtain ⟨a, db₁, ha, h₁⟩ := Prog.bind_ok h
  obtain ⟨-, rfl⟩ := fromQuery_ok ha
  obtain ⟨_, db₂, hdirect, h₂⟩ := Prog.bind_ok h₁
  obtain ⟨-, rfl⟩ := Prog.ensure_ok hdirect
  rw [Prog.exec_read_bind] at h₂
  obtain ⟨_, db₃, hpeer, h₃⟩ := Prog.bind_ok h₂
  obtain ⟨-, rfl⟩ := Prog.ensure_ok hpeer
  obtain ⟨user, db₄, huser, h₄⟩ := Prog.bind_ok h₃
  obtain ⟨rfl, hname⟩ := currentUser_ok huser
  obtain ⟨hshown, rfl⟩ := Prod.mk.inj h₄
  cases hshown
  exact ⟨rfl, user.profile.displayName, hname, rfl⟩

/-- A name taken from the profile is masked exactly where the profile's name is the alias. -/
theorem profileShown_masked {name : String} (hname : displayNameOf db u = some name) :
    Shown.Masked db { roomId := r, userId := u, name := some name } ↔ profileMasked db r u = true := by
  unfold profileMasked
  rw [hname]
  constructor
  · intro h
    exact h name rfl
  · intro h name' hname'
    cases hname'
    exact h

theorem updateDisplayName_shows {name : String} (h : (updateDisplayName u name).exec db = (.ok shown, db')) : shown = [] := by
  obtain ⟨_, db₁, -, h₁⟩ := Prog.bind_ok h
  rw [Prog.exec_read_bind, Prog.exec_modify_bind] at h₁
  obtain ⟨_, db₂, -, h₂⟩ := Prog.bind_ok h₁
  cases h₂
  rfl

/-- The author of a message is masked wherever a message is shown. -/
theorem authorShown_masked (db : Db) (r : RoomId) (m : Message) : (authorShown db r m).Masked db := by
  intro name hname
  unfold masks
  unfold authorShown at hname ⊢
  simp only at hname ⊢
  split at hname
  · simp [hname]
  · cases hname

theorem speakerName_masked (db : Db) (r : RoomId) (u : UserId) : masks db r u (speakerName db r u) = true := by
  unfold masks speakerName wearsPersona
  rcases hp : db.roomParticipants.find (r, u) with _ | participant
  · rfl
  · simp only [Option.any_some]
    by_cases ha : participant.isAnonymous = true
    · simp only [ha, if_true]
      rcases aliasOf db r u with _ | name
      · simp
      · simp
    · simp [ha]

/-- A typing signal. -/
theorem announceTyping_masked (h : (announceTyping r u).exec db = (.ok shown, db')) : ∀ s ∈ shown, s.Masked db' := by
  unfold announceTyping at h
  rw [Prog.exec_read_bind, Prog.exec_pure] at h
  obtain ⟨hshown, rfl⟩ := Prod.mk.inj h
  cases hshown
  rintro s hs name hname
  obtain rfl := List.mem_singleton.1 hs
  cases hname
  exact speakerName_masked db r u

/-- The identity of a user in a room is the one they have there, or the one made up for them. -/
theorem aliasOf_getOrCreate {identity : RoomAnonymousIdentity}
    (h : (getOrCreateAnonymousIdentity r u).exec db = (.ok identity, db')) :
    aliasOf db' r u = some identity.aliasName ∧ identity.aliasName = (aliasOf db r u).getD (generateAnonymousIdentity r u).1 := by
  unfold getOrCreateAnonymousIdentity at h
  unfold aliasOf
  rw [Prog.exec_read_bind] at h
  rcases hfind : db.roomAnonymousIdentities.find (r, u) with _ | existing
  · rw [hfind] at h
    rcases hg : generateAnonymousIdentity r u with ⟨aliasName, avatarSeed, accentColor⟩
    simp only [hg, SqlM.exec_check_bind] at h
    split at h
    · split at h
      · simp only [Prog.exec_read_bind, Prog.exec_modify_bind, Prog.exec_pure, Prod.mk.injEq, Except.ok.injEq] at h
        obtain ⟨rfl, rfl⟩ := h
        simp [Table.find_insert, hfind, key]
      · cases h
    · cases h
  · rw [hfind] at h
    cases h
    rw [hfind]
    exact ⟨rfl, rfl⟩

theorem post_ok {id : MessageId} {content : String} {masked : Bool} {verdict : Option FloodVerdict} {replyTo : Option MessageId}
    {message : Message} (h : (post id r u content masked verdict replyTo).exec db = (.ok message, db')) :
    message.roomId = r ∧ message.authorId = u := by
  obtain ⟨text, db₁, -, h₁⟩ := Prog.bind_ok h
  rw [Prog.exec_read_bind] at h₁
  unfold insertMessage at h₁
  simp only [SqlM.exec_check_bind] at h₁
  split at h₁
  · split at h₁
    · simp only [Prog.exec_read_bind, Prog.exec_modify_bind, Prog.exec_pure, Prod.mk.injEq, Except.ok.injEq] at h₁
      obtain ⟨rfl, -⟩ := h₁
      exact ⟨rfl, rfl⟩
    · cases h₁
  · cases h₁

/-- A message names its author by the alias that the identity behind it stores. -/
theorem sendAs_masked {masked : Bool} {id : MessageId} {content : String} {verdict : Option FloodVerdict}
    {replyTo : Option MessageId} (h : (sendAs masked id r u content verdict replyTo).exec db = (.ok shown, db')) :
    ∀ s ∈ shown, s.Masked db' := by
  obtain ⟨message, db₁, hpost, h₁⟩ := Prog.bind_ok h
  obtain ⟨hroom, hauthor⟩ := post_ok (fromService_ok hpost)
  obtain ⟨identity, db₂, hidentity, h₂⟩ := Prog.bind_ok h₁
  obtain ⟨hshown, rfl⟩ := Prod.mk.inj h₂
  cases hshown
  rintro s hs name hname
  obtain rfl := List.mem_singleton.1 hs
  cases masked
  · cases hidentity
    cases hname
  · rcases identity with _ | identity
    · cases hname
    · cases hname
      unfold masks
      rw [hroom, hauthor, (aliasOf_getOrCreate (okOf_some hidentity)).1]
      simp

theorem postMessage_masked {id : MessageId} {content : String} {chosen : Option Bool} {verdict : Option FloodVerdict}
    {replyTo : Option MessageId} (h : (postMessage id r u content chosen verdict replyTo).exec db = (.ok shown, db')) :
    ∀ s ∈ shown, s.Masked db' := by
  obtain ⟨a, db₁, -, h₁⟩ := Prog.bind_ok h
  rw [Prog.exec_read_bind] at h₁
  exact sendAs_masked h₁

theorem sendMessage_masked {id : MessageId} {content : String} {chosen : Option Bool} {verdict : Option FloodVerdict}
    (h : (sendMessage id r u content chosen verdict).exec db = (.ok shown, db')) : ∀ s ∈ shown, s.Masked db' := by
  unfold sendMessage at h
  rw [Prog.exec_read_bind] at h
  exact sendAs_masked h

theorem editMessage_masked {messageId : MessageId} {content : String}
    (h : (editMessage messageId u content).exec db = (.ok shown, db')) : ∀ s ∈ shown, s.Masked db' := by
  obtain ⟨text, db₁, -, h₁⟩ := Prog.bind_ok h
  rw [Prog.exec_modify_bind, Prog.exec_read_bind] at h₁
  split at h₁
  · cases h₁
  · rename_i updated _
    rw [Prog.exec_read_bind, Prog.exec_pure] at h₁
    obtain ⟨hshown, rfl⟩ := Prod.mk.inj h₁
    cases hshown
    rintro s hs
    obtain rfl := List.mem_singleton.1 hs
    exact authorShown_masked _ _ _

theorem authors_masked (db : Db) (r : RoomId) (messages : List Message) : ∀ s ∈ messages.map (authorShown db r), s.Masked db := by
  rintro s hs
  obtain ⟨m, -, rfl⟩ := List.mem_map.1 hs
  exact authorShown_masked db r m

theorem history_frame {before : Option Timestamp} {beforeId : Option MessageId} {limit : Option Int} {page : MessagePage}
    (h : (fromService (history r u before beforeId limit)).exec db = (.ok page, db')) : db' = db := by
  obtain ⟨a, db₁, ha, h₁⟩ := Prog.bind_ok (fromService_ok h)
  have e₁ : db = db₁ := (Prod.mk.inj ha).2
  rw [Prog.exec_read] at h₁
  rw [← (Prod.mk.inj h₁).2, e₁]

theorem readHistory_masked {before : Option Timestamp} {beforeId : Option MessageId} {limit : Option Int}
    (h : (readHistory r u before beforeId limit).exec db = (.ok shown, db')) : ∀ s ∈ shown, s.Masked db' := by
  obtain ⟨page, db₁, -, h₁⟩ := Prog.bind_ok h
  rw [Prog.exec_read] at h₁
  obtain ⟨hshown, rfl⟩ := Prod.mk.inj h₁
  cases hshown
  exact authors_masked db₁ r page.messages

theorem mediaRoom_of_access {a : RoomAccess} (h : visibleAccess db r u = .ok a) : mediaRoom db r = a.room.roomType.isMedia := by
  obtain ⟨row, hrow, hroom⟩ := access_room (visibleAccess_ok.1 h).1
  unfold mediaRoom
  rw [hrow, hroom]
  rfl

/-- A session shows the authors of the recent messages, and in a media room the profile's name in a token. Nothing is
written after the join. -/
theorem openRoomSession_ok (h : (openRoomSession config r u).exec db = (.ok shown, db')) :
    db' = ((join r u).exec db).2 ∧ ∃ (messages : List Message) (tokens : List Shown), shown = messages.map (authorShown db' r) ++ tokens ∧
      (mediaRoom db' r = false → tokens = []) ∧
      (mediaRoom db' r = true →
        ∃ name, displayNameOf db' u = some name ∧ tokens = [{ roomId := r, userId := u, name := some name }]) := by
  obtain ⟨joined, db₁, hjoin, h₁⟩ := Prog.bind_ok h
  obtain ⟨a, db₂, ha, h₂⟩ := Prog.bind_ok h₁
  obtain ⟨haccess, rfl⟩ := fromQuery_ok ha
  obtain ⟨page, db₃, hpage, h₃⟩ := Prog.bind_ok h₂
  obtain rfl := history_frame hpage
  rw [Prog.exec_read_bind] at h₃
  have hafter : db₃ = ((join r u).exec db).2 := by rw [fromService_ok hjoin]
  have hmedia : mediaRoom db₃ r = a.room.roomType.isMedia := mediaRoom_of_access haccess
  split at h₃
  · rename_i hm
    obtain ⟨session, db₄, hsession, h₄⟩ := Prog.bind_ok h₃
    obtain ⟨rfl, name, hname, rfl⟩ := joinMedia_ok hsession
    obtain ⟨hshown, rfl⟩ := Prod.mk.inj h₄
    cases hshown
    refine ⟨hafter, page.messages, _, rfl, fun hno => ?_, fun _ => ⟨name, hname, rfl⟩⟩
    rw [hmedia, hm] at hno
    cases hno
  · rename_i hm
    obtain ⟨hshown, rfl⟩ := Prod.mk.inj h₃
    cases hshown
    refine ⟨hafter, page.messages, [], (List.append_nil _).symm, fun _ => rfl, fun hyes => ?_⟩
    rw [hmedia] at hyes
    exact absurd hyes hm

/-! ### Which calls name somebody -/

theorem isOk_fromService {α : Type} (m : SqlM α) (db : Db) : ((fromService m).exec db).1.isOk = (m.exec db).1.isOk := by
  unfold fromService
  rw [Prog.exec_mapError]
  rcases (m.exec db).1 with e | a <;> rfl

theorem isOk_joinMedia (config : MediaConfig) (db : Db) (r : RoomId) (u : UserId) :
    ((joinMedia config r u).exec db).1.isOk = issuable db r u := by
  unfold joinMedia issuable
  rw [Prog.exec_bind, Prog.exec_mapError, Prog.exec_query]
  rcases currentUser u db with e | user
  · exact (Bool.and_false _).symm
  · have hok := isOk_fromService (mediaJoin config r u user.profile.displayName) db
    rw [isOk_mediaJoin] at hok
    simp only [Except.mapError, Prog.exec_bind]
    rcases hx : (fromService (mediaJoin config r u user.profile.displayName)).exec db with ⟨e | response, db'⟩ <;> rw [hx] at hok <;>
      rw [← hok] <;> rfl

theorem isOk_ring (db : Db) (r : RoomId) (u : UserId) : ((ring r u).exec db).1.isOk = ringable db r u := by
  unfold ring ringable
  rw [Prog.exec_bind]
  unfold fromService
  rw [Prog.exec_mapError, Prog.exec_query]
  rcases visibleAccess db r u with e | a
  · rfl
  · simp only [Except.mapError, Prog.exec_ensure_bind, Prog.exec_read_bind]
    cases hd : a.room.isDirect
    · rfl
    · cases hp : (directPeer db r u).isSome
      · rfl
      · simp only [if_true, Prog.exec_bind, Prog.exec_mapError, Prog.exec_query]
        rcases currentUser u db with e | user <;> rfl

end Shown

/-! ### After the join of a session -/

section Joined

variable {db : Db} {r : RoomId} {u : UserId}

theorem wearsPersona_joined (h : joinable db r u = true) : wearsPersona ((join r u).exec db).2 r u = wearsPersona db r u := by
  obtain ⟨a, -, hs⟩ := joinable_ok h
  have hread : ∀ db, wearsPersona (core db) r u = wearsPersona db r u := fun _ => rfl
  rw [← hread ((join r u).exec db).2, core_joined h, hread]
  unfold wearsPersona seated
  rw [if_pos hs]
  unfold recountParticipants insertParticipant
  simp only [Table.find_upsert, key, if_true]
  rcases db.roomParticipants.find (r, u) with _ | p <;> rfl

theorem displayNameOf_joined (h : joinable db r u = true) : displayNameOf ((join r u).exec db).2 u = displayNameOf db u := by
  obtain ⟨a, -, hs⟩ := joinable_ok h
  have hread : ∀ db, displayNameOf (core db) u = displayNameOf db u := fun _ => rfl
  rw [← hread ((join r u).exec db).2, core_joined h, hread]
  unfold seated
  rw [if_pos hs]
  rfl

theorem currentUser_joined (h : joinable db r u = true) : currentUser u ((join r u).exec db).2 = currentUser u db := by
  obtain ⟨a, -, hs⟩ := joinable_ok h
  have hread : ∀ db, currentUser u (core db) = currentUser u db := fun _ => rfl
  rw [← hread ((join r u).exec db).2, core_joined h, hread]
  unfold seated
  rw [if_pos hs]
  rfl

theorem aliasOf_joined (h : joinable db r u = true) : aliasOf ((join r u).exec db).2 r u = sessionAlias db r u := by
  have hok := isOk_join db r u
  rw [h] at hok
  rcases hx : (join r u).exec db with ⟨e | x, j⟩
  · rw [hx] at hok
    cases hok
  · obtain ⟨a, db₁, ha, h₁⟩ := Prog.bind_ok hx
    obtain ⟨hv, rfl⟩ := Prod.mk.inj ha
    obtain ⟨_, db₂, hjoin, h₂⟩ := Prog.bind_ok h₁
    rw [exec_joinRoom] at hjoin
    obtain ⟨-, rfl⟩ := Prod.mk.inj hjoin
    obtain ⟨identity, db₃, hid, h₃⟩ := Prog.bind_ok h₂
    obtain ⟨-, rfl⟩ := Prod.mk.inj h₃
    have halias : ∀ role, aliasOf (seated r u role db) r u = aliasOf db r u := by
      intro role
      unfold aliasOf seated
      split <;> rfl
    obtain ⟨row, hrow, hroom⟩ := access_room (visibleAccess_ok.1 hv).1
    unfold sessionAlias
    rw [hrow, Option.any_some]
    unfold joinIdentity at hid
    rw [hroom] at hid
    by_cases hanonymous : row.isAnonymous = true
    · rw [if_pos hanonymous] at hid ⊢
      obtain ⟨identity, db₄, hget, hpure⟩ := Prog.bind_ok hid
      obtain ⟨-, rfl⟩ := Prod.mk.inj hpure
      obtain ⟨hstored, hname⟩ := aliasOf_getOrCreate hget
      rw [halias] at hname
      rw [← hname]
      exact hstored
    · rw [if_neg hanonymous] at hid ⊢
      obtain ⟨-, rfl⟩ := Prod.mk.inj hid
      exact halias _

theorem profileMasked_joined (h : joinable db r u = true) : profileMasked ((join r u).exec db).2 r u = sessionMasked db r u := by
  unfold profileMasked sessionMasked masks
  rw [displayNameOf_joined h, wearsPersona_joined h, aliasOf_joined h]

theorem mediaRoom_joined (h : joinable db r u = true) : mediaRoom ((join r u).exec db).2 r = mediaRoom db r := by
  obtain ⟨a, hv, -⟩ := joinable_ok h
  obtain ⟨n, hj⟩ := visibleAccess_joined h
  rw [hv] at hj
  rw [mediaRoom_of_access hv, mediaRoom_of_access hj]
  rfl

theorem issuable_joined (h : joinable db r u = true) : issuable ((join r u).exec db).2 r u = issuable db r u := by
  obtain ⟨a, hv, -⟩ := joinable_ok h
  obtain ⟨n, hj⟩ := visibleAccess_joined h
  unfold issuable callable
  rw [hj, hv, currentUser_joined h]
  rfl

end Joined

/-- A session that is opened in a media room is one whose caller is issued a token. -/
theorem isOk_openRoomSession (config : MediaConfig) (db : Db) (r : RoomId) (u : UserId) :
    ((openRoomSession config r u).exec db).1.isOk = (joinable db r u && (!mediaRoom db r || (currentUser u db).isOk)) := by
  have hok := (isOk_fromService (join r u) db).trans (isOk_join db r u)
  unfold openRoomSession
  rw [Prog.exec_bind]
  rcases hx : (fromService (join r u)).exec db with ⟨e | x, j⟩
  · rw [hx] at hok
    rw [← hok]
    rfl
  · rw [hx] at hok
    have hjoinable : joinable db r u = true := hok.symm
    have hafter : j = ((join r u).exec db).2 := by rw [fromService_ok hx]
    obtain ⟨a, hv, -⟩ := joinable_ok hjoinable
    obtain ⟨n, hj⟩ := visibleAccess_joined hjoinable
    rw [← hafter, hv] at hj
    have hmedia := mediaRoom_of_access hv
    have hjoined := isOk_joinMedia config j r u
    rw [hafter, issuable_joined hjoinable, ← hafter] at hjoined
    have haccess : (fromService (Prog.query fun db => visibleAccess db r u)).exec j = (.ok (a.counting n), j) := by
      unfold fromService
      rw [Prog.exec_mapError, Prog.exec_query, hj]
      rfl
    have hhistory : (fromService (history r u none none (some sessionHistoryLimit))).exec j =
        (.ok (listMessages j r none none (clampPageSize (some sessionHistoryLimit)).toNat), j) := by
      unfold fromService history
      rw [Prog.exec_mapError, Prog.exec_query_bind, hj]
      rfl
    simp only
    rw [Prog.exec_bind_ok haccess, Prog.exec_bind_ok hhistory, Prog.exec_read_bind, hjoinable, Bool.true_and, hmedia]
    have htype : (a.counting n).room.roomType = a.room.roomType := rfl
    rw [htype]
    by_cases hm : a.room.roomType.isMedia = true
    · have hissuable : issuable db r u = (currentUser u db).isOk := by
        unfold issuable callable
        rw [hv]
        simp only [hm, Bool.true_or, Bool.true_and]
      rw [if_pos hm, hm, Bool.not_true, Bool.false_or, ← hissuable, ← hjoined, Prog.exec_bind]
      rcases (joinMedia config r u).exec j with ⟨e | session, j'⟩ <;> rfl
    · rw [if_neg hm, Bool.eq_false_iff.2 hm]
      rfl

/-! ## Runs -/

section Runs

variable {config : MediaConfig} {db : Db}

theorem exec_of_isOk {m : PersonaM (List Shown)} (h : (m.exec db).1.isOk = true) :
    ∃ shown, m.exec db = (.ok shown, (m.exec db).2) := by
  rcases hm : m.exec db with ⟨_ | shown, db'⟩
  · rw [hm] at h
    cases h
  · exact ⟨shown, rfl⟩

theorem isOk_of_exec {m : PersonaM (List Shown)} {shown : List Shown} {db' : Db} (h : m.exec db = (.ok shown, db')) :
    (m.exec db).1.isOk = true := by
  rw [h]
  rfl

/-- A path that writes nothing and shows the profile's name masks exactly where that name is the alias. -/
theorem profilePath_iff {m : PersonaM (List Shown)} {r : RoomId} {u : UserId} {names : Bool} (hnames : (m.exec db).1.isOk = names)
    (hm : ∀ shown db', m.exec db = (.ok shown, db') →
      db' = db ∧ ∃ name, displayNameOf db u = some name ∧ shown = [{ roomId := r, userId := u, name := some name }]) :
    (∀ shown db', m.exec db = (.ok shown, db') → ∀ s ∈ shown, s.Masked db') ↔ (names = true → profileMasked db r u = true) := by
  rw [← hnames]
  constructor
  · intro h hok
    obtain ⟨shown, hrun⟩ := exec_of_isOk hok
    obtain ⟨hdb, name, hname, rfl⟩ := hm shown _ hrun
    rw [hdb] at hrun
    exact (profileShown_masked hname).1 (h _ db hrun _ List.mem_cons_self)
  · intro h shown db' hrun
    obtain ⟨rfl, name, hname, rfl⟩ := hm shown db' hrun
    rintro s hs
    obtain rfl := List.mem_singleton.1 hs
    exact (profileShown_masked hname).2 (h (isOk_of_exec hrun))

theorem openSession_iff (r : RoomId) (u : UserId) :
    NamesMasked config db (.openSession r u) ↔ ProfileUnused db (.openSession r u) := by
  have hopens := isOk_openRoomSession config db r u
  constructor
  · intro h hissues
    obtain ⟨hjoins, hcurrent⟩ := Bool.and_eq_true_iff.1 hissues
    obtain ⟨hjoinable, hmedia⟩ := Bool.and_eq_true_iff.1 hjoins
    rw [hjoinable, hcurrent, Bool.or_true, Bool.and_true] at hopens
    obtain ⟨shown, hrun⟩ := exec_of_isOk hopens
    obtain ⟨hdb, messages, tokens, rfl, -, htoken⟩ := openRoomSession_ok hrun
    rw [hdb] at hrun htoken
    obtain ⟨name, hname, rfl⟩ := htoken ((mediaRoom_joined hjoinable).trans hmedia)
    rw [← profileMasked_joined hjoinable]
    exact (profileShown_masked hname).1 (h _ _ hrun _ (List.mem_append_right _ List.mem_cons_self))
  · intro h shown db' hrun
    change (openRoomSession config r u).exec db = _ at hrun
    rw [isOk_of_exec hrun] at hopens
    obtain ⟨hjoinable, hcurrent⟩ := Bool.and_eq_true_iff.1 hopens.symm
    obtain ⟨rfl, messages, tokens, rfl, hnone, htoken⟩ := openRoomSession_ok hrun
    rw [mediaRoom_joined hjoinable] at hnone htoken
    rintro s hs
    rcases List.mem_append.1 hs with hs | hs
    · exact authors_masked _ r messages s hs
    · cases hmedia : mediaRoom db r
      · rw [hnone hmedia] at hs
        cases hs
      · rw [hmedia, Bool.not_true, Bool.false_or] at hcurrent
        obtain ⟨name, hname, rfl⟩ := htoken hmedia
        obtain rfl := List.mem_singleton.1 hs
        refine (profileShown_masked hname).2 ?_
        rw [profileMasked_joined hjoinable]
        exact h (Bool.and_eq_true_iff.2 ⟨Bool.and_eq_true_iff.2 ⟨hjoinable, hmedia⟩, hcurrent⟩)

/-- One event: every path but the two that read the profile masks by itself. -/
theorem namesMasked_event (config : MediaConfig) (db : Db) (e : RoomEvent) : NamesMasked config db e ↔ ProfileUnused db e := by
  cases e with
  | mediaJoin r u => exact profilePath_iff (isOk_joinMedia config db r u) fun _ _ => joinMedia_ok
  | ring r u => exact profilePath_iff (isOk_ring db r u) fun _ _ => ring_ok
  | openSession r u => exact openSession_iff r u
  | service req =>
    refine iff_of_true (fun shown db' h => ?_) trivial
    obtain ⟨_, db₁, -, h₁⟩ := Prog.bind_ok h
    cases h₁
    exact fun s hs => nomatch hs
  | displayName u name =>
    refine iff_of_true (fun shown db' h => ?_) trivial
    rw [updateDisplayName_shows h]
    exact fun s hs => nomatch hs
  | typing r u => exact iff_of_true (fun _ _ => announceTyping_masked) trivial
  | post id r u content chosen verdict replyTo => exact iff_of_true (fun _ _ => postMessage_masked) trivial
  | send id r u content chosen verdict => exact iff_of_true (fun _ _ => sendMessage_masked) trivial
  | edit messageId u content => exact iff_of_true (fun _ _ => editMessage_masked) trivial
  | history r u before beforeId limit => exact iff_of_true (fun _ _ => readHistory_masked) trivial

/-- In every run: whoever wears a persona is shown under the alias of the room or no name, exactly if nobody with a persona
who goes by another name in public is issued a media token or rings. -/
theorem names_masked_iff (config : MediaConfig) (db : Db) (es : List RoomEvent) :
    Along (roomStep config) (NamesMasked config) db es ↔ Along (roomStep config) ProfileUnused db es :=
  along_congr (J := fun _ => True) (fun _ _ _ => trivial) (fun db e _ => namesMasked_event config db e) trivial

/-! ### A masked voice -/

/-- `ana`, with her profile. -/
def anaAlone : Db :=
  { Db.empty 0 with
    users := (Table.empty).insert (account ⟨2⟩ "ana")
    profiles := (Table.empty).insert { userId := ⟨2⟩, displayName := "Ana Silva", avatarUrl := none } }

/-- She opens a voice room, puts a persona on there and joins the call. -/
def maskedCall : List RoomEvent :=
  [.service (.create ⟨10⟩ none ⟨2⟩ { name := "lounge", roomType := .voice }), .service (.setPersona ⟨10⟩ ⟨2⟩ true),
    .mediaJoin ⟨10⟩ ⟨2⟩]

def noMedia : MediaConfig := { apiKey := "key", mediaUrl := "", tokenTtlSeconds := 60 }

/-- The token calls her by the name of her profile, and a typing signal does not. -/
theorem masked_voice_named :
    ¬ Along (roomStep noMedia) (NamesMasked noMedia) anaAlone maskedCall ∧
    ((joinMedia noMedia ⟨10⟩ ⟨2⟩).exec (run (roomStep noMedia) anaAlone maskedCall)).1.toOption =
      some [{ roomId := ⟨10⟩, userId := ⟨2⟩, name := some "Ana Silva" }] ∧
    ((announceTyping ⟨10⟩ ⟨2⟩).exec (run (roomStep noMedia) anaAlone maskedCall)).1.toOption =
      some [{ roomId := ⟨10⟩, userId := ⟨2⟩, name := some nobody }] := by
  refine ⟨fun h => ?_, by decide +kernel, by decide +kernel⟩
  have hunused := (namesMasked_event noMedia _ _).1 h.2.2.1 (by decide +kernel)
  exact absurd hunused (by decide +kernel)

end Runs

end Genzh.Api
