/-
Reactions to a message. Adding one takes the permission to react in the room that contains the message, and removing
one only that the room is visible; a `:shortcode:` has to name a custom emoji of the room's community. The tables the
reactions are kept in are read by nothing else.

Lowering a string is a table of Unicode's, and an argument.
-/
import Genzh.Messaging.Service
import Genzh.Lib.Map

namespace Genzh.Messaging

open Genzh.Lib Genzh.Domain Genzh.Infrastructure Genzh.Room

/-! ## Reaction keys -/

def reactionMaxLen : Nat := 64
def emojiNameMinLen : Nat := 2
def emojiNameMaxLen : Nat := 32

/-- Validate a reaction key. -/
def validateReaction (raw : String) : Except DomainError String :=
  let reaction := trim raw
  if reaction.isEmpty || reactionMaxLen < reaction.length then
    .error (.invalid "reaction" s!"must be between 1 and {reactionMaxLen} characters")
  else .ok reaction

/-- `str::trim_matches(':')`. -/
def trimColons (s : String) : String := String.ofList ((s.toList.dropWhile (· == ':')).rdropWhile (· == ':'))

/-- Validate and normalise a shortcode name. -/
def validateEmojiName (toLowercase : String → String) (raw : String) : Except DomainError String :=
  let name := toLowercase (trimColons (trim raw))
  if name.length < emojiNameMinLen || emojiNameMaxLen < name.length then
    .error (.invalid "name" s!"must be between {emojiNameMinLen} and {emojiNameMaxLen} characters")
  else if !name.toList.all fun c => c.isLower || c.isDigit || c == '_' then
    .error (.invalid "name" "may only contain letters, digits and underscores")
  else if name.toList.all Char.isDigit then .error (.invalid "name" "must not be only digits")
  else .ok name

/-- What stands between two colons, if it contains no other. -/
def betweenColons : List Char → Option String
  | ':' :: rest =>
    if rest.getLast? = some ':' ∧ ':' ∉ rest.dropLast then some (String.ofList rest.dropLast) else none
  | _ => none

/-- The emoji name a reaction key refers to, when it refers to a custom one. -/
def shortcodeName (toLowercase : String → String) (reaction : String) : Option String :=
  (betweenColons (trim reaction).toList).bind fun inner => (validateEmojiName toLowercase inner).toOption

/-! ## Tables -/

/-- A single user's reaction to a message. -/
structure MessageReaction where
  messageId : MessageId
  userId : UserId
  reaction : String
  createdAt : Timestamp
  deriving DecidableEq, Repr

/-- One community-defined emoji. Its name is unique in its community. -/
structure CustomEmoji where
  communityId : CommunityId
  name : String
  deriving DecidableEq, Repr

/-- Reaction counts as one viewer sees them. -/
structure ReactionSummary where
  reaction : String
  count : Nat
  me : Bool
  deriving DecidableEq, Repr

instance : HasKey MessageReaction (MessageId × UserId × String) := ⟨fun r => (r.messageId, r.userId, r.reaction)⟩
instance : HasKey CustomEmoji (CommunityId × String) := ⟨fun e => (e.communityId, e.name)⟩

structure ReactionDb extends Db where
  messageReactions : Table MessageReaction
  communityEmojis : Table CustomEmoji

abbrev ReactionM := Prog ReactionDb ServiceError

/-- `ORDER BY count DESC, reaction ASC`. -/
def commonestFirst (a b : ReactionSummary) : Bool := b.count < a.count || (a.count = b.count && decide (a.reaction ≤ b.reaction))

/-- Reaction counts for one message, as `viewer` sees them. -/
def reactionSummaries (db : ReactionDb) (messageId : MessageId) (viewer : UserId) : List ReactionSummary :=
  let rows := db.messageReactions.select fun r => r.messageId = messageId
  let summary := fun reaction => ({
    reaction
    count := rows.countP fun r => r.reaction = reaction
    me := rows.any fun r => r.reaction = reaction && r.userId = viewer } : ReactionSummary)
  ((rows.map (·.reaction)).dedup.map summary).insertionSort fun a b => commonestFirst a b

/-- The same for a page of messages. A message with no reactions has no key. -/
def reactionSummariesFor (db : ReactionDb) (messageIds : List MessageId) (viewer : UserId) : Map MessageId (List ReactionSummary) :=
  (messageIds.filter fun id => db.messageReactions.rows.any fun r => r.messageId = id).foldl
    (fun grouped id => grouped.set id (reactionSummaries db id viewer)) .empty

/-- Add a reaction. Reacting twice is one reaction. -/
def addReaction (messageId : MessageId) (userId : UserId) (reaction : String) : ReactionM Unit := do
  let ok ← Prog.read fun db => db.messages.contains messageId && db.userExists userId
  Prog.ensure ok (.repository .foreignKey)
  Prog.modify fun db =>
    { db with messageReactions := db.messageReactions.insert { messageId, userId, reaction, createdAt := db.now } }

/-- Remove a reaction. -/
def removeReaction (messageId : MessageId) (userId : UserId) (reaction : String) : ReactionM Bool := do
  let present ← Prog.read fun db => db.messageReactions.contains (messageId, userId, reaction)
  Prog.modify fun db => { db with messageReactions := db.messageReactions.delete (messageId, userId, reaction) }
  pure present

/-! ## The service -/

def reactingTooFast : String := "You are reacting too quickly — wait a moment"
def reactionToggling : String := "You have toggled that reaction too many times"

/-- A verdict of the flood guard on a reaction; `none` is a guard that is unavailable. -/
def reactionGuard : Option FloodVerdict → Except ServiceError Unit
  | none | some .allowed => .ok ()
  | some (.tooFast s) => .error (.domain (.throttled reactingTooFast (max 1 s)))
  | some (.repeated s) => .error (.domain (.throttled reactionToggling (max 1 s)))

/-- One message. -/
def findMessage (db : Db) (messageId : MessageId) : Except ServiceError Message :=
  match db.messages.find messageId with
  | some message => .ok message
  | none => .error (.notFound "message")

/-- A shortcode has to name a glyph that exists in the room's community. A room outside any has none. -/
def ensureEmoji (toLowercase : String → String) (db : ReactionDb) (room : Room) (reaction : String) : Except ServiceError Unit :=
  match shortcodeName toLowercase reaction with
  | none => .ok ()
  | some name =>
    if room.communityId.any fun communityId => db.communityEmojis.contains (communityId, name) then .ok ()
    else .error (.invalid "reaction" s!":{name}: is not an emoji in this community")

/-- React to a message. -/
def react (toLowercase : String → String) (messageId : MessageId) (userId : UserId) (reaction : String)
    (verdict : Option FloodVerdict) : ReactionM (List ReactionSummary) := do
  let existing ← Prog.query fun db => findMessage db.toDb messageId
  let a ← Prog.query fun db => visibleAccess db.toDb existing.roomId userId
  Prog.lift (a.require .addReaction)
  let reaction ← Prog.lift (liftDomain (validateReaction reaction))
  Prog.query fun db => ensureEmoji toLowercase db a.room reaction
  Prog.lift (reactionGuard verdict)
  addReaction messageId userId reaction
  Prog.read fun db => reactionSummaries db messageId userId

/-- Remove a reaction. -/
def unreact (messageId : MessageId) (userId : UserId) (reaction : String) : ReactionM (List ReactionSummary) := do
  let existing ← Prog.query fun db => findMessage db.toDb messageId
  let _ ← Prog.query fun db => visibleAccess db.toDb existing.roomId userId
  let reaction ← Prog.lift (liftDomain (validateReaction reaction))
  let removed ← removeReaction messageId userId reaction
  Prog.ensure removed (.notFound "reaction")
  Prog.read fun db => reactionSummaries db messageId userId

/-- Reaction tallies for a page of messages, as one viewer sees them. -/
def reactionsFor (roomId : RoomId) (userId : UserId) (messageIds : List MessageId) :
    ReactionM (Map MessageId (List ReactionSummary)) := do
  let _ ← Prog.query fun db => visibleAccess db.toDb roomId userId
  Prog.read fun db => reactionSummariesFor db messageIds userId

/-! ## What the commands leave alone -/

/-- Reacting writes the reactions and nothing else. -/
theorem frames_react (toLowercase : String → String) (messageId : MessageId) (userId : UserId) (reaction : String)
    (verdict : Option FloodVerdict) : Prog.Frames ReactionDb.toDb (react toLowercase messageId userId reaction verdict) := by
  refine (Prog.Frames.query _).bind fun existing => (Prog.Frames.query _).bind fun a => (Prog.Frames.lift _).bind fun _ => ?_
  refine (Prog.Frames.lift _).bind fun reaction => (Prog.Frames.query _).bind fun _ => (Prog.Frames.lift _).bind fun _ => ?_
  refine Prog.Frames.bind ?_ fun _ => Prog.Frames.read _
  exact (Prog.Frames.read _).bind fun ok => (Prog.Frames.ensure _ _).bind fun _ => Prog.Frames.modify fun _ => rfl

theorem frames_unreact (messageId : MessageId) (userId : UserId) (reaction : String) :
    Prog.Frames ReactionDb.toDb (unreact messageId userId reaction) := by
  refine (Prog.Frames.query _).bind fun existing => (Prog.Frames.query _).bind fun a => (Prog.Frames.lift _).bind fun reaction => ?_
  refine Prog.Frames.bind ?_ fun removed => (Prog.Frames.ensure _ _).bind fun _ => Prog.Frames.read _
  refine (Prog.Frames.read _).bind fun present => Prog.Frames.bind ?_ fun _ => Prog.Frames.pure _
  exact Prog.Frames.modify fun _ => rfl

theorem findMessage_ok {db : Db} {messageId : MessageId} {m : Message} :
    findMessage db messageId = .ok m ↔ db.messages.find messageId = some m := by
  unfold findMessage
  cases db.messages.find messageId <;> simp

section Visible

variable {α : Type} {messageId : MessageId} {userId : UserId} {reaction : String} {db : ReactionDb} {m : Message}

/-- A call that looks the message up and then asks for access to its room succeeds only where the room is visible. -/
theorem visible_of_ok {f : Message → RoomAccess → ReactionM α} (hm : db.messages.find messageId = some m)
    (h : ((do
      let existing ← Prog.query fun db => findMessage db.toDb messageId
      let a ← Prog.query fun db => visibleAccess db.toDb existing.roomId userId
      f existing a : ReactionM α).exec db).1.isOk = true) :
    (visibleAccess db.toDb m.roomId userId).isOk = true := by
  rw [Prog.exec_query_bind, findMessage_ok.2 hm] at h
  simp only at h
  rw [Prog.exec_query_bind] at h
  cases hv : visibleAccess db.toDb m.roomId userId with
  | ok a => rfl
  | error e =>
    rw [hv] at h
    cases h

theorem react_visible {toLowercase : String → String} {verdict : Option FloodVerdict}
    (hm : db.messages.find messageId = some m)
    (h : ((react toLowercase messageId userId reaction verdict).exec db).1.isOk = true) :
    (visibleAccess db.toDb m.roomId userId).isOk = true := visible_of_ok hm h

theorem unreact_visible (hm : db.messages.find messageId = some m)
    (h : ((unreact messageId userId reaction).exec db).1.isOk = true) :
    (visibleAccess db.toDb m.roomId userId).isOk = true := visible_of_ok hm h

end Visible

end Genzh.Messaging

namespace Genzh.Messaging

open Genzh.Domain

/-! ## Shortcodes

The shortcodes of a text: what stands between two colons, if it could name a custom emoji. The colon that closes one may
open the next.
-/

/-- The characters of a shortcode. Upper case is accepted while scanning, though it is never stored. -/
def isNameChar (c : Char) : Bool := c.isAlphanum || c == '_'

/-- The scan from here on, given what has been found. -/
def shortcodesFrom (toLowercase : String → String) (found : List String) : List Char → List String
  | [] => found
  | c :: rest =>
    if c ≠ ':' then shortcodesFrom toLowercase found rest
    else
      let candidate := (rest.takeWhile isNameChar).take emojiNameMaxLen
      let digitsOnly := candidate.all Char.isDigit
      if (rest.drop candidate.length).head? = some ':' ∧ emojiNameMinLen ≤ candidate.length ∧ digitsOnly = false then
        let name := toLowercase (String.ofList candidate)
        -- the scan resumes at the closing colon
        shortcodesFrom toLowercase (if name ∈ found then found else found ++ [name]) (rest.drop candidate.length)
      else shortcodesFrom toLowercase found rest
termination_by l => l.length

/-- Every distinct shortcode named in a text, lower-cased. -/
def parseShortcodes (toLowercase : String → String) (content : String) : List String :=
  shortcodesFrom toLowercase [] content.toList

end Genzh.Messaging
