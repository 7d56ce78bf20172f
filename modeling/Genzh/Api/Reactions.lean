/-
Reacting over a socket. The room a command names is the client's word and is used for one thing: it is the room the new
tally is published in, once the client sees it. The room that was checked and written to is the message's own.

`reaction_published` says when the two are one room.
-/
import Genzh.Api.Protocol
import Genzh.Room.Request

namespace Genzh.Api

open Genzh.Lib Genzh.Domain Genzh.Infrastructure Genzh.Room Genzh.Messaging

/-- What a command about reactions leaves: the database, what was published, and what the client is refused with. -/
structure Reacted where
  db : ReactionDb
  published : List ChatServerEvent
  refused : Option ServiceError := none

/-- Publish a message's whole new tally, so no client has to reconstruct it. -/
def broadcastReactions (roomId : RoomId) (messageId : MessageId) (reader : UserId) (db : ReactionDb) : List ChatServerEvent :=
  match ((reactionsFor roomId reader [messageId]).exec db).1 with
  | .ok tallies => [.reactionsUpdated roomId messageId ((tallies.get messageId).getD [])]
  | .error _ => []

/-- React over a socket. -/
def socketReact (toLowercase : String → String) (session : Session) (roomId : RoomId) (messageId : MessageId) (reaction : String)
    (verdict : Option FloodVerdict) (db : ReactionDb) : Reacted :=
  match session.currentUser with
  | none => { db, published := [] }
  | some user =>
    match (react toLowercase messageId user reaction verdict).exec db with
    | (.error e, db) => { db, published := [], refused := some e }
    | (.ok _, db) => { db, published := broadcastReactions roomId messageId user db }

/-- Take a reaction back over a socket. Removing one says nothing when it fails. -/
def socketUnreact (session : Session) (roomId : RoomId) (messageId : MessageId) (reaction : String) (db : ReactionDb) : Reacted :=
  match session.currentUser with
  | none => { db, published := [] }
  | some user =>
    match (unreact messageId user reaction).exec db with
    | (.error _, db) => { db, published := [] }
    | (.ok _, db) => { db, published := broadcastReactions roomId messageId user db }

/-- A command about a reaction. -/
inductive ReactionCommand where
  | react (verdict : Option FloodVerdict)
  | unreact
  deriving DecidableEq, Repr

/-- Handle it, in the name of the session's user. -/
def reactionCommand (toLowercase : String → String) (session : Session) (roomId : RoomId) (messageId : MessageId)
    (reaction : String) (db : ReactionDb) : ReactionCommand → Reacted
  | .react verdict => socketReact toLowercase session roomId messageId reaction verdict db
  | .unreact => socketUnreact session roomId messageId reaction db

/-- May the user give, or take back, this reaction to this message? -/
def mayReact (toLowercase : String → String) (user : UserId) (messageId : MessageId) (reaction : String) (db : ReactionDb) :
    ReactionCommand → Bool
  | .react verdict => ((Messaging.react toLowercase messageId user reaction verdict).exec db).1.isOk
  | .unreact => ((Messaging.unreact messageId user reaction).exec db).1.isOk

/-! ## The room the tally goes to -/

/-- Does a connection hear about what was published? -/
def Reacted.heard (o : Reacted) (s : Session) : Bool := o.published.any (s.accepts false)

/-- What was published is about the room, and those who follow the room hear it, and nobody else. -/
def Reacted.PublishedIn (o : Reacted) (roomId : RoomId) : Prop :=
  (∀ e ∈ o.published, e.roomId = some roomId) ∧ ∀ s, o.heard s = s.isSubscribed roomId

section Published

variable {toLowercase : String → String} {session : Session} {user : UserId} {roomId : RoomId} {messageId : MessageId}
  {reaction : String} {db : ReactionDb} {m : Message}

/-- The tally is published in the room the client named, where the client sees that room. -/
theorem broadcastReactions_eq (roomId : RoomId) (messageId : MessageId) (user : UserId) (db : ReactionDb) : (∃ tallies, broadcastReactions roomId messageId user db =
      [.reactionsUpdated roomId messageId tallies]) ∧ (visibleAccess db.toDb roomId user).isOk = true ∨
    broadcastReactions roomId messageId user db = [] ∧ (visibleAccess db.toDb roomId user).isOk = false := by
  unfold broadcastReactions reactionsFor
  rw [Prog.exec_query_bind]
  cases visibleAccess db.toDb roomId user with
  | ok a => exact .inl ⟨⟨_, rfl⟩, rfl⟩
  | error e => exact .inr ⟨rfl, rfl⟩

/-- A command that is carried out publishes on the database it leaves, where the rooms are what they were. -/
theorem reactionCommand_ok (roomId : RoomId) {cmd : ReactionCommand} (huser : session.currentUser = some user)
    (hm : db.messages.find messageId = some m) (hmay : mayReact toLowercase user messageId reaction db cmd = true) :
    (visibleAccess db.toDb m.roomId user).isOk = true ∧ ∃ db' : ReactionDb, db'.toDb = db.toDb ∧
      (reactionCommand toLowercase session roomId messageId reaction db cmd).published =
        broadcastReactions roomId messageId user db' := by
  cases cmd with
  | react verdict =>
    refine ⟨react_visible hm hmay, _, frames_react toLowercase messageId user reaction verdict db, ?_⟩
    unfold reactionCommand socketReact
    simp only [huser]
    change ((Messaging.react toLowercase messageId user reaction verdict).exec db).1.isOk = true at hmay
    rcases hexec : (Messaging.react toLowercase messageId user reaction verdict).exec db with ⟨_ | _, db'⟩
    · rw [hexec] at hmay
      cases hmay
    · rfl
  | unreact =>
    refine ⟨unreact_visible hm hmay, _, frames_unreact messageId user reaction db, ?_⟩
    unfold reactionCommand socketUnreact
    simp only [huser]
    change ((Messaging.unreact messageId user reaction).exec db).1.isOk = true at hmay
    rcases hexec : (Messaging.unreact messageId user reaction).exec db with ⟨_ | _, db'⟩
    · rw [hexec] at hmay
      cases hmay
    · rfl

/-- A connection that follows one room. -/
def follower (user : UserId) (roomId : RoomId) : Session := (Session.new user).subscribe roomId

theorem follower_subscribed (user : UserId) (roomId : RoomId) : (follower user roomId).isSubscribed roomId = true := by
  simp [follower, Session.subscribe, Session.new, Session.isSubscribed]

/-- A reaction that a user may give or take back is published in the room of its message, to those who follow that
room, exactly if the command names that room. -/
theorem reaction_published (cmd : ReactionCommand) (huser : session.currentUser = some user)
    (hm : db.messages.find messageId = some m) (hmay : mayReact toLowercase user messageId reaction db cmd = true) :
    (reactionCommand toLowercase session roomId messageId reaction db cmd).PublishedIn m.roomId ↔ roomId = m.roomId := by
  obtain ⟨hvisible, db', hdb, hpublished⟩ := reactionCommand_ok roomId huser hm hmay
  rw [← hdb] at hvisible
  unfold Reacted.PublishedIn Reacted.heard
  rw [hpublished]
  rcases broadcastReactions_eq roomId messageId user db' with
    ⟨⟨tallies, hnews⟩, -⟩ | ⟨hnews, hhidden⟩
  · rw [hnews]
    constructor
    · rintro ⟨haddress, -⟩
      exact Option.some.inj (haddress _ List.mem_cons_self)
    · rintro rfl
      refine ⟨fun e he => ?_, fun s => ?_⟩
      · obtain rfl := List.mem_singleton.1 he
        rfl
      · rw [List.any_cons, List.any_nil, Bool.or_false]
        exact Session.accepts_room rfl
  · rw [hnews]
    constructor
    · -- those who follow the message's room hear nothing
      rintro ⟨-, haudience⟩
      have := haudience (follower user m.roomId)
      rw [follower_subscribed] at this
      cases this
    · rintro rfl
      rw [hvisible] at hhidden
      cases hhidden

end Published

/-! ## A reaction published next door -/

/-- `ana` has a kitchen and a lounge, and wrote something in the kitchen. -/
def twoRooms : ReactionDb :=
  { run Room.step (Db.empty 0) [
      .register (account ⟨2⟩ "ana"),
      .create ⟨10⟩ none ⟨2⟩ { name := "kitchen", roomType := .text },
      .create ⟨11⟩ none ⟨2⟩ { name := "lounge", roomType := .text },
      .post ⟨20⟩ ⟨10⟩ ⟨2⟩ "tea?" false none none] with
    messageReactions := .empty
    communityEmojis := .empty }

/-- She reacts to it and names the lounge: that is where it is published. -/
theorem reaction_next_door :
    (twoRooms.messages.find ⟨20⟩).map (·.roomId) = some ⟨10⟩ ∧
    mayReact id ⟨2⟩ ⟨20⟩ "+1" twoRooms (.react none) = true ∧
    (reactionCommand id (Session.new ⟨2⟩) ⟨11⟩ ⟨20⟩ "+1" twoRooms (.react none)).published =
      [.reactionsUpdated ⟨11⟩ ⟨20⟩ [{ reaction := "+1", count := 1, me := true }]] ∧
    ¬ (reactionCommand id (Session.new ⟨2⟩) ⟨11⟩ ⟨20⟩ "+1" twoRooms (.react none)).PublishedIn ⟨10⟩ := by
  have hpublished : (reactionCommand id (Session.new ⟨2⟩) ⟨11⟩ ⟨20⟩ "+1" twoRooms (.react none)).published =
      [.reactionsUpdated ⟨11⟩ ⟨20⟩ [{ reaction := "+1", count := 1, me := true }]] := by decide +kernel
  refine ⟨by decide +kernel, by decide +kernel, hpublished, fun h => ?_⟩
  have hroom := h.1 _ (hpublished ▸ List.mem_cons_self)
  exact absurd hroom (by decide)

/-- Naming the kitchen, it is published in the kitchen. -/
theorem reaction_published_in_kitchen :
    (reactionCommand id (Session.new ⟨2⟩) ⟨10⟩ ⟨20⟩ "+1" twoRooms (.react none)).PublishedIn ⟨10⟩ := by
  obtain ⟨m, hm, hroom⟩ := Option.map_eq_some_iff.1 (show (twoRooms.messages.find ⟨20⟩).map (·.roomId) = some ⟨10⟩ by decide +kernel)
  rw [← hroom]
  exact (reaction_published (.react none) rfl hm (by decide +kernel)).2 rfl

end Genzh.Api
