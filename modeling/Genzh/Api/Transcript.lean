/-
The transcript of a room over its whole life: posts, edits, deletions, reactions and pins, between everything else that may
happen to the rooms, their participants and who may do what in them.

`message_provenance`: who wrote a message, where and when never changes, and its text is what its author last made of it.
`transcript_sound`: every message keeps to the limits, and what refers to a message refers to one that is there, in its room.
-/
import Genzh.Api.Messages
import Genzh.Room.Request
import Genzh.Room.Observe
import Genzh.Messaging.Glyphs
import Genzh.Lib.Run

namespace Genzh.Api.Messages

open Genzh.Lib Genzh.Domain Genzh.Infrastructure Genzh.Room Genzh.Community Genzh.Messaging

/-! ## Pins -/

/-- `INSERT INTO pinned_messages .. ON CONFLICT DO NOTHING`. Pinning a message twice is the same pin. -/
def insertPin (r : RoomId) (id : MessageId) (u : UserId) : ChatM Unit := do
  let ok ← Prog.read fun db =>
    db.pinnedMessages.contains (r, id) || (db.roomExists r && db.messages.contains id && db.userExists u)
  Prog.ensure ok (.repository .foreignKey)
  Prog.modify fun db =>
    { db with pinnedMessages := db.pinnedMessages.insert { roomId := r, messageId := id, pinnedBy := some u, pinnedAt := db.now } }

/-- What pinning and unpinning are refused for, and the room of the message otherwise. It takes whoever manages the room, not
the author. -/
def checkPin (db : Db) (id : MessageId) (u : UserId) : Except ServiceError RoomId := do
  let message ← findMessage db id
  let a ← visibleAccess db message.roomId u
  a.require .manageRoom
  .ok message.roomId

/-- Pin a message to the top of its room. -/
def pin (id : MessageId) (u : UserId) : ChatM Unit := do
  let r ← Prog.query fun db => checkPin db.toDb id u
  insertPin r id u

/-- Remove a pin. -/
def unpin (id : MessageId) (u : UserId) : ChatM Unit := do
  let r ← Prog.query fun db => checkPin db.toDb id u
  Prog.modify fun db => { db with pinnedMessages := db.pinnedMessages.delete (r, id) }

/-! ## Calls -/

/-- What may happen to a transcript. A post is a request of the rooms. -/
inductive ChatCall where
  | room (req : Room.Request)
  | edit (id : MessageId) (u : UserId) (content : String)
  | delete (id : MessageId) (u : UserId)
  | react (id : MessageId) (u : UserId) (reaction : String) (verdict : Option FloodVerdict)
  | unreact (id : MessageId) (u : UserId) (reaction : String)
  | pin (id : MessageId) (u : UserId)
  | unpin (id : MessageId) (u : UserId)
  | emojis (defined : Table Messaging.CustomEmoji)

/-- The rest of the database is another one. The reactions to messages that are gone go with them, and so do the pins. -/
def ChatDb.onto (db : ChatDb) (rest : Db) : ChatDb where
  toDb := rest
  messageReactions := db.messageReactions.deleteWhere fun r => !rest.messages.contains r.messageId
  communityEmojis := db.communityEmojis
  pinnedMessages := db.pinnedMessages.deleteWhere fun p => !rest.messages.contains p.messageId

/-- A service that only uses the rest of the database and the reactions. -/
def overReactions {α : Type} (m : ReactionM α) : ChatM α :=
  fun db => ((m.exec db.toReactionDb).1, { db with toReactionDb := (m.exec db.toReactionDb).2 })

/-- Drop what a call returns. -/
def chatVoid {α : Type} (m : ChatM α) : ChatM Unit := do
  let _ ← m
  pure ()

def ChatCall.handle (toLowercase : String → String) : ChatCall → ChatM Unit
  | .room req => fun db => (((Room.handle req).exec db.toDb).1, db.onto ((Room.handle req).exec db.toDb).2)
  | .edit id u content => chatVoid (Messages.edit id u content)
  | .delete id u => chatVoid (Messages.delete id u)
  | .react id u reaction verdict => chatVoid (overReactions (Messaging.react toLowercase id u reaction verdict))
  | .unreact id u reaction => chatVoid (overReactions (Messaging.unreact id u reaction))
  | .pin id u => Messages.pin id u
  | .unpin id u => Messages.unpin id u
  | .emojis defined => Prog.modify fun db => { db with communityEmojis := defined }

def chatStep (toLowercase : String → String) (db : ChatDb) (c : ChatCall) : ChatDb := ((c.handle toLowercase).exec db).2

/-- A database just migrated. -/
def ChatDb.empty (now : Timestamp) : ChatDb where
  toDb := Db.empty now
  messageReactions := .empty
  communityEmojis := .empty
  pinnedMessages := .empty

/-! ## What a request of the rooms does to the messages -/

section Rooms

variable {db : Db}

theorem frames_messages {req : Room.Request} (hreq : req.isAboutRooms = true) :
    Prog.Frames (fun db : Db => db.messages) (Room.handle req) := frames_handle (fun _ _ _ _ => rfl) hreq

/-- The message a post adds. -/
def postedMessage (now : Timestamp) (id : MessageId) (r : RoomId) (u : UserId) (text : String) (isAnonymous : Bool)
    (replyTo : Option MessageId) : Message where
  id := id
  roomId := r
  authorId := u
  content := text
  replyToId := replyTo
  isAnonymous := isAnonymous
  editedAt := none
  createdAt := now

/-- The messages of rooms that are no more go with them. -/
def WithRooms (db : Db) (messages : Table Message) (db' : Db) : Prop :=
  ∃ gone : RoomId → Bool, messages = (db.messages.deleteWhere fun m => gone m.roomId) ∧
    ∀ r, gone r = true → db'.roomExists r = false

theorem withRooms_of_eq {messages : Table Message} {db' : Db} (h : messages = db.messages) : WithRooms db messages db' := by
  refine ⟨fun _ => false, h.trans (Table.ext ?_), fun _ hgone => by cases hgone⟩
  exact (List.filter_eq_self.2 fun _ _ => rfl).symm

theorem exec_post_text (id : MessageId) (r : RoomId) (u : UserId) (content : String) (isAnonymous : Bool)
    (verdict : Option FloodVerdict) (replyTo : Option MessageId) (db : Db) :
    ((Messaging.post id r u content isAnonymous verdict replyTo).exec db).2 = db ∨
    ∃ text, checkPost db r u content verdict replyTo = .ok text ∧ db.messages.contains id = false ∧
      ((Messaging.post id r u content isAnonymous verdict replyTo).exec db).2 =
        { db with messages := db.messages.insert (postedMessage db.now id r u text isAnonymous replyTo) } := by
  unfold Messaging.post
  rw [Prog.exec_query_bind]
  rcases hcheck : checkPost db r u content verdict replyTo with e | text
  · exact .inl rfl
  · simp only [Prog.exec_read_bind, insertMessage, SqlM.exec_check_bind]
    by_cases hnew : (!db.messages.contains id) = true
    · rw [if_pos hnew]
      split
      · exact .inr ⟨text, rfl, by simpa using hnew, rfl⟩
      · exact .inl rfl
    · rw [if_neg hnew]
      exact .inl rfl

theorem exec_deleteCommunity (id : CommunityId) (u : UserId) (db : Db) :
    ((deleteCommunity id u).exec db).2 = if ownsCommunity db id u then deleteCommunityRow id db else db := by
  unfold deleteCommunity ownsCommunity
  rw [Prog.exec_query_bind]
  rcases memberContext db id u with e | m
  · rfl
  · simp only [Prog.exec_ensure_bind]
    split <;> rfl

/-- A request of the rooms posts a message, or takes away those of rooms that it deletes. -/
theorem messages_step (db : Db) (req : Room.Request) :
    (∃ id r u content isAnonymous verdict replyTo text, req = .post id r u content isAnonymous verdict replyTo ∧
      checkPost db r u content verdict replyTo = .ok text ∧ db.messages.contains id = false ∧
      (Room.step db req).messages = db.messages.insert (postedMessage db.now id r u text isAnonymous replyTo)) ∨
    WithRooms db (Room.step db req).messages (Room.step db req) := by
  by_cases hreq : req.isAboutRooms = true
  · exact .inr (withRooms_of_eq (frames_messages hreq db))
  · cases req with
    | post id r u content isAnonymous verdict replyTo =>
      unfold Room.step Room.handle
      rw [(exec_void _ _).1]
      rcases exec_post_text id r u content isAnonymous verdict replyTo db with hsame | ⟨text, hcheck, hnew, hdb⟩
      · rw [hsame]
        exact .inr (withRooms_of_eq rfl)
      · rw [hdb]
        exact .inl ⟨id, r, u, content, isAnonymous, verdict, replyTo, text, rfl, hcheck, hnew, rfl⟩
    | delete r u =>
      unfold Room.step Room.handle
      rw [exec_delete]
      split
      · refine .inr ⟨fun r' => r' = r, rfl, fun r' hr' => ?_⟩
        have hroom : (deleteRoomRow r db).room r' = none := by
          rw [room_deleteRoomRow, if_pos (of_decide_eq_true hr').symm]
        unfold Db.roomExists Table.contains
        rw [show (deleteRoomRow r db).rooms.find r' = none from hroom]
        rfl
      · exact .inr (withRooms_of_eq rfl)
    | deleteCommunity id u =>
      unfold Room.step Room.handle
      rw [exec_deleteCommunity]
      split
      · refine .inr ⟨roomOf db id, rfl, fun r hr => ?_⟩
        obtain ⟨row, hrow, hcommunity⟩ := (Option.any_eq_true _ _).1 hr
        have hroom : (deleteCommunityRow id db).room r = none := by
          rw [room_deleteCommunityRow, hrow]
          simpa using hcommunity
        unfold Db.roomExists Table.contains
        rw [show (deleteCommunityRow id db).rooms.find r = none from hroom]
        rfl
      · exact .inr (withRooms_of_eq rfl)
    | register user => exact .inr (withRooms_of_eq (@frames_registering _ Db.messages (fun _ _ => rfl) user db))
    | createCommunity id owner roles rooms =>
      exact .inr (withRooms_of_eq (@frames_founding _ Db.messages (fun _ _ _ _ _ _ => rfl) id owner roles rooms db))
    | block a b => exact .inr (withRooms_of_eq (@frames_blocking _ Db.messages (fun _ _ _ => rfl) a b db))
    | unblock a b => exact .inr (withRooms_of_eq (@frames_unblocking _ Db.messages (fun _ _ => rfl) a b db))
    | govern g => exact .inr (withRooms_of_eq rfl)
    | clock now => exact .inr (withRooms_of_eq rfl)
    | _ => exact absurd rfl hreq

end Rooms

/-! ## What a call does -/

/-- No pin and no reaction but those of before, and those of messages that are there. -/
structure Trimmed (db db' : ChatDb) : Prop where
  pins : ∀ p ∈ db'.pinnedMessages.rows, p ∈ db.pinnedMessages.rows ∧ db'.messages.contains p.messageId = true
  reactions : ∀ x ∈ db'.messageReactions.rows, x ∈ db.messageReactions.rows ∧ db'.messages.contains x.messageId = true

theorem key_rewritten (text : String) (now : Timestamp) (m : Message) :
    key ({ m with content := text, editedAt := some now } : Message) = key m := rfl

/-- A message with another text. -/
def rewritten (id : MessageId) (text : String) (db : ChatDb) : ChatDb :=
  { db with
    messages := db.messages.update id (fun m => { m with content := text, editedAt := some db.now }) (key_rewritten text db.now) }

/-- What an edit makes of a message. -/
structure Rewrite where
  user : UserId
  text : String
  time : Timestamp
  deriving DecidableEq, Repr

/-- The edit of one message that a call makes. -/
def ChatCall.rewrite (id : MessageId) (db : ChatDb) : ChatCall → Option Rewrite
  | .edit id' u content => if id' = id then (checkEdit db.toDb id u content).toOption.map fun text => ⟨u, text, db.now⟩ else none
  | _ => none

/-- A call does nothing, or one of these. -/
inductive Change (toLowercase : String → String) (db : ChatDb) : ChatCall → ChatDb → Prop where
  | refused (c : ChatCall) (hnone : ∀ id, c.rewrite id db = none) : Change toLowercase db c db
  | posted {db' : ChatDb} (id : MessageId) (r : RoomId) (u : UserId) (content : String) (isAnonymous : Bool)
      (verdict : Option FloodVerdict) (replyTo : Option MessageId) (text : String)
      (hcheck : checkPost db.toDb r u content verdict replyTo = .ok text) (hnew : db.messages.contains id = false)
      (hmessages : db'.messages = db.messages.insert (postedMessage db.now id r u text isAnonymous replyTo))
      (hrest : Trimmed db db') : Change toLowercase db (.room (.post id r u content isAnonymous verdict replyTo)) db'
  | rooms {db' : ChatDb} (req : Room.Request) (hmessages : WithRooms db.toDb db'.messages db'.toDb) (hrest : Trimmed db db') :
      Change toLowercase db (.room req) db'
  | edited (id : MessageId) (u : UserId) (content text : String) (hcheck : checkEdit db.toDb id u content = .ok text) :
      Change toLowercase db (.edit id u content) (rewritten id text db)
  | deleted (id : MessageId) (u : UserId) (hcheck : checkDelete db.toDb id u = .ok ()) :
      Change toLowercase db (.delete id u) (deleteRow id db)
  | reacted (id : MessageId) (u : UserId) (reaction key : String) (verdict : Option FloodVerdict)
      (hcheck : checkReact toLowercase db.toReactionDb id u reaction verdict = .ok key) :
      Change toLowercase db (.react id u reaction verdict) { db with toReactionDb := withReaction id u db.toReactionDb key }
  | unreacted (id : MessageId) (u : UserId) (reaction key : String)
      (hcheck : checkUnreact db.toReactionDb id u reaction = .ok key) :
      Change toLowercase db (.unreact id u reaction) { db with toReactionDb := withoutReaction id u db.toReactionDb key }
  | pinned (id : MessageId) (u : UserId) (r : RoomId) (hcheck : checkPin db.toDb id u = .ok r) :
      Change toLowercase db (.pin id u)
        { db with
          pinnedMessages := db.pinnedMessages.insert { roomId := r, messageId := id, pinnedBy := some u, pinnedAt := db.now } }
  | unpinned (id : MessageId) (u : UserId) (r : RoomId) (hcheck : checkPin db.toDb id u = .ok r) :
      Change toLowercase db (.unpin id u) { db with pinnedMessages := db.pinnedMessages.delete (r, id) }
  | emojis (defined : Table Messaging.CustomEmoji) : Change toLowercase db (.emojis defined) { db with communityEmojis := defined }

section Change

variable {toLowercase : String → String} {db : ChatDb}

theorem trimmed_onto (db : ChatDb) (rest : Db) : Trimmed db (db.onto rest) := by
  constructor
  · intro p hp
    obtain ⟨hold, hthere⟩ := Table.mem_deleteWhere.1 hp
    have hthere : rest.messages.contains p.messageId = true := by simpa using hthere
    exact ⟨hold, hthere⟩
  · intro x hx
    obtain ⟨hold, hthere⟩ := Table.mem_deleteWhere.1 hx
    have hthere : rest.messages.contains x.messageId = true := by simpa using hthere
    exact ⟨hold, hthere⟩

theorem exec_chatVoid {α : Type} (m : ChatM α) (db : ChatDb) : ((chatVoid m).exec db).2 = (m.exec db).2 := by
  unfold chatVoid
  rw [Prog.exec_bind]
  rcases m.exec db with ⟨_ | a, db'⟩ <;> rfl

theorem change_edit (id : MessageId) (u : UserId) (content : String) :
    Change toLowercase db (.edit id u content) ((Messages.edit id u content).exec db).2 := by
  unfold Messages.edit
  rw [Prog.exec_query_bind]
  rcases hcheck : checkEdit db.toDb id u content with e | text
  · refine .refused _ fun id' => ?_
    rw [ChatCall.rewrite]
    split
    · subst id'
      rw [hcheck]
      rfl
    · rfl
  · have hrest : ((Messages.updateContent id text).exec db).2 = rewritten id text db := by
      unfold updateContent
      rw [Prog.exec_modify_bind, Prog.exec_query]
      rfl
    simp only
    rw [Prog.exec_bind]
    rcases hupdate : (updateContent id text).exec db with ⟨e | updated, db'⟩
    · rw [hupdate] at hrest
      exact hrest ▸ .edited id u content text hcheck
    · rw [hupdate] at hrest
      exact hrest ▸ .edited id u content text hcheck

theorem change_delete (id : MessageId) (u : UserId) :
    Change toLowercase db (.delete id u) ((Messages.delete id u).exec db).2 := by
  unfold Messages.delete
  rw [Prog.exec_query_bind]
  rcases findMessage db.toDb id with e | message
  · exact .refused _ fun _ => rfl
  · simp only [Prog.exec_query_bind]
    rcases hcheck : checkDelete db.toDb id u with e | _
    · exact .refused _ fun _ => rfl
    · exact .deleted id u hcheck

theorem change_pin (id : MessageId) (u : UserId) : Change toLowercase db (.pin id u) ((Messages.pin id u).exec db).2 := by
  unfold Messages.pin
  rw [Prog.exec_query_bind]
  rcases hcheck : checkPin db.toDb id u with e | r
  · exact .refused _ fun _ => rfl
  · simp only [insertPin, Prog.exec_read_bind, Prog.exec_ensure_bind]
    split
    · exact .pinned id u r hcheck
    · exact .refused _ fun _ => rfl

theorem change_unpin (id : MessageId) (u : UserId) : Change toLowercase db (.unpin id u) ((Messages.unpin id u).exec db).2 := by
  unfold Messages.unpin
  rw [Prog.exec_query_bind]
  rcases hcheck : checkPin db.toDb id u with e | r
  · exact .refused _ fun _ => rfl
  · exact .unpinned id u r hcheck

theorem chatStep_change (toLowercase : String → String) (db : ChatDb) (c : ChatCall) :
    Change toLowercase db c (chatStep toLowercase db c) := by
  unfold chatStep
  cases c with
  | room req =>
    rcases messages_step db.toDb req with ⟨id, r, u, content, isAnonymous, verdict, replyTo, text, rfl, hcheck, hnew, hmessages⟩ | hrooms
    · exact .posted id r u content isAnonymous verdict replyTo text hcheck hnew hmessages (trimmed_onto db _)
    · exact .rooms req hrooms (trimmed_onto db _)
  | edit id u content =>
    rw [ChatCall.handle, exec_chatVoid]
    exact change_edit id u content
  | delete id u =>
    rw [ChatCall.handle, exec_chatVoid]
    exact change_delete id u
  | react id u reaction verdict =>
    rw [ChatCall.handle, exec_chatVoid]
    have hafter : ((Messaging.react toLowercase id u reaction verdict).exec db.toReactionDb).2 = _ := after_react
    have hstep : ((overReactions (Messaging.react toLowercase id u reaction verdict)).exec db).2 =
        { db with toReactionDb := ((Messaging.react toLowercase id u reaction verdict).exec db.toReactionDb).2 } := rfl
    rw [hstep, hafter]
    rcases hcheck : checkReact toLowercase db.toReactionDb id u reaction verdict with e | key
    · exact .refused _ fun _ => rfl
    · exact .reacted id u reaction key verdict hcheck
  | unreact id u reaction =>
    rw [ChatCall.handle, exec_chatVoid]
    have hafter : ((Messaging.unreact id u reaction).exec db.toReactionDb).2 = _ := @after_unreact toLowercase _ _ _ _
    have hstep : ((overReactions (Messaging.unreact id u reaction)).exec db).2 =
        { db with toReactionDb := ((Messaging.unreact id u reaction).exec db.toReactionDb).2 } := rfl
    rw [hstep, hafter]
    rcases hcheck : checkUnreact db.toReactionDb id u reaction with e | key
    · exact .refused _ fun _ => rfl
    · exact .unreacted id u reaction key hcheck
  | pin id u => exact change_pin id u
  | unpin id u => exact change_unpin id u
  | emojis defined => exact .emojis defined

end Change

/-! ## What refers to a message -/

/-- Every message keeps to the limits. What refers to a message refers to one that is there and in its room: an answer to an
earlier one, a reaction, a pin. -/
structure Sound (db : ChatDb) : Prop where
  texts : ∀ m ∈ db.messages.rows, trim m.content = m.content ∧ m.content.isEmpty = false ∧ m.content.length ≤ messageMaxLen ∧
    checkContent m.content = .ok ()
  answers : ∀ m ∈ db.messages.rows, ∀ id, m.replyToId = some id → ∃ m', db.messages.find id = some m' ∧ m'.roomId = m.roomId
  earlier : db.messages.rows.Pairwise fun m later => m.replyToId ≠ some later.id
  notItself : ∀ m ∈ db.messages.rows, m.replyToId ≠ some m.id
  reactions : ∀ x ∈ db.messageReactions.rows, db.messages.contains x.messageId = true ∧ validateReaction x.reaction = .ok x.reaction
  pins : ∀ p ∈ db.pinnedMessages.rows, ∃ m, db.messages.find p.messageId = some m ∧ m.roomId = p.roomId

section Sound

variable {toLowercase : String → String} {db db' : ChatDb}

theorem liftDomain_eq_ok {α : Type} {x : Except DomainError α} {a : α} : liftDomain x = .ok a ↔ x = .ok a := by
  cases x <;> simp [liftDomain]

/-- What a checked text keeps to. -/
theorem text_of_checks {raw text : String} (hcontent : validateMessageContent raw = .ok text) (hcheck : checkContent text = .ok ()) :
    trim text = text ∧ text.isEmpty = false ∧ text.length ≤ messageMaxLen ∧ checkContent text = .ok () := by
  obtain ⟨rfl, hempty, hlength⟩ := validateMessageContent_ok hcontent
  exact ⟨trim_trim raw, hempty, hlength, hcheck⟩

theorem validateReaction_idem {raw key : String} (h : liftDomain (validateReaction raw) = .ok key) : validateReaction key = .ok key := by
  obtain rfl := validateReaction_ok h
  have h : validateReaction raw = .ok (trim raw) := liftDomain_eq_ok.1 h
  unfold validateReaction at h ⊢
  rw [trim_trim]
  exact h

theorem checkPost_ok {db : Db} {r : RoomId} {u : UserId} {content text : String} {verdict : Option FloodVerdict}
    {replyTo : Option MessageId} (h : checkPost db r u content verdict replyTo = .ok text) :
    validateMessageContent content = .ok text ∧ checkContent text = .ok () ∧ checkReply db r replyTo = .ok () := by
  obtain ⟨a, -, h⟩ := Prog.bind_eq_ok h
  obtain ⟨-, -, h⟩ := Prog.bind_eq_ok h
  obtain ⟨valid, hvalid, h⟩ := Prog.bind_eq_ok h
  obtain ⟨_, hcheck, h⟩ := Prog.bind_eq_ok h
  obtain ⟨-, -, h⟩ := Prog.bind_eq_ok h
  obtain ⟨_, hreply, h⟩ := Prog.bind_eq_ok h
  cases h
  exact ⟨liftDomain_eq_ok.1 hvalid, liftDomain_eq_ok.1 hcheck, hreply⟩

/-- Only the author edits. -/
theorem checkEdit_ok {db : Db} {id : MessageId} {u : UserId} {content text : String} (h : checkEdit db id u content = .ok text) :
    (∃ m, db.messages.find id = some m ∧ m.authorId = u) ∧ validateMessageContent content = .ok text ∧ checkContent text = .ok () := by
  unfold checkEdit at h
  rcases hfind : db.messages.find id with _ | m
  · rw [hfind] at h
    cases h
  · rw [hfind] at h
    obtain ⟨a, -, h⟩ := Prog.bind_eq_ok h
    obtain ⟨-, -, h⟩ := Prog.bind_eq_ok h
    split at h
    · cases h
    · rename_i hauthor
      obtain ⟨valid, hvalid, h⟩ := Prog.bind_eq_ok h
      obtain ⟨_, hcheck, h⟩ := Prog.bind_eq_ok h
      cases h
      exact ⟨⟨m, rfl, not_not.1 hauthor⟩, liftDomain_eq_ok.1 hvalid, liftDomain_eq_ok.1 hcheck⟩

theorem checkReact_ok {db : ReactionDb} {id : MessageId} {u : UserId} {reaction key : String} {verdict : Option FloodVerdict}
    (h : checkReact toLowercase db id u reaction verdict = .ok key) :
    db.messages.contains id = true ∧ liftDomain (validateReaction reaction) = .ok key := by
  obtain ⟨_, -, h⟩ := Prog.bind_eq_ok h
  obtain ⟨_, -, h⟩ := Prog.bind_eq_ok h
  obtain ⟨_, -, h⟩ := Prog.bind_eq_ok h
  obtain ⟨valid, hvalid, h⟩ := Prog.bind_eq_ok h
  obtain ⟨_, -, h⟩ := Prog.bind_eq_ok h
  obtain ⟨_, -, h⟩ := Prog.bind_eq_ok h
  split at h
  · rename_i hthere
    cases h
    exact ⟨(Bool.and_eq_true_iff.1 hthere).1, hvalid⟩
  · cases h

theorem checkPin_ok {db : Db} {id : MessageId} {u : UserId} {r : RoomId} (h : checkPin db id u = .ok r) :
    ∃ m, db.messages.find id = some m ∧ m.roomId = r := by
  obtain ⟨m, hm, h⟩ := Prog.bind_eq_ok h
  obtain ⟨_, -, h⟩ := Prog.bind_eq_ok h
  obtain ⟨_, -, h⟩ := Prog.bind_eq_ok h
  cases h
  unfold findMessage at hm
  split at hm
  · rename_i m' hfind
    cases hm
    exact ⟨m, hfind, rfl⟩
  · cases hm

/-- Some of the messages are left, and written over. What they answer must be among them. -/
theorem Sound.left (h : Sound db) (keep : Message → Bool) (g : Message → Message)
    (hrows : db'.messages.rows = (db.messages.rows.filter keep).map g) (hg : ∀ m, (g m).id = m.id ∧ (g m).roomId = m.roomId)
    (htexts : ∀ m ∈ db.messages.rows, trim (g m).content = (g m).content ∧ (g m).content.isEmpty = false ∧
      (g m).content.length ≤ messageMaxLen ∧ checkContent (g m).content = .ok ())
    (hanswers : ∀ m ∈ db.messages.rows, keep m = true → ∀ id, (g m).replyToId = some id → m.replyToId = some id ∧
      ∀ m' ∈ db.messages.rows, m'.id = id → m'.roomId = m.roomId → keep m' = true)
    (hrest : Trimmed db db') : Sound db' := by
  have hmem : ∀ {m'}, m' ∈ db'.messages.rows ↔ ∃ m ∈ db.messages.rows, keep m = true ∧ g m = m' := by
    intro m'
    rw [hrows, List.mem_map]
    simp only [List.mem_filter, and_assoc]
  have hfind : ∀ m ∈ db.messages.rows, keep m = true → db'.messages.find m.id = some (g m) :=
    fun m hm hkeep => Table.find_eq_some.2 ⟨hmem.2 ⟨m, hm, hkeep, rfl⟩, (hg m).1⟩
  constructor
  · intro m' hm'
    obtain ⟨m, hm, -, rfl⟩ := hmem.1 hm'
    exact htexts m hm
  · intro m' hm' id hid
    obtain ⟨m, hm, hkeep, rfl⟩ := hmem.1 hm'
    obtain ⟨hold, hkept⟩ := hanswers m hm hkeep id hid
    obtain ⟨parent, hparent, hroom⟩ := h.answers m hm id hold
    obtain ⟨hrow, hkey⟩ := Table.find_eq_some.1 hparent
    have hkey : parent.id = id := hkey
    exact ⟨g parent, hkey ▸ hfind parent hrow (hkept parent hrow hkey hroom), by rw [(hg parent).2, (hg m).2, hroom]⟩
  · rw [hrows, List.pairwise_map]
    refine (h.earlier.sublist List.filter_sublist).imp_of_mem ?_
    intro m later hm hlater hnot hid
    rw [(hg later).1] at hid
    exact hnot (hanswers m (List.mem_filter.1 hm).1 (List.mem_filter.1 hm).2 _ hid).1
  · intro m' hm' hid
    obtain ⟨m, hm, hkeep, rfl⟩ := hmem.1 hm'
    rw [(hg m).1] at hid
    exact h.notItself m hm (hanswers m hm hkeep _ hid).1
  · intro x hx
    exact ⟨(hrest.reactions x hx).2, (h.reactions x (hrest.reactions x hx).1).2⟩
  · intro p hp
    obtain ⟨hold, hthere⟩ := hrest.pins p hp
    obtain ⟨m, hm, hroom⟩ := h.pins p hold
    obtain ⟨m', hm'⟩ := Table.contains_iff.1 hthere
    obtain ⟨hrow, hkey⟩ := Table.find_eq_some.1 hm'
    obtain ⟨m₀, hm₀, -, rfl⟩ := hmem.1 hrow
    have hsame : db.messages.find p.messageId = some m₀ := Table.find_eq_some.2 ⟨hm₀, (hg m₀).1.symm.trans hkey⟩
    obtain rfl := Option.some.inj (hm.symm.trans hsame)
    exact ⟨g m, hm', by rw [(hg m).2, hroom]⟩

theorem Sound.posted (h : Sound db) {id : MessageId} {r : RoomId} {u : UserId} {content text : String} {isAnonymous : Bool}
    {verdict : Option FloodVerdict} {replyTo : Option MessageId}
    (hcheck : checkPost db.toDb r u content verdict replyTo = .ok text) (hnew : db.messages.contains id = false)
    (hmessages : db'.messages = db.messages.insert (postedMessage db.now id r u text isAnonymous replyTo))
    (hrest : Trimmed db db') : Sound db' := by
  obtain ⟨hcontent, hlimits, hreply⟩ := checkPost_ok hcheck
  have hrows : db'.messages.rows = db.messages.rows ++ [postedMessage db.now id r u text isAnonymous replyTo] := by
    rw [hmessages]
    exact Table.rows_insert hnew
  have hold : ∀ k m, db.messages.find k = some m → db'.messages.find k = some m := by
    intro k m hm
    rw [hmessages, Table.find_insert, hm, Option.some_or]
  have hfresh : ∀ m ∈ db.messages.rows, m.id ≠ id := Table.find_eq_none.1 (Table.contains_eq_false.1 hnew)
  -- an answer is to a message that is there already
  have hanswer : ∀ k, replyTo = some k → ∃ m, db.messages.find k = some m ∧ m.roomId = r := by
    rintro k rfl
    rcases hm : db.messages.find k with _ | m
    · simp [checkReply, hm] at hreply
    · simp only [checkReply, hm] at hreply
      split at hreply
      · exact ⟨m, rfl, ‹_›⟩
      · cases hreply
  have hnotNew : ∀ k, replyTo = some k → k ≠ id := by
    rintro k hk rfl
    obtain ⟨m, hm, -⟩ := hanswer k hk
    rw [Table.contains_eq_false.1 hnew] at hm
    cases hm
  constructor
  · intro m hm
    rw [hrows] at hm
    rcases List.mem_append.1 hm with hm | hm
    · exact h.texts m hm
    · obtain rfl := List.mem_singleton.1 hm
      exact text_of_checks hcontent hlimits
  · intro m hm k hk
    rw [hrows] at hm
    rcases List.mem_append.1 hm with hm | hm
    · obtain ⟨m', hm', hroom⟩ := h.answers m hm k hk
      exact ⟨m', hold k m' hm', hroom⟩
    · obtain rfl := List.mem_singleton.1 hm
      obtain ⟨m', hm', hroom⟩ := hanswer k hk
      exact ⟨m', hold k m' hm', hroom⟩
  · rw [hrows, List.pairwise_append]
    refine ⟨h.earlier, List.pairwise_singleton _ _, fun m hm later hlater hid => ?_⟩
    obtain rfl := List.mem_singleton.1 hlater
    obtain ⟨m', hm', -⟩ := h.answers m hm _ hid
    obtain ⟨hrow, hkey⟩ := Table.find_eq_some.1 hm'
    exact hfresh m' hrow hkey
  · intro m hm hid
    rw [hrows] at hm
    rcases List.mem_append.1 hm with hm | hm
    · exact h.notItself m hm hid
    · obtain rfl := List.mem_singleton.1 hm
      exact hnotNew _ hid rfl
  · intro x hx
    exact ⟨(hrest.reactions x hx).2, (h.reactions x (hrest.reactions x hx).1).2⟩
  · intro p hp
    obtain ⟨m, hm, hroom⟩ := h.pins p (hrest.pins p hp).1
    exact ⟨m, hold _ m hm, hroom⟩

theorem Sound.rooms (h : Sound db) (hmessages : WithRooms db.toDb db'.messages db'.toDb) (hrest : Trimmed db db') : Sound db' := by
  obtain ⟨gone, hmessages, -⟩ := hmessages
  refine h.left (fun m => !gone m.roomId) id ?_ (fun _ => ⟨rfl, rfl⟩) h.texts (fun m hm hkeep id hid => ⟨hid, ?_⟩) hrest
  · rw [hmessages, List.map_id]
    rfl
  · -- an answer is in the same room as what it answers, and goes when that goes
    intro m' _ _ hroom
    rw [hroom]
    exact hkeep

theorem Sound.edited (h : Sound db) {id : MessageId} {u : UserId} {content text : String}
    (hcheck : checkEdit db.toDb id u content = .ok text) : Sound (rewritten id text db) := by
  obtain ⟨-, hcontent, hlimits⟩ := checkEdit_ok hcheck
  refine h.left (fun _ => true) (fun m => if m.id = id then { m with content := text, editedAt := some db.now } else m) ?_
    (fun m => by split <;> exact ⟨rfl, rfl⟩) (fun m hm => ?_) (fun m hm _ k hk => ⟨?_, fun _ _ _ _ => rfl⟩) ⟨fun p hp => ?_, fun x hx => ?_⟩
  · rw [List.filter_eq_self.2 fun _ _ => rfl]
    simp only [rewritten, Table.update, Table.updateWhere, key, decide_eq_true_eq]
  · split
    · exact text_of_checks hcontent hlimits
    · exact h.texts m hm
  · split at hk <;> exact hk
  · obtain ⟨m, hm, -⟩ := h.pins p hp
    refine ⟨hp, ?_⟩
    simp only [rewritten, Table.update, Table.contains_updateWhere]
    exact Table.contains_iff.2 ⟨m, hm⟩
  · refine ⟨hx, ?_⟩
    simp only [rewritten, Table.update, Table.contains_updateWhere]
    exact (h.reactions x hx).1

theorem Sound.deleted (h : Sound db) (id : MessageId) : Sound (deleteRow id db) := by
  refine h.left (fun m => !decide (m.id = id)) (fun m => if m.replyToId = some id then { m with replyToId := none } else m) ?_
    (fun m => by split <;> exact ⟨rfl, rfl⟩) (fun m hm => ?_) (fun m hm hkeep k hk => ?_) ⟨fun p hp => ?_, fun x hx => ?_⟩
  · simp only [deleteRow, Table.delete, Table.updateWhere, Table.deleteWhere, key, decide_eq_true_eq]
  · split <;> exact h.texts m hm
  · split at hk
    · cases hk
    · rename_i hother
      refine ⟨hk, fun m' _ hid _ => ?_⟩
      simp only [Bool.not_eq_true', decide_eq_false_iff_not]
      rintro rfl
      exact hother (hk.trans (congrArg some hid.symm))
  · obtain ⟨hold, hother⟩ := Table.mem_deleteWhere.1 hp
    obtain ⟨m, hm, -⟩ := h.pins p hold
    refine ⟨hold, ?_⟩
    simp only [deleteRow, Table.contains_updateWhere, Table.contains_delete, Bool.and_eq_true, decide_eq_true_eq]
    exact ⟨Table.contains_iff.2 ⟨m, hm⟩, fun hid => by simp [hid] at hother⟩
  · obtain ⟨hold, hother⟩ := Table.mem_deleteWhere.1 hx
    refine ⟨hold, ?_⟩
    simp only [deleteRow, Table.contains_updateWhere, Table.contains_delete, Bool.and_eq_true, decide_eq_true_eq]
    exact ⟨(h.reactions x hold).1, fun hid => by simp [hid] at hother⟩

theorem Sound.step (h : Sound db) {c : ChatCall} (hc : Change toLowercase db c db') : Sound db' := by
  cases hc with
  | refused => exact h
  | posted id r u content isAnonymous verdict replyTo text hcheck hnew hmessages hrest => exact h.posted hcheck hnew hmessages hrest
  | rooms req hmessages hrest => exact h.rooms hmessages hrest
  | edited id u content text hcheck => exact h.edited hcheck
  | deleted id u hcheck => exact h.deleted id
  | reacted id u reaction key verdict hcheck =>
    obtain ⟨hthere, hkey⟩ := checkReact_ok hcheck
    refine ⟨h.texts, h.answers, h.earlier, h.notItself, fun x hx => ?_, h.pins⟩
    rcases Table.mem_insert.1 hx with hx | ⟨rfl, -⟩
    · exact h.reactions x hx
    · exact ⟨hthere, validateReaction_idem hkey⟩
  | unreacted id u reaction key hcheck =>
    exact ⟨h.texts, h.answers, h.earlier, h.notItself, fun x hx => h.reactions x (Table.mem_deleteWhere.1 hx).1, h.pins⟩
  | pinned id u r hcheck =>
    refine ⟨h.texts, h.answers, h.earlier, h.notItself, h.reactions, fun p hp => ?_⟩
    rcases Table.mem_insert.1 hp with hp | ⟨rfl, -⟩
    · exact h.pins p hp
    · exact checkPin_ok hcheck
  | unpinned id u r hcheck =>
    exact ⟨h.texts, h.answers, h.earlier, h.notItself, h.reactions, fun p hp => h.pins p (Table.mem_deleteWhere.1 hp).1⟩
  | emojis defined => exact ⟨h.texts, h.answers, h.earlier, h.notItself, h.reactions, h.pins⟩

end Sound

/-! ## Over a whole life -/

section Life

variable {toLowercase : String → String} {db db' : ChatDb}

/-- The call takes the message away: its author does, or whoever manages the room, or the room goes. -/
def Removes (toLowercase : String → String) (db : ChatDb) (c : ChatCall) (m : Message) : Prop :=
  (∃ u, c = .delete m.id u ∧
    (u = m.authorId ∨ ∃ a, visibleAccess db.toDb m.roomId u = .ok a ∧ a.permissions.allows .manageRoom = true)) ∨
  ∃ req, c = .room req ∧ (chatStep toLowercase db c).roomExists m.roomId = false

theorem checkDelete_ok {db : Db} {u : UserId} {m : Message} (hm : db.messages.find m.id = some m)
    (h : checkDelete db m.id u = .ok ()) :
    u = m.authorId ∨ ∃ a, visibleAccess db m.roomId u = .ok a ∧ a.permissions.allows .manageRoom = true := by
  obtain ⟨m', hm', h⟩ := Prog.bind_eq_ok h
  obtain rfl : m = m' := by
    rw [findMessage, hm] at hm'
    exact Except.ok.inj hm'
  obtain ⟨a, ha, h⟩ := Prog.bind_eq_ok h
  split at h
  · unfold RoomAccess.require at h
    split at h
    · exact .inr ⟨a, ha, ‹_›⟩
    · cases h
  · rename_i hauthor
    exact .inl (not_not.1 hauthor).symm

/-- A message that is gone after a call was taken away by it. -/
theorem removes_of_gone {c : ChatCall} {m : Message} (hm : m ∈ db.messages.rows)
    (hgone : (chatStep toLowercase db c).messages.contains m.id = false) : Removes toLowercase db c m := by
  have hfind : db.messages.find m.id = some m := Table.mem_iff_find.1 hm
  have hthere : db.messages.contains m.id = true := Table.contains_iff.2 ⟨m, hfind⟩
  have hstill : (chatStep toLowercase db c).messages.contains m.id = true → Removes toLowercase db c m := by
    intro h
    rw [h] at hgone
    cases hgone
  have hc := chatStep_change toLowercase db c
  generalize hdb' : chatStep toLowercase db c = db' at hc hgone hstill
  cases hc with
  | refused | reacted | unreacted | pinned | unpinned | emojis => exact hstill hthere
  | posted id r u content isAnonymous verdict replyTo text hcheck hnew hmessages hrest =>
    refine hstill ?_
    rw [hmessages, Table.contains_insert, hthere, Bool.true_or]
  | rooms req hmessages hrest =>
    obtain ⟨gone, hmessages, hroom⟩ := hmessages
    rw [hmessages, Table.contains_eq_false, Table.find_deleteWhere, hfind] at hgone
    exact .inr ⟨req, rfl, hdb' ▸ hroom m.roomId (by simpa using hgone)⟩
  | edited id u content text hcheck =>
    refine hstill ?_
    simp only [rewritten, Table.update, Table.contains_updateWhere]
    exact hthere
  | deleted id u hcheck =>
    simp only [deleteRow, Table.contains_updateWhere, Table.contains_delete, hthere, Bool.true_and, decide_eq_false_iff_not,
      not_not] at hgone
    subst id
    exact .inl ⟨u, rfl, checkDelete_ok hfind hcheck⟩

/-- In every state of a transcript all is sound, and no message is ever lost but to its author, to whoever manages its room,
or with the room. -/
theorem transcript_sound (toLowercase : String → String) (now : Timestamp) (cs : List ChatCall) :
    Always (chatStep toLowercase) Sound (ChatDb.empty now) cs ∧
    Along (chatStep toLowercase) (fun db c => ∀ m ∈ db.messages.rows,
      (chatStep toLowercase db c).messages.contains m.id = false → Removes toLowercase db c m) (ChatDb.empty now) cs := by
  constructor
  · refine always_of_step (fun db c h => h.step (chatStep_change toLowercase db c)) ?_
    exact ⟨fun m hm => absurd hm List.not_mem_nil, fun m hm => absurd hm List.not_mem_nil, List.Pairwise.nil,
      fun m hm => absurd hm List.not_mem_nil, fun x hx => absurd hx List.not_mem_nil, fun p hp => absurd hp List.not_mem_nil⟩
  · exact along_of_along (I := fun _ => True) (fun db c _ _ => ⟨trivial, fun m hm hgone => removes_of_gone hm hgone⟩) trivial
      along_true

/-- A message after a call is one just posted, or one from before: as it was but for its author's edit, and for what it
answered, where that is gone. -/
theorem message_of_change {c : ChatCall} {m' : Message} (hc : Change toLowercase db c db') (hm' : m' ∈ db'.messages.rows) :
    (∃ content verdict replyTo text,
      c = .room (.post m'.id m'.roomId m'.authorId content m'.isAnonymous verdict replyTo) ∧
      checkPost db.toDb m'.roomId m'.authorId content verdict replyTo = .ok text ∧
      m' = postedMessage db.now m'.id m'.roomId m'.authorId text m'.isAnonymous replyTo) ∨
    ∃ m ∈ db.messages.rows, ∃ reply, (reply = none ∨ reply = m.replyToId) ∧
      (∀ e, c.rewrite m.id db = some e → e.user = m.authorId) ∧
      m' = { m with
        content := ((c.rewrite m.id db).map Rewrite.text).getD m.content
        editedAt := ((c.rewrite m.id db).map Rewrite.time).or m.editedAt
        replyToId := reply } := by
  -- a call that edits nothing, and leaves the row
  have hsame : m' ∈ db.messages.rows → (∀ id, c.rewrite id db = none) → ∃ m ∈ db.messages.rows, ∃ reply,
      (reply = none ∨ reply = m.replyToId) ∧ (∀ e, c.rewrite m.id db = some e → e.user = m.authorId) ∧
        m' = { m with
          content := ((c.rewrite m.id db).map Rewrite.text).getD m.content
          editedAt := ((c.rewrite m.id db).map Rewrite.time).or m.editedAt
          replyToId := reply } := by
    intro hold hnone
    refine ⟨m', hold, m'.replyToId, .inr rfl, fun e he => ?_, ?_⟩
    · rw [hnone] at he
      cases he
    · rw [hnone]
      rfl
  cases hc with
  | refused c hnone => exact .inr (hsame hm' hnone)
  | reacted | unreacted | pinned | unpinned | emojis => exact .inr (hsame hm' fun _ => rfl)
  | posted id r u content isAnonymous verdict replyTo text hcheck hnew hmessages hrest =>
    rw [hmessages] at hm'
    rcases Table.mem_insert.1 hm' with hold | ⟨rfl, -⟩
    · exact .inr (hsame hold fun _ => rfl)
    · exact .inl ⟨content, verdict, replyTo, text, rfl, hcheck, rfl⟩
  | rooms req hmessages hrest =>
    obtain ⟨gone, hmessages, -⟩ := hmessages
    rw [hmessages] at hm'
    exact .inr (hsame (Table.mem_deleteWhere.1 hm').1 fun _ => rfl)
  | edited id u content text hcheck =>
    obtain ⟨⟨existing, hexisting, hauthor⟩, -, -⟩ := checkEdit_ok hcheck
    rcases (Table.mem_update db.messages id (fun m => { m with content := text, editedAt := some db.now }) fun _ => rfl).1 hm' with ⟨m, hm, hid, rfl⟩ | ⟨hold, hother⟩
    · have hid : m.id = id := hid
      have hrewrite : (ChatCall.edit id u content).rewrite m.id db = some ⟨u, text, db.now⟩ := by
        rw [ChatCall.rewrite, if_pos hid.symm, hid, hcheck]
        rfl
      have hsole : existing = m := Option.some.inj (hexisting.symm.trans (Table.find_eq_some.2 ⟨hm, hid⟩))
      refine .inr ⟨m, hm, m.replyToId, .inr rfl, fun e he => ?_, ?_⟩
      · obtain rfl := Option.some.inj (hrewrite.symm.trans he)
        exact hauthor.symm.trans (congrArg Message.authorId hsole)
      · rw [hrewrite]
        rfl
    · have hnone : (ChatCall.edit id u content).rewrite m'.id db = none := if_neg fun h => hother h.symm
      refine .inr ⟨m', hold, m'.replyToId, .inr rfl, fun e he => ?_, ?_⟩
      · rw [hnone] at he
        cases he
      · rw [hnone]
        rfl
  | deleted id u hcheck =>
    obtain ⟨m, hm, rfl⟩ := List.mem_map.1 hm'
    obtain ⟨hold, -⟩ := Table.mem_deleteWhere.1 hm
    by_cases hanswer : m.replyToId = some id
    · exact .inr ⟨m, hold, none, .inl rfl, fun e he => (by cases he), by simp [hanswer, ChatCall.rewrite]⟩
    · exact .inr ⟨m, hold, m.replyToId, .inr rfl, fun e he => (by cases he), by simp [hanswer, ChatCall.rewrite]⟩

/-- Where a message comes from: the call that posted it, and the edits since. -/
structure Traced (toLowercase : String → String) (now : Timestamp) (cs : List ChatCall) (m : Message) (before : List ChatCall)
    (content : String) (verdict : Option FloodVerdict) (replyTo : Option MessageId) (after : List ChatCall) (first : String)
    (edits : List Rewrite) : Prop where
  split : cs = before ++ .room (.post m.id m.roomId m.authorId content m.isAnonymous verdict replyTo) :: after
  checked : checkPost (run (chatStep toLowercase) (ChatDb.empty now) before).toDb m.roomId m.authorId content verdict replyTo = .ok first
  createdAt : m.createdAt = (run (chatStep toLowercase) (ChatDb.empty now) before).now
  answers : m.replyToId = none ∨ m.replyToId = replyTo
  rewrites : edits = written (chatStep toLowercase) (fun db c => c.rewrite m.id db)
    (run (chatStep toLowercase) (ChatDb.empty now)
      (before ++ [.room (.post m.id m.roomId m.authorId content m.isAnonymous verdict replyTo)])) after
  byAuthor : ∀ e ∈ edits, e.user = m.authorId
  text : m.content = (edits.getLast?.map Rewrite.text).getD first
  editedAt : m.editedAt = edits.getLast?.map Rewrite.time

/-- Every message was posted under the author, the room, the persona and the time that it carries, and every edit accepted
since was its author's. It has the text of the last of them, which is when it was edited, and that of the post if there is
none. -/
theorem message_provenance (toLowercase : String → String) (now : Timestamp) (cs : List ChatCall) :
    ∀ m ∈ (run (chatStep toLowercase) (ChatDb.empty now) cs).messages.rows,
      ∃ before content verdict replyTo after first edits,
        Traced toLowercase now cs m before content verdict replyTo after first edits := by
  refine run_past (P := fun cs (db : ChatDb) => ∀ m ∈ db.messages.rows, ∃ before content verdict replyTo after first edits,
    Traced toLowercase now cs m before content verdict replyTo after first edits) (fun m hm => absurd hm List.not_mem_nil) ?_
  intro cs h c m' hm'
  rcases message_of_change (chatStep_change toLowercase _ c) hm' with ⟨content, verdict, replyTo, text, rfl, hcheck, hposted⟩ |
    ⟨m, hm, reply, hreply, hauthor, rfl⟩
  · exact ⟨cs, content, verdict, replyTo, [], text, [], rfl, hcheck, congrArg Message.createdAt hposted,
      .inr (congrArg Message.replyToId hposted), rfl, fun e he => absurd he List.not_mem_nil, congrArg Message.content hposted,
      congrArg Message.editedAt hposted⟩
  · obtain ⟨before, content, verdict, replyTo, after, first, edits, ht⟩ := h m hm
    have hstate : run (chatStep toLowercase) (run (chatStep toLowercase) (ChatDb.empty now)
        (before ++ [.room (.post m.id m.roomId m.authorId content m.isAnonymous verdict replyTo)])) after =
          run (chatStep toLowercase) (ChatDb.empty now) cs := by
      rw [← run_append, List.append_assoc, List.singleton_append, ← ht.split]
    have hsplit : cs ++ [c] = before ++ .room (.post m.id m.roomId m.authorId content m.isAnonymous verdict replyTo) ::
        (after ++ [c]) := by
      rw [ht.split, List.append_assoc, List.cons_append]
    have hanswer : reply = none ∨ reply = replyTo := by
      rcases hreply with hreply | hreply
      · exact .inl hreply
      · rw [hreply]
        exact ht.answers
    rcases hrewrite : c.rewrite m.id (run (chatStep toLowercase) (ChatDb.empty now) cs) with _ | e
    · refine ⟨before, content, verdict, replyTo, after ++ [c], first, edits, hsplit, ht.checked, ht.createdAt, hanswer, ?_,
        ht.byAuthor, ht.text, ht.editedAt⟩
      rw [written_snoc_of_none (by rw [hstate]; exact hrewrite)]
      exact ht.rewrites
    · refine ⟨before, content, verdict, replyTo, after ++ [c], first, edits ++ [e], hsplit, ht.checked, ht.createdAt, hanswer, ?_,
        fun e' he' => ?_, ?_, ?_⟩
      · rw [written_snoc_of_some (by rw [hstate]; exact hrewrite)]
        exact congrArg (· ++ [e]) ht.rewrites
      · rcases List.mem_append.1 he' with he' | he'
        · exact ht.byAuthor e' he'
        · obtain rfl := List.mem_singleton.1 he'
          exact hauthor _ hrewrite
      · rw [List.getLast?_concat]
        rfl
      · rw [List.getLast?_concat]
        rfl

end Life

/-- `ben` opens a den and writes in it, `ana` joins and tries to edit what he wrote, and he does. -/
def corrected : List ChatCall :=
  [.room (.register (account ⟨1⟩ "ana")), .room (.register (account ⟨2⟩ "ben")),
    .room (.create ⟨10⟩ none ⟨2⟩ { name := "den", roomType := .text }), .room (.join ⟨10⟩ ⟨1⟩),
    .room (.post ⟨20⟩ ⟨10⟩ ⟨2⟩ " helo" false none none), .edit ⟨20⟩ ⟨1⟩ "goodbye", .room (.clock 7), .edit ⟨20⟩ ⟨2⟩ "hello "]

/-- What he wrote reads as he put it right. -/
theorem corrected_traced : ∃ before content verdict replyTo after first edits,
    Traced id 0 corrected
      { id := ⟨20⟩, roomId := ⟨10⟩, authorId := ⟨2⟩, content := "hello", replyToId := none, isAnonymous := false, editedAt := some 7
        createdAt := 0 } before content verdict replyTo after first edits :=
  message_provenance id 0 corrected _ (List.mem_of_find?_eq_some (p := fun m => m.id = ⟨20⟩) (by decide +kernel))

end Genzh.Api.Messages
