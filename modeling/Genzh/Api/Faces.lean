/-
Who is seen of a room that promises anonymity. The promise is a column of the room, the persona a column of the
participant, and whether a message is anonymous a column of the message; each has a default of its own, and the card of
the feed reads the second only, and for the host none of them.

`unchosen_unseen_iff`: in every run, whoever never chose the public persona of such a room is on none of its cards and posts
nothing under their own name there, exactly as long as everybody who comes in chooses a persona before they could be seen
or heard, and the host chooses the public one.
-/
import Genzh.Api.Feed
import Genzh.Api.Persona

namespace Genzh.Api

open Genzh.Lib Genzh.Domain Genzh.Infrastructure Genzh.Community Genzh.Room Genzh.Messaging Genzh.Admin

/-! ## Personas over a step -/

section Personas

variable {db db' : Db} {r : RoomId} {u : UserId}

theorem wearsPersona_congr (h : db'.roomParticipants = db.roomParticipants) : wearsPersona db' r u = wearsPersona db r u := by
  unfold wearsPersona
  rw [h]

/-- Whoever comes into a room comes without a persona, and whoever is there keeps theirs. -/
theorem wearsPersona_insertParticipant (r' : RoomId) (u' : UserId) (role : RoomParticipantRole) (db : Db) :
    wearsPersona (insertParticipant r' u' role db) r u = wearsPersona db r u := by
  unfold wearsPersona insertParticipant
  simp only [Table.find_upsert]
  split
  · rename_i hkey
    cases hkey
    rcases db.roomParticipants.find (r', u') with _ | p <;> rfl
  · rfl

theorem wearsPersona_seated (r' : RoomId) (u' : UserId) (role : RoomParticipantRole) (db : Db) :
    wearsPersona (seated r' u' role db) r u = wearsPersona db r u := by
  unfold seated
  split
  · exact wearsPersona_insertParticipant r' u' role db
  · rfl

theorem wearsPersona_seatAll (r' : RoomId) (us : List UserId) (db : Db) :
    wearsPersona (seatAll r' us db) r u = wearsPersona db r u := by
  unfold seatAll
  induction us generalizing db with
  | nil => rfl
  | cons u' us ih => rw [List.foldl_cons, ih, wearsPersona_seated]

/-- Rows that go take nothing else with them. -/
theorem wearsPersona_deleteWhere {p : RoomParticipant → Bool} (h : db'.roomParticipants = db.roomParticipants.deleteWhere p)
    (hin : db'.participates r u = true) : wearsPersona db' r u = wearsPersona db r u := by
  unfold Db.participates Table.contains at hin
  unfold wearsPersona
  rw [h, Table.find_deleteWhere] at hin ⊢
  rcases hrow : db.roomParticipants.find (r, u) with _ | row
  · rfl
  · rw [hrow] at hin
    by_cases hp : p row = true
    · simp [hp] at hin
    · simp [hp]

/-- Rows go, or nothing happens. -/
theorem wearsPersona_ite {c : Prop} [Decidable c] {db' : Db} {p : RoomParticipant → Bool}
    (h : db'.roomParticipants = db.roomParticipants.deleteWhere p) (hin : (if c then db' else db).participates r u = true) :
    wearsPersona (if c then db' else db) r u = wearsPersona db r u := by
  by_cases hc : c
  · rw [if_pos hc] at hin ⊢
    exact wearsPersona_deleteWhere h hin
  · rw [if_neg hc]

/-- The persona that a request makes somebody's choice in a room. -/
def choiceOf (db : Db) (r : RoomId) (u : UserId) : Room.Request → Option Bool
  | .setPersona r' u' isAnonymous =>
    if (r', u') = (r, u) ∧ (visibleAccess db r u).isOk = true ∧ db.participates r u = true then some isAnonymous else none
  | _ => none

theorem wearsPersona_withPersona (r' : RoomId) (u' : UserId) (isAnonymous : Bool) (db : Db) (hin : db.participates r u = true) :
    wearsPersona (withPersona r' u' isAnonymous db) r u = if (r', u') = (r, u) then isAnonymous else wearsPersona db r u := by
  obtain ⟨row, hrow⟩ := Table.contains_iff.1 hin
  unfold wearsPersona withPersona
  simp only [Table.find_update, hrow]
  split <;> rfl

/-- Only a choice changes the persona of somebody who is in the room after a request. -/
theorem wearsPersona_effect (req : Room.Request) (hin : (effect db req).participates r u = true) :
    wearsPersona (effect db req) r u = (choiceOf db r u req).getD (wearsPersona db r u) := by
  cases req with
  | register | govern | get | mediaJoin | post | history | unblock | clock | reap => rfl
  | createCommunity id owner roles rooms =>
    exact wearsPersona_congr (createCommunity_channels id owner roles rooms db).roomParticipants
  | deleteCommunity id u' =>
    exact wearsPersona_ite rfl hin
  | block a b =>
    simp only [effect]
    split <;> rfl
  | create id communityId u' input =>
    simp only [effect]
    split
    · exact (wearsPersona_seatAll _ _ _).trans (wearsPersona_seated _ _ _ _)
    · rfl
  | openDirect id a b name handle =>
    simp only [effect]
    split
    · exact (wearsPersona_seatAll _ _ _).trans (wearsPersona_seated _ _ _ _)
    · rfl
  | join r' u' =>
    simp only [effect]
    split
    · exact wearsPersona_seated _ _ _ _
    · rfl
  | leave r' u' => exact wearsPersona_deleteWhere rfl hin
  | setPersona r' u' isAnonymous =>
    simp only [effect] at hin ⊢
    unfold choiceOf
    by_cases hvisible : (visibleAccess db r' u').isOk = true
    · rw [if_pos hvisible] at hin ⊢
      rw [participates_withPersona] at hin
      rw [wearsPersona_withPersona r' u' isAnonymous db hin]
      by_cases hkey : (r', u') = (r, u)
      · cases hkey
        simp [hvisible, hin]
      · simp [hkey]
    · rw [if_neg hvisible]
      by_cases hkey : (r', u') = (r, u)
      · cases hkey
        simp [hvisible]
      · simp [hkey]
  | update r' u' input =>
    simp only [effect]
    split <;> rfl
  | delete r' u' =>
    exact wearsPersona_ite rfl hin
  | expire =>
    change wearsPersona (expired db) r u = wearsPersona db r u
    exact wearsPersona_ite rfl hin
  | terminate r' =>
    exact wearsPersona_ite rfl hin

/-! ### What the handlers leave -/

abbrev participantsOf (db : Db) : Table RoomParticipant := db.roomParticipants

theorem participants_step (db : Db) (req : Room.Request) : participantsOf (Room.step db req) = participantsOf (effect db req) :=
  (tables_eq (tables_step db req)).2.2.1

theorem frames_fromService {α : Type} {m : SqlM α} (hm : Prog.Frames tables m) : Prog.Frames participantsOf (fromService m) :=
  Prog.Frames.mapError fun db => (tables_eq (hm db)).2.2.1

theorem frames_joinMedia (config : MediaConfig) (r : RoomId) (u : UserId) : Prog.Frames participantsOf (joinMedia config r u) := by
  refine (Prog.Frames.mapError (Prog.Frames.query _)).bind fun user => ?_
  exact (frames_fromService (frames_quiet.2.1 config r u user.profile.displayName)).bind fun _ => Prog.Frames.pure _

theorem frames_sendAs (masked : Bool) (id : MessageId) (r : RoomId) (u : UserId) (content : String) (verdict : Option FloodVerdict)
    (replyTo : Option MessageId) : Prog.Frames participantsOf (sendAs masked id r u content verdict replyTo) := by
  refine (frames_fromService (frames_quiet.2.2.1 id r u content masked verdict replyTo)).bind fun message => ?_
  refine Prog.Frames.bind ?_ fun _ => Prog.Frames.pure _
  cases masked
  · exact Prog.Frames.pure _
  · exact fun db => (tables_eq (tables_of_core (frames_identity (fun _ _ => rfl) r u db))).2.2.1

theorem frames_editMessage (messageId : MessageId) (u : UserId) (content : String) :
    Prog.Frames participantsOf (editMessage messageId u content) := by
  refine (Prog.Frames.mapError (Prog.Frames.query _)).bind fun content => ?_
  refine Prog.Frames.bind (Prog.Frames.modify fun _ => rfl) fun _ => (Prog.Frames.read _).bind fun updated => ?_
  cases updated with
  | none => exact Prog.Frames.fail _
  | some updated => exact (Prog.Frames.read _).bind fun _ => Prog.Frames.pure _

theorem frames_ring (r : RoomId) (u : UserId) : Prog.Frames participantsOf (ring r u) := by
  refine (Prog.Frames.mapError (Prog.Frames.query _)).bind fun a => (Prog.Frames.ensure _ _).bind fun _ => ?_
  refine (Prog.Frames.read _).bind fun peer => (Prog.Frames.ensure _ _).bind fun _ => ?_
  exact (Prog.Frames.mapError (Prog.Frames.query _)).bind fun user => Prog.Frames.pure _

theorem frames_updateDisplayName (u : UserId) (name : String) : Prog.Frames participantsOf (updateDisplayName u name) := by
  refine (Prog.Frames.lift _).bind fun _ => (Prog.Frames.read _).bind fun found => ?_
  exact Prog.Frames.bind (Prog.Frames.modify fun _ => rfl) fun _ => (Prog.Frames.ensure _ _).bind fun _ => Prog.Frames.pure _

theorem frames_readHistory (r : RoomId) (u : UserId) (before : Option Timestamp) (beforeId : Option MessageId) (limit : Option Int) :
    Prog.Frames participantsOf (readHistory r u before beforeId limit) :=
  (frames_fromService (frames_quiet.2.2.2 r u before beforeId limit)).bind fun _ => Prog.Frames.read _

/-- What a room session does after its join. -/
theorem frames_afterJoin (config : MediaConfig) (r : RoomId) (u : UserId) (db : Db) :
    participantsOf ((openRoomSession config r u).exec db).2 = participantsOf ((join r u).exec db).2 := by
  have hstate : participantsOf ((fromService (join r u)).exec db).2 = participantsOf ((join r u).exec db).2 := by
    unfold fromService
    rw [Prog.exec_mapError]
  rw [← hstate]
  refine Prog.Frames.after (fun _ => ?_) db
  refine (Prog.Frames.mapError (Prog.Frames.query _)).bind fun a => ?_
  refine (frames_fromService (frames_quiet.2.2.2 r u none none (some sessionHistoryLimit))).bind fun page => ?_
  refine (Prog.Frames.read _).bind fun authors => ?_
  split
  · exact (frames_joinMedia config r u).bind fun _ => Prog.Frames.pure _
  · exact Prog.Frames.pure _

/-- The request by which an event may change who is in a room. -/
def RoomEvent.seating : RoomEvent → Option Room.Request
  | .service req => some req
  | .openSession r u => some (.join r u)
  | _ => none

theorem participants_roomStep (config : MediaConfig) (db : Db) (e : RoomEvent) :
    participantsOf (roomStep config db e) = participantsOf (e.seating.elim db (effect db)) := by
  unfold roomStep
  cases e with
  | service req =>
    have hstate : ((fromService (handle req)).exec db).2 = Room.step db req := by
      unfold fromService
      rw [Prog.exec_mapError]
      rfl
    refine Eq.trans ?_ (participants_step db req)
    rw [← hstate]
    exact Prog.Frames.after (fun _ => Prog.Frames.pure _) db
  | openSession r u =>
    refine (frames_afterJoin config r u db).trans ?_
    refine Eq.trans ?_ (participants_step db (.join r u))
    unfold Room.step handle
    rw [(exec_void _ _).1]
  | displayName u name =>
    have hstep : ((showNames config (.displayName u name)).exec db).2 = ((updateDisplayName u name).exec db).2 := rfl
    rw [hstep, frames_updateDisplayName u name db]
    rfl
  | mediaJoin r u => exact frames_joinMedia config r u db
  | ring r u => exact frames_ring r u db
  | typing r u => rfl
  | post id r u content chosen verdict replyTo =>
    refine Prog.Frames.bind (Prog.Frames.mapError (Prog.Frames.query _)) (fun a => ?_) db
    exact (Prog.Frames.read _).bind fun participant => frames_sendAs _ id r u content verdict replyTo
  | send id r u content chosen verdict =>
    exact Prog.Frames.bind (Prog.Frames.read _) (fun masked => frames_sendAs masked id r u content verdict none) db
  | edit messageId u content => exact frames_editMessage messageId u content db
  | history r u before beforeId limit => exact frames_readHistory r u before beforeId limit db

/-- The persona that an event makes somebody's choice in a room. -/
def RoomEvent.choice (db : Db) (r : RoomId) (u : UserId) (e : RoomEvent) : Option Bool := e.seating.bind (choiceOf db r u)

theorem wearsPersona_roomStep (config : MediaConfig) (e : RoomEvent) (hin : (roomStep config db e).participates r u = true) :
    wearsPersona (roomStep config db e) r u = (e.choice db r u).getD (wearsPersona db r u) := by
  have htable := participants_roomStep config db e
  have hin' : (e.seating.elim db (effect db)).participates r u = true := by
    unfold Db.participates at hin ⊢
    rwa [← show (roomStep config db e).roomParticipants = (e.seating.elim db (effect db)).roomParticipants from htable]
  rw [wearsPersona_congr htable]
  unfold RoomEvent.choice
  cases hseating : e.seating with
  | none => rfl
  | some req =>
    rw [hseating] at hin'
    exact wearsPersona_effect req hin'

end Personas

/-! ## What is stored of a message -/

section Messages

variable {db : Db} {id : MessageId} {r : RoomId} {u : UserId} {content : String} {masked : Bool} {verdict : Option FloodVerdict}
  {replyTo : Option MessageId}

theorem isOk_post (db : Db) (id : MessageId) (r : RoomId) (u : UserId) (content : String) (masked : Bool)
    (verdict : Option FloodVerdict) (replyTo : Option MessageId) :
    ((post id r u content masked verdict replyTo).exec db).1.isOk = postable db id r u content verdict replyTo := by
  rw [← succeeds_post db id r u content masked verdict replyTo]
  exact (exec_void (post id r u content masked verdict replyTo) db).2.symm

/-- An insertion adds the message as it is given, or nothing. -/
theorem exec_insertMessage (m : Message) (db : Db) :
    (∃ e, (insertMessage m).exec db = (.error e, db)) ∨
    db.messages.contains m.id = false ∧ (insertMessage m).exec db =
      (.ok { m with createdAt := db.now }, { db with messages := db.messages.insert { m with createdAt := db.now } }) := by
  unfold insertMessage
  rw [SqlM.exec_check_bind]
  by_cases hfresh : (!db.messages.contains m.id) = true
  · rw [if_pos hfresh, SqlM.exec_check_bind]
    split
    · exact .inr ⟨Bool.not_eq_true' _ ▸ hfresh, rfl⟩
    · exact .inl ⟨_, rfl⟩
  · rw [if_neg hfresh]
    exact .inl ⟨_, rfl⟩

/-- A post adds a message under the persona it was told, or nothing. -/
theorem exec_post (id : MessageId) (r : RoomId) (u : UserId) (content : String) (masked : Bool) (verdict : Option FloodVerdict)
    (replyTo : Option MessageId) (db : Db) :
    (∃ e, (post id r u content masked verdict replyTo).exec db = (.error e, db)) ∨
    ∃ m : Message, m.id = id ∧ m.isAnonymous = masked ∧ db.messages.contains id = false ∧
      (post id r u content masked verdict replyTo).exec db = (.ok m, { db with messages := db.messages.insert m }) := by
  unfold post
  rw [Prog.exec_query_bind]
  rcases checkPost db r u content verdict replyTo with e | text
  · exact .inl ⟨e, rfl⟩
  · simp only [Prog.exec_read_bind]
    refine (exec_insertMessage _ db).imp_right ?_
    rintro ⟨hfresh, hinsert⟩
    exact ⟨_, rfl, rfl, hfresh, hinsert⟩

theorem frames_messageIdentity (masked : Bool) (r : RoomId) (u : UserId) :
    Prog.Frames (fun db : Db => db.messages) (messageIdentity masked r u) := by
  cases masked
  · exact Prog.Frames.pure _
  · exact frames_identity (fun _ _ => rfl) r u

/-- The messages after one was sent, or was refused. -/
theorem messages_sendAs (id : MessageId) (r : RoomId) (u : UserId) (content : String) (masked : Bool)
    (verdict : Option FloodVerdict) (replyTo : Option MessageId) (db : Db) :
    (postable db id r u content verdict replyTo = false ∧
      ((sendAs masked id r u content verdict replyTo).exec db).2.messages = db.messages) ∨
    (postable db id r u content verdict replyTo = true ∧ ∃ m : Message, m.isAnonymous = masked ∧
      db.messages.contains id = false ∧ ((sendAs masked id r u content verdict replyTo).exec db).2.messages.find id = some m) := by
  have hok := isOk_post db id r u content masked verdict replyTo
  have hafter : ((sendAs masked id r u content verdict replyTo).exec db).2.messages =
      ((post id r u content masked verdict replyTo).exec db).2.messages := by
    refine (Prog.Frames.after (fun message => (frames_messageIdentity masked r u).bind fun _ => Prog.Frames.pure _) db).trans ?_
    unfold fromService
    rw [Prog.exec_mapError]
  rw [hafter]
  rcases exec_post id r u content masked verdict replyTo db with ⟨e, he⟩ | ⟨m, rfl, hmasked, hfresh, hm⟩
  · rw [he] at hok ⊢
    exact .inl ⟨hok.symm, rfl⟩
  · rw [hm] at hok ⊢
    refine .inr ⟨hok.symm, m, hmasked, hfresh, ?_⟩
    simp [Table.find_insert, Table.contains_eq_false.1 hfresh, key]

end Messages

/-! ## Runs -/

/-- An event in the rooms, or a request for a page of the feed. -/
inductive Visit where
  | room (e : RoomEvent)
  | feed (query : FeedQuery)

/-- The persona that becomes somebody's choice in a room. -/
def Visit.choice (db : Db) (r : RoomId) (u : UserId) : Visit → Option Bool
  | .room e => e.choice db r u
  | .feed _ => none

def Visit.leaves (config : MediaConfig) (db : Db) : Visit → Db
  | .room e => roomStep config db e
  | .feed _ => db

/-- The rooms, and what everybody has chosen there. -/
structure Crowd where
  db : Db
  /-- Who has chosen the public persona of a room, at one time or another. -/
  openly : RoomId → UserId → Bool
  /-- Who is in a room and has chosen no persona since they came. -/
  undecided : RoomId → UserId → Bool

namespace Crowd

/-- Nobody has chosen anything yet. -/
def start (db : Db) : Crowd where
  db := db
  openly _ _ := false
  undecided r u := db.participates r u && !wearsPersona db r u

def step (config : MediaConfig) (c : Crowd) (v : Visit) : Crowd where
  db := v.leaves config c.db
  openly r u := c.openly r u || v.choice c.db r u = some false
  undecided r u :=
    (v.leaves config c.db).participates r u && (v.choice c.db r u).isNone && (!c.db.participates r u || c.undecided r u)

end Crowd

/-! ### The promise -/

/-- Does the room promise anonymity? -/
def promises (db : Db) (r : RoomId) : Bool := (db.room r).any (·.isAnonymous)

def hosts (db : Db) (r : RoomId) (u : UserId) : Bool := (db.room r).any fun row => row.ownerId = some u

namespace Crowd

/-- A message that somebody stores in a room that promises anonymity is anonymous, unless they have chosen the public
persona there. -/
def Stored (c : Crowd) (after : Db) (id : MessageId) (r : RoomId) (u : UserId) : Prop :=
  promises c.db r = true → (c.db.participates r u || hosts c.db r u) = true → c.openly r u = false →
    c.db.messages.contains id = false → ∀ m, after.messages.find id = some m → m.isAnonymous = true

/-- Whoever has not chosen the public persona of an anonymous room is on no card of it, and their messages are anonymous
where they do not say otherwise. -/
def Unseen (config : MediaConfig) (c : Crowd) : Visit → Prop
  | .feed query => ∀ card ∈ (playgroundFeed c.db query).rooms, card.room.isAnonymous = true →
      (∀ face ∈ card.faces, c.openly card.room.id face.id = true) ∧
      ∀ host, card.host = some host → c.openly card.room.id host.id = true
  | .room (.post id r u content none verdict replyTo) =>
      c.Stored (roomStep config c.db (.post id r u content none verdict replyTo)) id r u
  | .room (.send id r u content none verdict) => c.Stored (roomStep config c.db (.send id r u content none verdict)) id r u
  | _ => True

/-- Nobody who has yet to choose a persona is in the first seats of an anonymous room on the page, or posts there; nor does
a host who has not chosen the public one have such a room on the page, or speak over a socket from outside it. -/
def Chosen (c : Crowd) : Visit → Prop
  | .feed query => ∀ room ∈ listFeed c.db query.category (feedLimit query.limit) (max 0 (query.offset.getD 0)),
      room.isAnonymous = true →
        (∀ p ∈ seats c.db room.id feedFaceLimit, (identityOf c.db p.userId).isSome = true →
          c.undecided room.id p.userId = true → c.openly room.id p.userId = true) ∧
        ∀ u, room.ownerId = some u → (identityOf c.db u).isSome = true → c.openly room.id u = true
  | .room (.post id r u content none verdict replyTo) => promises c.db r = true → c.openly r u = false →
      c.undecided r u = true → postable c.db id r u content verdict replyTo = false
  | .room (.send id r u content none verdict) => promises c.db r = true → c.openly r u = false →
      (c.undecided r u || (!c.db.participates r u && hosts c.db r u)) = true → postable c.db id r u content verdict none = false
  | _ => True

/-- What is recorded of the choices accords with the personas. -/
structure Recorded (c : Crowd) : Prop where
  bare : ∀ r u, c.db.participates r u = true → wearsPersona c.db r u = false → c.undecided r u = true ∨ c.openly r u = true
  undecided : ∀ r u, c.undecided r u = true → c.db.participates r u = true ∧ wearsPersona c.db r u = false

section Recorded

variable {config : MediaConfig} {c : Crowd} {v : Visit} {r : RoomId} {u : UserId}

theorem recorded_start (db : Db) : Recorded (start db) where
  bare r u hin hbare := by
    have hboth : db.participates r u = true ∧ wearsPersona db r u = false := ⟨hin, hbare⟩
    exact .inl (by simpa [start] using hboth)
  undecided r u h := by simpa [start] using h

theorem wearsPersona_leaves (hin : (v.leaves config c.db).participates r u = true) :
    wearsPersona (v.leaves config c.db) r u = (v.choice c.db r u).getD (wearsPersona c.db r u) := by
  cases v with
  | room e => exact wearsPersona_roomStep config e hin
  | feed query => rfl

/-- Nobody wears a persona in a room they are not in. -/
theorem wearsPersona_outside (db : Db) (h : db.participates r u = false) : wearsPersona db r u = false := by
  unfold wearsPersona
  rw [Table.contains_eq_false.1 h]
  rfl

theorem recorded_step (h : Recorded c) : Recorded (c.step config v) where
  bare r u hin hbare := by
    change wearsPersona (v.leaves config c.db) r u = false at hbare
    rw [wearsPersona_leaves hin] at hbare
    change ((v.leaves config c.db).participates r u && (v.choice c.db r u).isNone &&
      (!c.db.participates r u || c.undecided r u)) = true ∨ (c.openly r u || decide (v.choice c.db r u = some false)) = true
    cases hchoice : v.choice c.db r u with
    | some isAnonymous =>
      rw [hchoice] at hbare
      exact .inr (by simp [show isAnonymous = false from hbare])
    | none =>
      rw [hchoice] at hbare
      -- no choice was made: they came with this very event, or were as bare before it
      cases hbefore : c.db.participates r u with
      | false => exact .inl (by simp [show (v.leaves config c.db).participates r u = true from hin])
      | true =>
        refine (h.bare r u hbefore hbare).imp (fun hundecided => ?_) fun hopenly => by simp [hopenly]
        simp [show (v.leaves config c.db).participates r u = true from hin, hundecided]
  undecided r u hundecided := by
    change ((v.leaves config c.db).participates r u && (v.choice c.db r u).isNone &&
      (!c.db.participates r u || c.undecided r u)) = true at hundecided
    rw [Bool.and_eq_true, Bool.and_eq_true] at hundecided
    obtain ⟨⟨hin, hnone⟩, hbefore⟩ := hundecided
    refine ⟨hin, (wearsPersona_leaves hin).trans ?_⟩
    rw [Option.isNone_iff_eq_none.1 hnone]
    rcases Bool.or_eq_true _ _ ▸ hbefore with houtside | hundecided
    · exact wearsPersona_outside c.db (Bool.not_eq_true' _ ▸ houtside)
    · exact (h.undecided r u hundecided).2

/-! ### Event by event -/

/-- Somebody in a seat wears no persona, so they have chosen none yet or the public one. -/
theorem seat_recorded (h : Recorded c) {p : RoomParticipant} {perRoom : Nat} (hp : p ∈ seats c.db r perRoom) :
    c.undecided r p.userId = true ∨ c.openly r p.userId = true := by
  obtain ⟨hfind, hopen⟩ := mem_seats hp
  refine h.bare r p.userId (Table.contains_iff.2 ⟨p, hfind⟩) ?_
  unfold wearsPersona
  rw [hfind]
  exact hopen

theorem unseen_feed_iff (h : Recorded c) (query : FeedQuery) : c.Unseen config (.feed query) ↔ c.Chosen (.feed query) := by
  constructor
  · intro hunseen room hroom hanonymous
    obtain ⟨card, hcard, rfl⟩ := List.mem_map.1 ((rooms_playgroundFeed c.db query).symm ▸ hroom)
    obtain ⟨hfaces, hhost⟩ := hunseen card hcard hanonymous
    obtain ⟨hhosteq, hfaceseq⟩ := card_eq hcard
    constructor
    · intro p hp hknown _
      obtain ⟨face, hface⟩ := Option.isSome_iff_exists.1 hknown
      rw [← id_identityOf hface]
      exact hfaces face (by rw [hfaceseq]; exact List.mem_filterMap.2 ⟨p, hp, hface⟩)
    · intro u howner hknown
      obtain ⟨host, hidentity⟩ := Option.isSome_iff_exists.1 hknown
      rw [← id_identityOf hidentity]
      exact hhost host (by rw [hhosteq, howner]; exact hidentity)
  · intro hchosen card hcard hanonymous
    have hroom : card.room ∈ listFeed c.db query.category (feedLimit query.limit) (max 0 (query.offset.getD 0)) := by
      rw [← rooms_playgroundFeed]
      exact List.mem_map.2 ⟨card, hcard, rfl⟩
    obtain ⟨hseats, howners⟩ := hchosen card.room hroom hanonymous
    obtain ⟨hhosteq, hfaceseq⟩ := card_eq hcard
    constructor
    · intro face hface
      rw [hfaceseq] at hface
      obtain ⟨p, hp, hidentity⟩ := List.mem_filterMap.1 hface
      rw [id_identityOf hidentity]
      rcases seat_recorded h hp with hundecided | hopenly
      · exact hseats p hp (by rw [hidentity]; rfl) hundecided
      · exact hopenly
    · intro host hhost
      rw [hhosteq] at hhost
      obtain ⟨u, howner, hidentity⟩ := Option.bind_eq_some_iff.1 hhost
      rw [id_identityOf hidentity]
      exact howners u howner (by rw [hidentity]; rfl)

variable {id : MessageId} {content : String} {verdict : Option FloodVerdict} {replyTo : Option MessageId}

/-- A message is stored under the persona it was sent under, so the promise is kept where that is on, or where nothing is
stored. -/
theorem stored_iff {masked : Bool} {after : Db}
    (hafter : after.messages = ((sendAs masked id r u content verdict replyTo).exec c.db).2.messages) :
    c.Stored after id r u ↔ (promises c.db r = true → (c.db.participates r u || hosts c.db r u) = true → c.openly r u = false →
      postable c.db id r u content verdict replyTo = true → masked = true) := by
  unfold Stored
  rw [hafter]
  rcases messages_sendAs id r u content masked verdict replyTo c.db with ⟨hrefused, hsame⟩ | ⟨haccepted, m, hmasked, hfresh, hm⟩
  · rw [hsame, hrefused]
    refine iff_of_true (fun _ _ _ hfresh m hm => ?_) fun _ _ _ h => by cases h
    rw [Table.contains_eq_false.1 hfresh] at hm
    cases hm
  · rw [hm, haccepted, hfresh, ← hmasked]
    constructor
    · intro h hpromises hbelongs hopenly _
      exact h hpromises hbelongs hopenly rfl m rfl
    · intro h hpromises hbelongs hopenly _ m' hm'
      cases hm'
      exact h hpromises hbelongs hopenly rfl

theorem visible_of_postable {db : Db} (h : postable db id r u content verdict replyTo = true) :
    ∃ a, visibleAccess db r u = .ok a := by
  unfold postable at h
  split at h
  · rename_i haccess hcontent
    exact ⟨_, haccess⟩
  · cases h

theorem unseen_send_iff (h : Recorded c) :
    c.Unseen config (.room (.send id r u content none verdict)) ↔ c.Chosen (.room (.send id r u content none verdict)) := by
  have hsent : (roomStep config c.db (.send id r u content none verdict)).messages =
      ((sendAs (wearsPersona c.db r u) id r u content verdict none).exec c.db).2.messages := rfl
  refine (stored_iff hsent).trans ?_
  constructor
  · intro hmasked hpromises hopenly hreached
    refine Bool.eq_false_of_not_eq_true fun haccepted => ?_
    rcases Bool.or_eq_true _ _ ▸ hreached with hundecided | houtside
    · obtain ⟨hin, hbare⟩ := h.undecided r u hundecided
      have := hmasked hpromises (by rw [hin]; rfl) hopenly haccepted
      rw [hbare] at this
      cases this
    · obtain ⟨hnot, hhosts⟩ := Bool.and_eq_true _ _ ▸ houtside
      have := hmasked hpromises (by rw [hhosts, Bool.or_true]) hopenly haccepted
      rw [wearsPersona_outside c.db (Bool.not_eq_true' _ ▸ hnot)] at this
      cases this
  · intro hchosen hpromises hbelongs hopenly haccepted
    refine Bool.eq_true_of_not_eq_false fun hbare => ?_
    have hreached : (c.undecided r u || (!c.db.participates r u && hosts c.db r u)) = true := by
      cases hin : c.db.participates r u with
      | true =>
        rcases h.bare r u hin hbare with hundecided | hpublic
        · rw [hundecided]
          rfl
        · rw [hopenly] at hpublic
          cases hpublic
      | false =>
        rw [hin] at hbelongs
        rw [show hosts c.db r u = true from hbelongs]
        exact Bool.or_true _
    rw [hchosen hpromises hopenly hreached] at haccepted
    cases haccepted

/-- A message over the REST endpoint is sent under the participant's persona; of somebody who is not in the room, under the
room's default. -/
theorem messages_postMessage (config : MediaConfig) (db : Db) (id : MessageId) (r : RoomId) (u : UserId) (content : String)
    (verdict : Option FloodVerdict) (replyTo : Option MessageId) :
    ∃ masked, (roomStep config db (.post id r u content none verdict replyTo)).messages =
        ((sendAs masked id r u content verdict replyTo).exec db).2.messages ∧
      (postable db id r u content verdict replyTo = true →
        masked = if db.participates r u = true then wearsPersona db r u else promises db r) := by
  have hcall : roomStep config db (.post id r u content none verdict replyTo) =
      ((postMessage id r u content none verdict replyTo).exec db).2 := rfl
  rw [hcall]
  unfold postMessage fromService
  rw [Prog.exec_bind, Prog.exec_mapError, Prog.exec_query]
  rcases hvisible : visibleAccess db r u with e | a
  · have hrefused : postable db id r u content verdict replyTo = false := by
      refine Bool.eq_false_of_not_eq_true fun haccepted => ?_
      obtain ⟨a, ha⟩ := visible_of_postable haccepted
      rw [hvisible] at ha
      cases ha
    rcases messages_sendAs id r u content true verdict replyTo db with ⟨-, hsame⟩ | ⟨haccepted, -⟩
    · refine ⟨true, hsame.symm, fun haccepted => ?_⟩
      rw [hrefused] at haccepted
      cases haccepted
    · rw [hrefused] at haccepted
      cases haccepted
  · simp only [Except.mapError, Prog.exec_read_bind, Option.getD_none]
    refine ⟨_, rfl, fun _ => ?_⟩
    obtain ⟨row, hrow, hroom⟩ := access_room (visibleAccess_ok.1 hvisible).1
    unfold Db.participates Table.contains wearsPersona promises
    rcases hfind : db.roomParticipants.find (r, u) with _ | p
    · simp [hrow, hroom]
    · rfl

theorem unseen_post_iff (h : Recorded c) :
    c.Unseen config (.room (.post id r u content none verdict replyTo)) ↔
      c.Chosen (.room (.post id r u content none verdict replyTo)) := by
  obtain ⟨masked, hposted, hpersona⟩ := messages_postMessage config c.db id r u content verdict replyTo
  refine (stored_iff hposted).trans ?_
  constructor
  · intro hmasked hpromises hopenly hundecided
    refine Bool.eq_false_of_not_eq_true fun haccepted => ?_
    obtain ⟨hin, hbare⟩ := h.undecided r u hundecided
    have := hmasked hpromises (by rw [hin]; rfl) hopenly haccepted
    rw [hpersona haccepted, if_pos hin, hbare] at this
    cases this
  · intro hchosen hpromises _ hopenly haccepted
    rw [hpersona haccepted]
    cases hin : c.db.participates r u with
    | false =>
      rw [if_neg (by decide)]
      exact hpromises
    | true =>
      rw [if_pos rfl]
      refine Bool.eq_true_of_not_eq_false fun hbare => ?_
      rcases h.bare r u hin hbare with hundecided | hpublic
      · rw [hchosen hpromises hopenly hundecided] at haccepted
        cases haccepted
      · rw [hopenly] at hpublic
        cases hpublic

theorem unseen_iff (h : Recorded c) : c.Unseen config v ↔ c.Chosen v := by
  cases v with
  | feed query => exact unseen_feed_iff h query
  | room e =>
    cases e with
    | post id r u content chosen verdict replyTo =>
      cases chosen with
      | none => exact unseen_post_iff h
      | some isAnonymous => exact Iff.rfl
    | send id r u content chosen verdict =>
      cases chosen with
      | none => exact unseen_send_iff h
      | some isAnonymous => exact Iff.rfl
    | _ => exact Iff.rfl

/-- In every run: whoever has not chosen the public persona of an anonymous room is on none of its cards and stores no
message there under their own name without saying so, exactly if, whenever a page of the feed is served, everybody with a
public profile in the first seats of an anonymous room on it has made a choice since they came, and its host has chosen the
public persona, and nobody who has yet to choose posts there. -/
theorem unchosen_unseen_iff (config : MediaConfig) (db : Db) (visits : List Visit) :
    Along (step config) (Unseen config) (start db) visits ↔ Along (step config) Chosen (start db) visits :=
  along_congr (fun _ _ h => recorded_step h) (fun _ _ h => unseen_iff h) (recorded_start db)

end Recorded

end Crowd

/-! ### Anonymity by default -/

/-- `ana` opens a room that promises anonymity. -/
def confessions : Crowd :=
  Crowd.step noMedia (Crowd.start anaAlone)
    (.room (.service (.create ⟨10⟩ none ⟨2⟩ { name := "confessions", roomType := .text, isAnonymous := true })))

def firstPage : FeedQuery := { category := none, limit := none, offset := none }

/-- She looks at the feed, and says something there. -/
def confession : List Visit := [.feed firstPage, .room (.post ⟨20⟩ ⟨10⟩ ⟨2⟩ "it was me" none none none)]

/-- She has chosen nothing. The card of the room calls her by her name, as its host and among its faces, and the message is
stored as hers. -/
theorem unchosen_seen :
    ¬ Along (Crowd.step noMedia) (Crowd.Unseen noMedia) (Crowd.start anaAlone)
      (.room (.service (.create ⟨10⟩ none ⟨2⟩ { name := "confessions", roomType := .text, isAnonymous := true })) :: confession) ∧
    ((playgroundFeed confessions.db firstPage).rooms.map fun card =>
      (card.room.isAnonymous, card.host.map (·.displayName), card.faces.map (·.displayName))) =
        [(true, some "Ana Silva", ["Ana Silva"])] ∧
    ((run (Crowd.step noMedia) confessions confession).db.messages.find ⟨20⟩).map (·.isAnonymous) = some false := by
  refine ⟨fun h => ?_, by decide +kernel, by decide +kernel⟩
  have hunseen : confessions.Unseen noMedia (.feed firstPage) := h.2.1
  have hseen : ((playgroundFeed confessions.db firstPage).rooms.any fun card =>
      card.room.isAnonymous && card.faces.any fun face => !confessions.openly card.room.id face.id) = true := by decide +kernel
  obtain ⟨card, hcard, hshown⟩ := List.any_eq_true.1 hseen
  obtain ⟨hanonymous, hface⟩ := Bool.and_eq_true _ _ ▸ hshown
  obtain ⟨face, hface, hclosed⟩ := List.any_eq_true.1 hface
  have hopenly := (hunseen card hcard hanonymous).1 face hface
  rw [hopenly] at hclosed
  cases hclosed

end Genzh.Api
