/-
Under which persona a message goes that does not choose one. Both ways of sending look for the participant first; without
one, a request falls back on the default of the room and a command of a connection on the public persona. Neither fails
where the participant cannot be read: each goes on as if there were none.
-/
import Genzh.Api.Authorship

namespace Genzh.Api.Messages

open Genzh.Lib Genzh.Domain Genzh.Infrastructure Genzh.Room Genzh.Messaging Genzh.Notification

/-! ## The two resolutions -/

/-- One participant's row in a room, if they are in it, from a database that may not answer. -/
def participant (answers : Bool) (db : Db) (r : RoomId) (u : UserId) : Except ServiceError (Option RoomParticipant) :=
  if answers then .ok (db.roomParticipants.find (r, u)) else .error (.repository .database)

/-- `.unwrap_or(None)`, and `.ok().flatten()`. -/
def orNobody (found : Except ServiceError (Option RoomParticipant)) : Option RoomParticipant := found.toOption.join

/-- Explicit choice in the body, or else the participant's preference, or else the room's default. -/
def bodyPersona (found : Except ServiceError (Option RoomParticipant)) (room : Domain.Room) (isAnonymous : Option Bool) : Bool :=
  isAnonymous.getD (((orNobody found).map (·.isAnonymous)).getD room.isAnonymous)

/-- An explicit choice in the command wins; otherwise the persona this user last set in this room does. -/
def commandPersona (found : Except ServiceError (Option RoomParticipant)) (isAnonymous : Option Bool) : Bool :=
  isAnonymous.getD (((orNobody found).map (·.isAnonymous)).getD false)

/-- `POST /rooms/{id}/messages`, to the message it stores. -/
def postStored (answers : Bool) (id : MessageId) (r : RoomId) (u : UserId) (content : String) (isAnonymous : Option Bool)
    (verdict : Option FloodVerdict) (replyTo : Option MessageId) : SqlM Message := do
  let a ← Prog.query fun db => visibleAccess db r u
  let masked ← Prog.read fun db => bodyPersona (participant answers db r u) a.room isAnonymous
  Messaging.post id r u content masked verdict replyTo

/-- `send_message`, over a connection that follows the room, to the message it stores. -/
def sendStored (answers : Bool) (id : MessageId) (r : RoomId) (u : UserId) (content : String) (isAnonymous : Option Bool)
    (verdict : Option FloodVerdict) : SqlM Message := do
  let masked ← Prog.read fun db => commandPersona (participant answers db r u) isAnonymous
  Messaging.post id r u content masked verdict none

section Paths

variable {db : Db} {env : Surroundings} {id : MessageId} {r : RoomId} {u : UserId} {content : String} {isAnonymous : Option Bool}
  {verdict : Option FloodVerdict} {replyTo : Option MessageId}

theorem commandPersona_answered : commandPersona (participant true db r u) isAnonymous = persona db r u isAnonymous := by
  unfold commandPersona persona
  change isAnonymous.getD (((db.roomParticipants.find (r, u)).map (·.isAnonymous)).getD false) = _
  rcases db.roomParticipants.find (r, u) with _ | p <;> rfl

/-- The message a request is answered with is the one it stores, where the database answers. -/
theorem post_message {db db' : ChatDb} {p : Posted}
    (h : (post env id r u content isAnonymous verdict replyTo).exec db = (.ok p, db')) :
    ((postStored true id r u content isAnonymous verdict replyTo).exec db.toDb).1 = .ok p.message := by
  unfold post at h
  unfold postStored
  rw [Prog.exec_query_bind] at h ⊢
  rcases haccess : visibleAccess db.toDb r u with e | access
  · rw [haccess] at h
    cases h
  rw [haccess] at h
  simp only [Prog.exec_read_bind] at h ⊢
  obtain ⟨message, db₁, hpost, h⟩ := Prog.bind_ok h
  obtain ⟨identity, db₂, -, h⟩ := Prog.bind_ok h
  rw [Prog.exec_read_bind, Prog.exec_pure] at h
  cases (Prod.mk.inj h).1
  exact congrArg Prod.fst (overDb_ok hpost)

/-- And so is the one a command is followed by. -/
theorem sendMessage_message {db db' : ChatDb} {p : Posted}
    (h : (sendMessage env id r u content isAnonymous verdict).exec db = (.ok p, db')) :
    ((sendStored true id r u content isAnonymous verdict).exec db.toDb).1 = .ok p.message := by
  unfold sendMessage at h
  unfold sendStored
  rw [Prog.exec_read_bind] at h ⊢
  obtain ⟨message, db₁, hpost, h⟩ := Prog.bind_ok h
  obtain ⟨identity, db₂, -, h⟩ := Prog.bind_ok h
  obtain ⟨room, db₃, -, h⟩ := Prog.bind_ok h
  rw [Prog.exec_read_bind, Prog.exec_pure] at h
  cases (Prod.mk.inj h).1
  rw [commandPersona_answered]
  exact congrArg Prod.fst (overDb_ok hpost)

end Paths

/-! ## Where they agree -/

/-- Is the message one the room takes? -/
def accepted (db : Db) (id : MessageId) (r : RoomId) (u : UserId) (content : String) (verdict : Option FloodVerdict)
    (replyTo : Option MessageId) : Bool :=
  (checkPost db r u content verdict replyTo).isOk && !db.messages.contains id &&
    (db.roomExists r && db.userExists u && replyTo.all db.messages.contains)

/-- Where the two paths store a message that makes no choice, it carries the same flag. -/
def SameFlag (requestAnswers commandAnswers : Bool) (db : Db) (id : MessageId) (r : RoomId) (u : UserId) (content : String)
    (verdict : Option FloodVerdict) (replyTo : Option MessageId) : Prop :=
  ∀ m m', ((postStored requestAnswers id r u content none verdict replyTo).exec db).1 = .ok m →
    ((sendStored commandAnswers id r u content none verdict).exec db).1 = .ok m' → m.isAnonymous = m'.isAnonymous

/-- What a request sees of the author, what a command does, and the default of the room. -/
def Agree (room : RoomRow) : Option RoomParticipant → Option RoomParticipant → Prop
  | some _, some _ => True
  | some p, none => p.isAnonymous = false
  | none, some p => p.isAnonymous = room.isAnonymous
  | none, none => room.isAnonymous = false

/-- What is seen of a participant. -/
def seen (answers : Bool) (db : Db) (r : RoomId) (u : UserId) : Option RoomParticipant := orNobody (participant answers db r u)

section Agreement

variable {db : Db} {id : MessageId} {r : RoomId} {u : UserId} {content : String} {verdict : Option FloodVerdict}
  {replyTo : Option MessageId}

theorem checkPost_plain (h : (checkPost db r u content verdict replyTo).isOk = true) :
    (checkPost db r u content verdict none).isOk = true := by
  obtain ⟨text, h⟩ : ∃ text, checkPost db r u content verdict replyTo = .ok text := by
    rcases hc : checkPost db r u content verdict replyTo with e | text
    · rw [hc] at h
      cases h
    · exact ⟨text, rfl⟩
  unfold checkPost at h ⊢
  obtain ⟨a, ha, h⟩ := Prog.bind_eq_ok h
  obtain ⟨_, hsend, h⟩ := Prog.bind_eq_ok h
  obtain ⟨valid, hvalid, h⟩ := Prog.bind_eq_ok h
  obtain ⟨_, hcontent, h⟩ := Prog.bind_eq_ok h
  obtain ⟨_, hguard, _⟩ := Prog.bind_eq_ok h
  simp only [ha, hsend, hvalid, hcontent, hguard, bind, Except.bind, checkReply, Except.isOk, Except.toBool]

theorem accepted_plain (h : accepted db id r u content verdict replyTo = true) :
    accepted db id r u content verdict none = true := by
  unfold accepted at h ⊢
  simp only [Bool.and_eq_true] at h ⊢
  exact ⟨⟨checkPost_plain h.1.1, h.1.2⟩, h.2.1, rfl⟩

/-- A message is stored exactly where the room takes it, and with the flag it came with. -/
theorem post_ok (masked : Bool) : (∃ m, ((Messaging.post id r u content masked verdict replyTo).exec db).1 = .ok m) ↔
    accepted db id r u content verdict replyTo = true := by
  have hstored : ((Messaging.post id r u content masked verdict replyTo).exec db).1.isOk =
      accepted db id r u content verdict replyTo := by
    unfold Messaging.post accepted
    rw [Prog.exec_query_bind]
    rcases checkPost db r u content verdict replyTo with e | text
    · rfl
    · rw [Bool.and_assoc]
      exact isOk_insertMessage _ db
  rw [← hstored]
  rcases ((Messaging.post id r u content masked verdict replyTo).exec db).1 with e | m
  · exact iff_of_false (fun h => (by obtain ⟨m, h⟩ := h; cases h)) (fun h => (by cases h))
  · exact iff_of_true ⟨m, rfl⟩ rfl

theorem post_flag {masked : Bool} {m : Message}
    (h : ((Messaging.post id r u content masked verdict replyTo).exec db).1 = .ok m) : m.isAnonymous = masked := by
  rw [(post_stored (Prod.ext h rfl)).1]
  rfl

theorem accepted_visible (h : accepted db id r u content verdict replyTo = true) :
    ∃ a row, visibleAccess db r u = .ok a ∧ db.room r = some row ∧ a.room = row.toRoom := by
  obtain ⟨m, hm⟩ := (post_ok false).2 h
  obtain ⟨a, ha⟩ := (post_stored (Prod.ext hm rfl)).2.2
  obtain ⟨row, hrow, hroom⟩ := access_room (visibleAccess_ok.1 ha).1
  exact ⟨a, row, ha, hrow, hroom⟩

/-- The rows that two readings of one participant see are the same, where both see one. -/
theorem agree_iff (requestAnswers commandAnswers : Bool) (row : RoomRow) :
    Agree row (seen requestAnswers db r u) (seen commandAnswers db r u) ↔
      bodyPersona (participant requestAnswers db r u) row.toRoom none =
        commandPersona (participant commandAnswers db r u) none := by
  unfold seen bodyPersona commandPersona participant
  rcases hfound : db.roomParticipants.find (r, u) with _ | p
  · -- no row: neither sees one
    cases requestAnswers <;> cases commandAnswers <;> exact Iff.rfl
  · cases requestAnswers <;> cases commandAnswers
    · exact Iff.rfl
    · exact eq_comm
    · exact Iff.rfl
    · exact iff_of_true trivial rfl

end Agreement

/-- A message that makes no choice of persona is stored with the same flag on both paths exactly where both see the
author's participation, or where what the one that does not falls back on is what the other comes to; unless the room
does not take it. -/
theorem sameFlag_iff (requestAnswers commandAnswers : Bool) (db : Db) (id : MessageId) (r : RoomId) (u : UserId)
    (content : String) (verdict : Option FloodVerdict) (replyTo : Option MessageId) :
    SameFlag requestAnswers commandAnswers db id r u content verdict replyTo ↔
      (accepted db id r u content verdict replyTo = true → ∀ row, db.room r = some row →
        Agree row (seen requestAnswers db r u) (seen commandAnswers db r u)) := by
  have hrequest : ∀ a, visibleAccess db r u = .ok a →
      (postStored requestAnswers id r u content none verdict replyTo).exec db =
        (Messaging.post id r u content (bodyPersona (participant requestAnswers db r u) a.room none) verdict replyTo).exec db := by
    intro a ha
    unfold postStored
    rw [Prog.exec_query_bind, ha]
    rfl
  have hcommand : (sendStored commandAnswers id r u content none verdict).exec db =
      (Messaging.post id r u content (commandPersona (participant commandAnswers db r u) none) verdict none).exec db := rfl
  constructor
  · intro h hacc row hrow
    obtain ⟨a, row', ha, hrow', hroom⟩ := accepted_visible hacc
    rw [hrow] at hrow'
    cases hrow'
    -- a room that takes the message as a reply takes it as none too
    obtain ⟨m, hm⟩ := (post_ok _).2 hacc
    obtain ⟨m', hm'⟩ := (post_ok _).2 (accepted_plain hacc)
    have hflag := h m m' (by rw [hrequest a ha]; exact hm) (by rw [hcommand]; exact hm')
    rw [post_flag hm, post_flag hm'] at hflag
    rw [hroom] at hflag
    exact (agree_iff requestAnswers commandAnswers row).2 hflag
  · intro h m m' hm hm'
    obtain ⟨a, ha⟩ : ∃ a, visibleAccess db r u = .ok a := by
      unfold postStored at hm
      rw [Prog.exec_query_bind] at hm
      rcases ha : visibleAccess db r u with e | a
      · rw [ha] at hm
        cases hm
      · exact ⟨a, rfl⟩
    rw [hrequest a ha] at hm
    rw [hcommand] at hm'
    have hacc := (post_ok _).1 ⟨m, hm⟩
    obtain ⟨a', row, ha', hrow, hroom⟩ := accepted_visible hacc
    rw [ha] at ha'
    cases ha'
    rw [post_flag hm, post_flag hm', hroom]
    exact (agree_iff requestAnswers commandAnswers row).1 (h hacc row hrow)

/-- An anonymous room of ana's, which ben looks into without joining it. -/
def anonymousRoom : List Room.Request :=
  [.register (account ⟨1⟩ "ana"), .register (account ⟨2⟩ "ben"),
    .create ⟨10⟩ none ⟨1⟩ { name := "no names", roomType := .text, isAnonymous := true }]

/-- What ben says there is anonymous when he asks for it to be posted, and under his name when his connection sends it. -/
theorem ben_unmasked :
    ¬ SameFlag true true (run Room.step (Db.empty 0) anonymousRoom) ⟨20⟩ ⟨10⟩ ⟨2⟩ "hello" none none ∧
    (run Room.step (Db.empty 0) anonymousRoom).participates ⟨10⟩ ⟨2⟩ = false ∧
    (((postStored true ⟨20⟩ ⟨10⟩ ⟨2⟩ "hello" none none none).exec (run Room.step (Db.empty 0) anonymousRoom)).1.map
      (·.isAnonymous)) = .ok true ∧
    (((sendStored true ⟨20⟩ ⟨10⟩ ⟨2⟩ "hello" none none).exec (run Room.step (Db.empty 0) anonymousRoom)).1.map
      (·.isAnonymous)) = .ok false := by
  have hpost : (((postStored true ⟨20⟩ ⟨10⟩ ⟨2⟩ "hello" none none none).exec (run Room.step (Db.empty 0) anonymousRoom)).1.map
      (·.isAnonymous)) = .ok true := by decide +kernel
  have hsend : (((sendStored true ⟨20⟩ ⟨10⟩ ⟨2⟩ "hello" none none).exec (run Room.step (Db.empty 0) anonymousRoom)).1.map
      (·.isAnonymous)) = .ok false := by decide +kernel
  refine ⟨fun h => ?_, by decide +kernel, hpost, hsend⟩
  rcases hm : ((postStored true ⟨20⟩ ⟨10⟩ ⟨2⟩ "hello" none none none).exec (run Room.step (Db.empty 0) anonymousRoom)).1 with e | m
  · rw [hm] at hpost
    cases hpost
  · rcases hm' : ((sendStored true ⟨20⟩ ⟨10⟩ ⟨2⟩ "hello" none none).exec (run Room.step (Db.empty 0) anonymousRoom)).1 with e | m'
    · rw [hm'] at hsend
      cases hsend
    · have hflag := h m m' hm hm'
      rw [hm] at hpost
      rw [hm'] at hsend
      have h₁ : m.isAnonymous = true := Except.ok.inj hpost
      have h₂ : m'.isAnonymous = false := Except.ok.inj hsend
      rw [h₁, h₂] at hflag
      cases hflag

end Genzh.Api.Messages
