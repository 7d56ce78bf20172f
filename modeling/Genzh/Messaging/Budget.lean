/-
Posting, with the flood guard that keeps the poster's budget. The guard records a post as it judges it. Everything that can
refuse a post without asking it comes first, as it should, but for the message replied to: who replies to one that is gone
has spent the budget when the service finds out.
-/
import Genzh.Room.Ended
import Genzh.Infrastructure.Flood
import Genzh.Auth.Handle

namespace Genzh.Messaging

open Genzh.Lib Genzh.Domain Genzh.Infrastructure Genzh.Infrastructure.Flood Genzh.Room

/-- The database, and what the flood guard remembers. -/
structure GuardedDb where
  db : Db
  recent : Map String Recent

abbrev GuardedM := Prog GuardedDb ServiceError

/-- `retry_after.as_secs_f64().ceil()`, of a count of nanoseconds. -/
def secondsUp (retryAfter : Nat) : Nat := (retryAfter + 999999999) / 1000000000

/-- A verdict of the guard, as the service reports it. -/
def reported : Verdict → FloodVerdict
  | .allowed => .allowed
  | .tooFast retryAfter => .tooFast (secondsUp retryAfter)
  | .repeated retryAfter => .repeated (secondsUp retryAfter)

/-- `format!("message:{author_id}:{room_id}")` -/
def floodKey (authorId : UserId) (roomId : RoomId) : String :=
  String.ofList ("message:".toList ++ Auth.Handle.uuidString authorId.uuid ++ ':' :: Auth.Handle.uuidString roomId.uuid)

/-- Permission, then shape, then content caps. -/
def checkContentOf (db : Db) (roomId : RoomId) (authorId : UserId) (content : String) : Except ServiceError String := do
  let a ← visibleAccess db roomId authorId
  a.require .sendMessage
  let content ← liftDomain (validateMessageContent content)
  liftDomain (checkContent content)
  .ok content

section Guarded

variable (p : FloodPolicy) (digest : String → UInt64)

/-- Ask the guard, at this instant of its clock. -/
def askGuard (now : Nat) (key content : String) : GuardedM Unit := fun s =>
  let (verdict, recent) := (p.keeper digest).check now key content s.recent
  (guard (some (reported verdict)), { s with recent })

/-- A statement on the database. -/
def onDb {α : Type} (m : SqlM α) : GuardedM α := fun s =>
  let (outcome, db) := m.exec s.db
  (outcome, { s with db })

/-- Post a message. -/
def postGuarded (now : Nat) (id : MessageId) (roomId : RoomId) (authorId : UserId) (content : String) (isAnonymous : Bool)
    (replyToId : Option MessageId) : GuardedM Message := do
  let content ← Prog.query fun s => checkContentOf s.db roomId authorId content
  askGuard p digest now (floodKey authorId roomId) content
  Prog.query fun s => checkReply s.db roomId replyToId
  let createdAt ← Prog.read fun s => s.db.now
  onDb (insertMessage { id, roomId, authorId, content, replyToId, isAnonymous, editedAt := none, createdAt })

/-- What the guard says, if it is asked. -/
def verdictOn (now : Nat) (roomId : RoomId) (authorId : UserId) (content : String) (s : GuardedDb) : Option Verdict :=
  (checkContentOf s.db roomId authorId content).toOption.map fun content =>
    ((p.keeper digest).check now (floodKey authorId roomId) content s.recent).1

/-- A post that is refused, and not by the guard, leaves what the guard remembers as it was, and so the verdict on whatever
is posted later. -/
def SparesBudget (now : Nat) (id : MessageId) (roomId : RoomId) (authorId : UserId) (content : String) (isAnonymous : Bool)
    (replyToId : Option MessageId) (s : GuardedDb) : Prop :=
  let after := (postGuarded p digest now id roomId authorId content isAnonymous replyToId).exec s
  (∃ e, after.1 = .error e) → (∀ v, verdictOn p digest now roomId authorId content s = some v → v.isAllowed = true) →
    after.2.recent = s.recent ∧
    ∀ later key content', ((p.keeper digest).check later key content' after.2.recent).1 =
      ((p.keeper digest).check later key content' s.recent).1

/-- The message replied to is one of the room, and the new one can be stored: its identifier is new, and it refers to what
there is. -/
def storable (id : MessageId) (roomId : RoomId) (authorId : UserId) (replyToId : Option MessageId) (db : Db) : Bool :=
  (checkReply db roomId replyToId).isOk &&
    (!db.messages.contains id && (db.roomExists roomId && db.userExists authorId && replyToId.all db.messages.contains))

/-- The post is refused before the guard is asked, or by the guard, or nothing can refuse it any more. -/
def RefusedInTime (now : Nat) (id : MessageId) (roomId : RoomId) (authorId : UserId) (content : String)
    (replyToId : Option MessageId) (s : GuardedDb) : Prop :=
  (checkContentOf s.db roomId authorId content).isOk = true →
    (∀ v, verdictOn p digest now roomId authorId content s = some v → v.isAllowed = true) →
    storable id roomId authorId replyToId s.db = true

end Guarded

/-! ## What a post does -/

section Posting

variable {p : FloodPolicy} {digest : String → UInt64} {now : Nat} {id : MessageId} {roomId : RoomId} {authorId : UserId}
  {content : String} {isAnonymous : Bool} {replyToId : Option MessageId} {s : GuardedDb}

theorem checkPost_eq (db : Db) (verdict : Option FloodVerdict) : checkPost db roomId authorId content verdict replyToId =
    checkContentOf db roomId authorId content >>= fun content =>
      guard verdict >>= fun _ => checkReply db roomId replyToId >>= fun _ => .ok content := by
  unfold checkPost checkContentOf
  simp only [bind_assoc]
  rfl

theorem verdictOn_checked (p : FloodPolicy) (digest : String → UInt64) (now : Nat) {checked : String}
    (h : checkContentOf s.db roomId authorId content = .ok checked) : verdictOn p digest now roomId authorId content s =
      some ((p.keeper digest).check now (floodKey authorId roomId) checked s.recent).1 := by
  unfold verdictOn
  rw [h]
  rfl

/-- A post that is refused before the guard is asked changes nothing. -/
theorem exec_refused {e : ServiceError} (h : checkContentOf s.db roomId authorId content = .error e) :
    (postGuarded p digest now id roomId authorId content isAnonymous replyToId).exec s = (.error e, s) := by
  unfold postGuarded
  rw [Prog.exec_query_bind, h]

/-- One that is not has been recorded, whatever becomes of it. -/
theorem exec_asked {checked : String} (h : checkContentOf s.db roomId authorId content = .ok checked) :
    (postGuarded p digest now id roomId authorId content isAnonymous replyToId).exec s =
      (((post id roomId authorId content isAnonymous ((verdictOn p digest now roomId authorId content s).map reported)
          replyToId).exec s.db).1,
        { db := ((post id roomId authorId content isAnonymous ((verdictOn p digest now roomId authorId content s).map reported)
            replyToId).exec s.db).2
          recent := ((p.keeper digest).check now (floodKey authorId roomId) checked s.recent).2 }) := by
  have hask : (askGuard p digest now (floodKey authorId roomId) checked).exec s =
      (guard (some (reported ((p.keeper digest).check now (floodKey authorId roomId) checked s.recent).1)),
        { s with recent := ((p.keeper digest).check now (floodKey authorId roomId) checked s.recent).2 }) := rfl
  have hchecked : ∀ verdict, checkPost s.db roomId authorId content verdict replyToId =
      guard verdict >>= fun _ => checkReply s.db roomId replyToId >>= fun _ => .ok checked := by
    intro verdict
    rw [checkPost_eq, h]
    rfl
  have hquery : (Prog.query fun s : GuardedDb => checkContentOf s.db roomId authorId content).exec s = (.ok checked, s) := by
    rw [Prog.exec_query, h]
  unfold postGuarded post
  rw [Prog.exec_bind_ok hquery, Prog.exec_query_bind, hchecked, verdictOn_checked p digest now h, Option.map_some]
  -- recorded first, and refused or let on after that
  rcases hguard : guard (some (reported ((p.keeper digest).check now (floodKey authorId roomId) checked s.recent).1)) with e | u
  · rw [hguard] at hask
    rw [Prog.exec_bind_error hask]
    rfl
  · rw [hguard] at hask
    rw [Prog.exec_bind_ok hask, Prog.exec_query_bind]
    rcases checkReply s.db roomId replyToId with e | u
    · rfl
    · rfl

/-- A post the guard allows is stored if it can be. -/
theorem isOk_allowed (id : MessageId) (replyToId : Option MessageId) (isAnonymous : Bool) {checked : String}
    (h : checkContentOf s.db roomId authorId content = .ok checked) {v : Verdict} (hv : v.isAllowed = true) :
    ((post id roomId authorId content isAnonymous (some (reported v)) replyToId).exec s.db).1.isOk =
      storable id roomId authorId replyToId s.db := by
  have hguard : guard (some (reported v)) = .ok () := by
    cases v <;> first | rfl | cases hv
  unfold post storable
  rw [Prog.exec_query_bind, checkPost_eq, h]
  rcases hreply : checkReply s.db roomId replyToId with e | u
  · simp [bind, Except.bind, hguard, Except.isOk, Except.toBool]
  · simp only [bind, Except.bind, hguard]
    exact isOk_insertMessage _ _

/-- What a post leaves of its key is of use at once. -/
theorem isIdle_visit (hwindow : 0 < p.window) (d : UInt64) (entry : Option Recent) :
    p.isIdle now (p.visit now d entry).2 = false := by
  unfold FloodPolicy.isIdle
  simp only [FloodPolicy.last_visit, Nat.sub_self, Bool.not_eq_false', decide_eq_true_eq]
  exact lt_max_of_lt_left hwindow

/-- A post that is allowed leaves another entry than it found. -/
theorem visit_changes (hwindow : 0 < p.window) {d : UInt64} {e : Recent} (h : (p.visit now d (some e)).1.isAllowed = true) :
    (p.visit now d (some e)).2 ≠ e := by
  intro hsame
  have hcounted : p.isOneTooMany now d (p.opened now (some e)) = false := by
    by_contra hmany
    obtain ⟨⟨wait, hwait⟩, -⟩ := FloodPolicy.visit_oneTooMany (Bool.not_eq_false _ ▸ hmany)
    rw [hwait] at h
    cases h
  obtain ⟨-, -, hleft⟩ := FloodPolicy.visit_counted hcounted
  rw [hsame] at hleft
  by_cases hpassed : p.window ≤ now - e.windowStarted
  · -- the window of the entry begins now, so that it has not passed
    have hstarted := congrArg Recent.windowStarted hleft
    rw [FloodPolicy.opened_some, if_pos hpassed] at hstarted
    simp only at hstarted
    omega
  · have hcount := congrArg Recent.count hleft
    rw [FloodPolicy.opened_some, if_neg hpassed] at hcount
    simp at hcount

/-- The guard remembers a post it allows. -/
theorem check_changes (hwindow : 0 < p.window) {key checked : String} {recent : Map String Recent}
    (h : ((p.keeper digest).check now key checked recent).1.isAllowed = true) :
    ((p.keeper digest).check now key checked recent).2 ≠ recent := by
  intro hsame
  -- else the entry it leaves was there before, no sweep has dropped it, and a visit changes it
  have hleft : recent.get key = some (p.visit now (digest checked) (((p.keeper digest).found now recent).get key)).2 := by
    conv_lhs => rw [← hsame]
    exact Map.get_set_self ..
  have hfound : ((p.keeper digest).found now recent).get key = recent.get key := by
    unfold Keeper.found Keeper.sweep
    split
    · rw [Map.get_retain, hleft]
      refine Option.filter_some_pos ?_
      show (!p.isIdle now _) = true
      rw [isIdle_visit hwindow]
      rfl
    · rfl
  rw [hfound] at hleft
  rcases hentry : recent.get key with _ | e
  · rw [hentry] at hleft
    cases hleft
  · rw [hentry, Option.some.injEq] at hleft
    refine visit_changes hwindow (d := digest checked) ?_ hleft.symm
    rw [← hentry, ← hfound]
    exact h

/-! ## The budget -/

/-- What refuses a post the guard allowed has come too late: the guard remembers it. -/
theorem not_spares (hwindow : 0 < p.window) (hasked : (checkContentOf s.db roomId authorId content).isOk = true)
    (hallowed : ∀ v, verdictOn p digest now roomId authorId content s = some v → v.isAllowed = true)
    (hnot : storable id roomId authorId replyToId s.db = false) :
    ¬ SparesBudget p digest now id roomId authorId content isAnonymous replyToId s := by
  rcases hchecked : checkContentOf s.db roomId authorId content with e | checked
  · rw [hchecked] at hasked
    cases hasked
  · have hverdict := verdictOn_checked p digest now hchecked
    have hv := hallowed _ hverdict
    have hok := isOk_allowed id replyToId isAnonymous hchecked hv
    intro h
    have hspared := h ?_ hallowed
    · rw [exec_asked hchecked] at hspared
      exact check_changes hwindow hv hspared.1
    · rw [exec_asked hchecked, hverdict, Option.map_some]
      rw [hnot] at hok
      rcases hpost : ((post id roomId authorId content isAnonymous (some (reported
        ((p.keeper digest).check now (floodKey authorId roomId) checked s.recent).1)) replyToId).exec s.db).1 with e | m
      · exact ⟨e, rfl⟩
      · rw [hpost] at hok
        cases hok

/-- A post that is refused, and not by the guard, spares the budget if it is refused in time; and if the guard has a window
at all, only then. -/
theorem sparesBudget_iff (p : FloodPolicy) (digest : String → UInt64) (now : Nat) (id : MessageId) (roomId : RoomId)
    (authorId : UserId) (content : String) (isAnonymous : Bool) (replyToId : Option MessageId) (s : GuardedDb) :
    (RefusedInTime p digest now id roomId authorId content replyToId s →
      SparesBudget p digest now id roomId authorId content isAnonymous replyToId s) ∧
    (0 < p.window → SparesBudget p digest now id roomId authorId content isAnonymous replyToId s →
      RefusedInTime p digest now id roomId authorId content replyToId s) := by
  constructor
  · rintro hintime ⟨e, he⟩ hallowed
    rcases hchecked : checkContentOf s.db roomId authorId content with e' | checked
    · rw [exec_refused hchecked]
      exact ⟨rfl, fun _ _ _ => rfl⟩
    · -- allowed by the guard, the post is stored
      have hverdict := verdictOn_checked p digest now hchecked
      have hok := isOk_allowed id replyToId isAnonymous hchecked (hallowed _ hverdict)
      rw [hintime (by rw [hchecked]; rfl) hallowed] at hok
      rw [exec_asked hchecked, hverdict, Option.map_some] at he
      simp only at he
      rw [he] at hok
      cases hok
  · intro hwindow hspares hasked hallowed
    by_contra hnot
    exact not_spares hwindow hasked hallowed (Bool.eq_false_iff.2 hnot) hspares

end Posting

/-! ## A reply to nothing -/

section Sample

/-- A public room of nobody's, in which `ana` may write. -/
def openHall : RoomRow where
  id := ⟨5⟩
  communityId := none
  ownerId := none
  name := "hall"
  topic := none
  category := "general"
  roomType := .text
  visibility := .public
  status := .active
  isAnonymous := false
  position := 0
  maxParticipants := none
  currentParticipants := 0
  startedAt := none
  expiresAt := none
  endedAt := none
  createdAt := 0
  updatedAt := 0
  emptiedAt := none

def hall : GuardedDb where
  db := { Db.empty 0 with
    users := Table.empty.insert { id := ⟨1⟩, handle := "ana", email := "ana@genzh.test", isActive := true }
    rooms := Table.empty.insert openHall }
  recent := .empty

/-- Ten posts in ten seconds, and the same post three times in thirty. -/
def usualPolicy : FloodPolicy := ⟨10, 10000000000, 30000000000, 3⟩

/-- A reply to a message that is gone is refused, and has been recorded. -/
theorem reply_spends : ¬ SparesBudget usualPolicy (fun _ => 7) 0 ⟨2⟩ ⟨5⟩ ⟨1⟩ "hi" false (some ⟨99⟩) hall := by
  have hchecked : checkContentOf hall.db ⟨5⟩ ⟨1⟩ "hi" = .ok "hi" := by decide +kernel
  refine not_spares (by decide) (by rw [hchecked]; rfl) (fun v hv => ?_) (by decide)
  rw [verdictOn_checked usualPolicy (fun _ => 7) 0 hchecked, Option.some.injEq] at hv
  subst hv
  decide

end Sample

end Genzh.Messaging
