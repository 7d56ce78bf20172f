/-
What a caller may ask an expiry to be. The lifetime of a new room and that of an invite are numbers of the
request: only a playground room's is brought into a range, so elsewhere the arithmetic may panic on a
large one, and a small one gives an expiry that has passed.
-/
import Genzh.Room.Observe
import Genzh.Community.Invites

namespace Genzh.Api

open Genzh.Lib Genzh.Domain Genzh.Infrastructure Genzh.Community Genzh.Room

/-- The request does not panic, and an expiry it gives lies after now. -/
def EndsAhead {α : Type} (now : Timestamp) (expiry : α → Option Timestamp) (result : Except ServiceError α) : Prop :=
  result ≠ .error .panicked ∧ ∀ a, result = .ok a → ∀ e, expiry a = some e → now < e

/-! ## An expiry and the insert it goes into -/

/-- An amount of a unit of time from now on: `roomExpiry` and `inviteExpiry` are this, each with its unit. -/
def expiryFrom (unit : Int → Option Duration) (now : Timestamp) : Option Int → Except ServiceError (Option Timestamp)
  | none => .ok none
  | some amount =>
    match (unit amount).bind (Timestamp.add now) with
    | some t => .ok (some t)
    | none => .error .panicked

theorem roomExpiry_eq (now : Timestamp) (minutes : Option Int) :
    roomExpiry now minutes = expiryFrom Duration.minutes now minutes := by
  cases minutes <;> rfl

theorem inviteExpiry_eq (now : Timestamp) (hours : Option Int) :
    inviteExpiry now hours = expiryFrom Duration.hours now hours := by
  cases hours <;> rfl

theorem expiryFrom_some {unit : Int → Option Duration} {now : Timestamp} {amount : Int} {d : Duration}
    (hunit : unit amount = some d) (hadd : (Timestamp.add now d).isSome = true) :
    expiryFrom unit now (some amount) = .ok (some (now + d)) := by
  obtain ⟨t, ht⟩ := Option.isSome_iff_exists.1 hadd
  have hbind : (unit amount).bind (Timestamp.add now) = some t := by rw [hunit, Option.bind_some, ht]
  rw [expiryFrom, hbind, ← Timestamp.add_eq_some ht]

theorem expiryFrom_panicked {unit : Int → Option Duration} {now : Timestamp} {amount : Int}
    (h : ∀ d, unit amount = some d → (Timestamp.add now d).isSome = false) :
    expiryFrom unit now (some amount) = .error .panicked := by
  have hbind : (unit amount).bind (Timestamp.add now) = none := by
    rcases hunit : unit amount with _ | d
    · rfl
    · rw [Option.bind_some, ← Option.not_isSome_iff_eq_none, h d hunit]
      exact Bool.false_ne_true
  rw [expiryFrom, hbind]

/-- An insert of a row with this expiry: `takes` says whether the database takes the row. -/
structure Inserts {α : Type} (expiry : α → Option Timestamp) (insert : Option Timestamp → Except ServiceError α)
    (takes : Option Timestamp → Bool) : Prop where
  taken : ∀ e, takes e = true → ∃ a, insert e = .ok a ∧ expiry a = e
  refused : ∀ e, takes e = false → ∃ error, insert e = .error error ∧ error ≠ .panicked

/-- An amount that is in range, and ahead unless the database refuses the row it would go into. -/
def AmountAhead (unit : Int → Option Duration) (now : Timestamp) (takes : Option Timestamp → Bool)
    (amount : Option Int) : Prop :=
  ∀ n, amount = some n → ∃ d, unit n = some d ∧ (Timestamp.add now d).isSome = true ∧
    (0 < d ∨ takes (some (now + d)) = false)

section Insert

variable {α : Type} {expiry : α → Option Timestamp} {insert : Option Timestamp → Except ServiceError α}
  {takes : Option Timestamp → Bool}

theorem Inserts.endsAhead_iff (h : Inserts expiry insert takes) (now : Timestamp) (e : Option Timestamp) :
    EndsAhead now expiry (insert e) ↔ ∀ t, e = some t → now < t ∨ takes e = false := by
  rcases htakes : takes e
  · obtain ⟨error, hinsert, hne⟩ := h.refused e htakes
    rw [hinsert]
    refine iff_of_true ⟨fun hp => hne (Except.error.inj hp), fun a ha => (by cases ha)⟩ fun t _ => .inr rfl
  · obtain ⟨a, hinsert, hexpiry⟩ := h.taken e htakes
    rw [hinsert]
    constructor
    · rintro ⟨-, hahead⟩ t ht
      exact .inl (hahead a rfl t (hexpiry.trans ht))
    · intro hahead
      refine ⟨fun hp => (by cases hp), fun b hb t ht => ?_⟩
      cases hb
      exact (hahead t (hexpiry.symm.trans ht)).resolve_right (by simp)

theorem Inserts.endsAhead_bind_iff (h : Inserts expiry insert takes) (now : Timestamp)
    (unit : Int → Option Duration) (amount : Option Int) :
    EndsAhead now expiry ((expiryFrom unit now amount).bind insert) ↔ AmountAhead unit now takes amount := by
  rcases amount with _ | n
  · change EndsAhead now expiry (insert none) ↔ _
    rw [h.endsAhead_iff]
    exact iff_of_true (fun t ht => (by cases ht)) fun n hn => (by cases hn)
  by_cases hrange : ∃ d, unit n = some d ∧ (Timestamp.add now d).isSome = true
  · obtain ⟨d, hunit, hadd⟩ := hrange
    rw [expiryFrom_some hunit hadd]
    change EndsAhead now expiry (insert (some (now + d))) ↔ _
    rw [h.endsAhead_iff]
    constructor
    · intro hahead m hm
      cases hm
      exact ⟨d, hunit, hadd, (hahead _ rfl).imp_left (lt_add_iff_pos_right now).1⟩
    · intro hahead t ht
      cases ht
      obtain ⟨d', hunit', -, hahead⟩ := hahead n rfl
      rw [hunit] at hunit'
      cases hunit'
      exact hahead.imp_left (lt_add_iff_pos_right now).2
  · rw [expiryFrom_panicked fun d hunit => Bool.eq_false_iff.2 fun hadd => hrange ⟨d, hunit, hadd⟩]
    refine iff_of_false (fun hahead => hahead.1 rfl) fun hahead => ?_
    obtain ⟨d, hunit, hadd, -⟩ := hahead n rfl
    exact hrange ⟨d, hunit, hadd⟩

end Insert

/-! ## A new room -/

/-- What a creation asks before it comes to the lifetime. -/
def roomGuards (db : Db) (communityId : Option CommunityId) (userId : UserId) (input : CreateRoom) :
    Except ServiceError String := do
  ensureMayCreate db communityId userId
  let name ← liftDomain (validateRoomName input.name)
  liftDomain (validateCap input.maxParticipants)
  .ok name

/-- Does the database take the row of a new room with this expiry? -/
def takesRoom (db : Db) (id : RoomId) (communityId : Option CommunityId) (userId : UserId)
    (expiresAt : Option Timestamp) : Bool :=
  expiresAt.all Timestamp.storable && !db.roomExists id && (communityId.all db.communityExists && db.userExists userId)

/-- Insert the row of a new room and give its participants their places. -/
def openRoom (userId : UserId) (input : CreateRoom) (candidate : Room) : SqlM Room := do
  let created ← insertRoom candidate
  seat created userId .owner
  Prog.forEach (invited userId input) fun pid => seat created pid .participant
  pure created

theorem create_eq (id : RoomId) (communityId : Option CommunityId) (userId : UserId) (input : CreateRoom) :
    create id communityId userId input =
      (Prog.query fun db => newRoom db id communityId userId input) >>= openRoom userId input := rfl

theorem memberContext_ne_panicked {db : Db} {communityId : CommunityId} {userId : UserId} :
    memberContext db communityId userId ≠ .error .panicked := by
  unfold memberContext
  repeat' split
  all_goals exact fun h => (by cases h)

theorem require_ne_panicked {context : MemberContext} {permission : Permission} :
    context.require permission ≠ .error .panicked := by
  unfold MemberContext.require
  split <;> exact fun h => (by cases h)

/-- A chain panics only where a part of it does. -/
theorem bind_ne_panicked {α β : Type} {x : Except ServiceError α} {f : α → Except ServiceError β} (hx : x ≠ .error .panicked)
    (hf : ∀ a, f a ≠ .error .panicked) : x >>= f ≠ .error .panicked := by
  intro h
  rcases Prog.bind_eq_error h with h | ⟨a, -, h⟩
  · exact hx h
  · exact hf a h

theorem ensureMayCreate_ne_panicked {db : Db} {communityId : Option CommunityId} {userId : UserId} :
    ensureMayCreate db communityId userId ≠ .error .panicked := by
  rcases communityId with _ | cid
  · exact fun h => (by cases h)
  · exact bind_ne_panicked memberContext_ne_panicked fun _ => require_ne_panicked

theorem liftDomain_ne_panicked {α : Type} {r : Except DomainError α} : liftDomain r ≠ .error .panicked := by
  intro h
  cases r <;> cases h

theorem roomGuards_ne_panicked {db : Db} {communityId : Option CommunityId} {userId : UserId} {input : CreateRoom} :
    roomGuards db communityId userId input ≠ .error .panicked := by
  unfold roomGuards
  refine bind_ne_panicked ensureMayCreate_ne_panicked fun _ => ?_
  refine bind_ne_panicked liftDomain_ne_panicked fun _ => ?_
  refine bind_ne_panicked liftDomain_ne_panicked fun _ h => ?_
  cases h

/-- A cap that was let through is positive. -/
theorem validateCap_positive {limit : Option Int} (h : liftDomain (validateCap limit) = .ok ()) :
    limit.all (fun m => decide (0 < m)) = true := by
  rcases limit with _ | m
  · rfl
  · unfold validateCap at h
    split at h
    · cases h
    · rename_i hrange
      simp only [Option.any_some, Bool.or_eq_true, decide_eq_true_eq, not_or, not_le] at hrange
      exact decide_eq_true hrange.1

/-- The row a creation past its guards asks for, by its expiry. -/
def candidateRoom (db : Db) (id : RoomId) (communityId : Option CommunityId) (userId : UserId) (input : CreateRoom)
    (name : String) (expiresAt : Option Timestamp) : Room where
  id := id
  communityId := communityId
  ownerId := some userId
  name := name
  topic := input.topic
  category := input.category.getD "random"
  roomType := input.roomType
  visibility := input.visibility.getD .public
  status := .active
  isAnonymous := input.isAnonymous
  position := input.position.getD 0
  maxParticipants := if input.roomType.isMedia then input.maxParticipants else none
  currentParticipants := 1
  startedAt := some db.now
  expiresAt := expiresAt
  endedAt := none
  createdAt := db.now
  updatedAt := db.now

/-- Past the guards, the lifetime alone decides what is inserted. -/
theorem newRoom_eq (db : Db) (id : RoomId) (communityId : Option CommunityId) (userId : UserId) (input : CreateRoom) :
    newRoom db id communityId userId input = (roomGuards db communityId userId input).bind fun name =>
      (expiryFrom Duration.minutes db.now
        (roomDuration communityId (input.category.getD "random") input.durationMinutes)).map
          (candidateRoom db id communityId userId input name) := by
  rw [← roomExpiry_eq]
  unfold newRoom roomGuards
  simp only [bind, Except.bind]
  rcases ensureMayCreate db communityId userId with e | _
  · rfl
  rcases liftDomain (validateRoomName input.name) with e | name
  · rfl
  rcases liftDomain (validateCap input.maxParticipants) with e | _
  · rfl
  rcases roomExpiry db.now (roomDuration communityId (input.category.getD "random") input.durationMinutes) with e | t
  · rfl
  · rfl

theorem insertable_candidateRoom {db : Db} {id : RoomId} {communityId : Option CommunityId} {userId : UserId}
    {input : CreateRoom} {name : String} (h : roomGuards db communityId userId input = .ok name)
    (expiresAt : Option Timestamp) :
    insertable db (candidateRoom db id communityId userId input name expiresAt) =
      takesRoom db id communityId userId expiresAt := by
  have hcap : liftDomain (validateCap input.maxParticipants) = .ok () := by
    unfold roomGuards at h
    obtain ⟨_, -, h⟩ := Prog.bind_eq_ok h
    obtain ⟨_, -, h⟩ := Prog.bind_eq_ok h
    obtain ⟨_, hcap, -⟩ := Prog.bind_eq_ok h
    exact hcap
  have hpositive : capPositive (candidateRoom db id communityId userId input name expiresAt) = true := by
    unfold capPositive candidateRoom
    by_cases hmedia : input.roomType.isMedia = true
    · rw [if_pos hmedia]
      exact validateCap_positive hcap
    · rw [if_neg hmedia]
      rfl
  unfold insertable takesRoom
  rw [hpositive, Bool.true_and]
  rfl

theorem insertRoom_error {room : Room} {db db' : Db} {e : ServiceError} (h : (insertRoom room).exec db = (.error e, db')) :
    e ≠ .panicked := by
  unfold insertRoom at h
  simp only [SqlM.exec_check_bind] at h
  repeat' split at h
  all_goals cases h
  all_goals exact fun hp => (by cases hp)

theorem inserts_room {db : Db} (id : RoomId) {communityId : Option CommunityId} {userId : UserId}
    {input : CreateRoom} {name : String} (h : roomGuards db communityId userId input = .ok name) :
    Inserts (·.expiresAt)
      (fun e => ((openRoom userId input (candidateRoom db id communityId userId input name e)).exec db).1)
      (takesRoom db id communityId userId) := by
  constructor
  · intro e htakes
    rcases exec_insertRoom (candidateRoom db id communityId userId input name e) db with ⟨-, hinsert⟩ | ⟨hnot, -⟩
    · obtain ⟨db₁, h₁, -⟩ := exec_seat { candidateRoom db id communityId userId input name e with
        createdAt := db.now, updatedAt := db.now } userId .owner _
      obtain ⟨db₂, h₂, -⟩ := exec_forEach_seat { candidateRoom db id communityId userId input name e with
        createdAt := db.now, updatedAt := db.now } (invited userId input) db₁
      unfold openRoom
      rw [Prog.exec_bind_ok hinsert, Prog.exec_bind_ok h₁, Prog.exec_bind_ok h₂]
      exact ⟨_, rfl, rfl⟩
    · rw [insertable_candidateRoom h, htakes] at hnot
      cases hnot
  · intro e htakes
    rcases exec_insertRoom (candidateRoom db id communityId userId input name e) db with ⟨hyes, -⟩ | ⟨-, error, hinsert⟩
    · rw [insertable_candidateRoom h, htakes] at hyes
      cases hyes
    · unfold openRoom
      rw [Prog.exec_bind_error hinsert]
      exact ⟨error, rfl, insertRoom_error hinsert⟩

/-- When a creation keeps the law: it is refused for another reason, or the lifetime it comes to is ahead. -/
def RoomAhead (db : Db) (id : RoomId) (communityId : Option CommunityId) (userId : UserId) (input : CreateRoom) : Prop :=
  (∃ e, roomGuards db communityId userId input = .error e) ∨
    AmountAhead Duration.minutes db.now (takesRoom db id communityId userId)
      (roomDuration communityId (input.category.getD "random") input.durationMinutes)

theorem create_endsAhead_iff (db : Db) (id : RoomId) (communityId : Option CommunityId) (userId : UserId)
    (input : CreateRoom) :
    EndsAhead db.now (·.expiresAt) ((create id communityId userId input).exec db).1 ↔
      RoomAhead db id communityId userId input := by
  unfold RoomAhead
  rw [create_eq, Prog.exec_query_bind, newRoom_eq]
  rcases hguards : roomGuards db communityId userId input with e | name
  · refine iff_of_true ⟨fun hp => ?_, fun a ha => (by cases ha)⟩ (.inl ⟨e, rfl⟩)
    cases hp
    exact roomGuards_ne_panicked hguards
  · have hinserts := (inserts_room id hguards).endsAhead_bind_iff db.now Duration.minutes
      (roomDuration communityId (input.category.getD "random") input.durationMinutes)
    rw [or_iff_right (fun h => (by obtain ⟨e, he⟩ := h; cases he)), ← hinserts]
    rcases expiryFrom Duration.minutes db.now
      (roomDuration communityId (input.category.getD "random") input.durationMinutes) with e | t
    · exact Iff.rfl
    · exact Iff.rfl

/-- A playground room's lifetime is clamped: the law holds unless the clock is at its end. -/
theorem roomAhead_of_playground {db : Db} {communityId : Option CommunityId} {input : CreateRoom}
    (hplayground : isPlayground communityId (input.category.getD "random") = true)
    (hclock : Timestamp.minUtc ≤ db.now ∧ db.now + maxPlaygroundTtlMinutes * 60 * 1000000 < Timestamp.endUtc)
    (id : RoomId) (userId : UserId) : RoomAhead db id communityId userId input := by
  refine .inr fun n hn => ?_
  unfold roomDuration at hn
  rw [if_pos hplayground] at hn
  obtain rfl := Option.some.inj hn
  obtain ⟨hlow, hhigh⟩ := hclock
  unfold maxPlaygroundTtlMinutes at hhigh ⊢
  generalize hm : max 1 (min (input.durationMinutes.getD defaultPlaygroundTtlMinutes) (24 * 60)) = m
  have hrange : 1 ≤ m ∧ m ≤ 24 * 60 := by omega
  have hpositive : (0 : Int) < m * 60 * 1000000 := by omega
  have hmost : m * 60 * 1000000 ≤ 24 * 60 * 60 * (1000000 : Int) := by omega
  refine ⟨m * 60 * 1000000, ?_, ?_, .inl hpositive⟩
  · have habs : |m * 60| ≤ 9223372036854775 := by
      rw [abs_of_nonneg (by omega)]
      omega
    exact if_pos habs
  · have hadd : Timestamp.add db.now (m * 60 * 1000000) = some (db.now + m * 60 * 1000000) := by
      refine if_pos ⟨?_, ?_⟩
      · exact le_trans hlow (le_add_of_nonneg_right hpositive.le)
      · exact lt_of_le_of_lt (Int.add_le_add_left hmost _) hhigh
    rw [hadd]
    rfl

/-! ## A new invite -/

/-- What minting asks before it comes to the expiry. -/
def inviteGuards (db : Db) (communityId : CommunityId) (userId : UserId) (maxUses : Option Int32) :
    Except ServiceError Unit := do
  let context ← memberContext db communityId userId
  context.require .manageMembers
  if maxUses.all fun max => decide (0 < max.toInt) then .ok ()
  else .error (.invalid "max_uses" "must be greater than zero")

/-- Does the database take an invite with this expiry under one of `left` codes, from the `n`-th draw on? -/
def takesInvite (db : Db) (communityId : CommunityId) (userId : UserId) (draws : Nat → Uuid) (left n : Nat)
    (expiresAt : Option Timestamp) : Bool :=
  expiresAt.all Timestamp.storable && (List.range' n left).any (fun i => !db.communityInvites.contains (generateCode (draws i))) &&
    (db.communityExists communityId && db.userExists userId)

theorem inviteGuards_ne_panicked {db : Db} {communityId : CommunityId} {userId : UserId} {maxUses : Option Int32} :
    inviteGuards db communityId userId maxUses ≠ .error .panicked := by
  unfold inviteGuards
  refine bind_ne_panicked memberContext_ne_panicked fun _ => ?_
  refine bind_ne_panicked require_ne_panicked fun _ => ?_
  split <;> exact fun h => (by cases h)

theorem createInvite_eq (db : Db) (communityId : CommunityId) (userId : UserId) (hours : Option Int)
    (maxUses : Option Int32) (draws : Nat → Uuid) :
    ((createInvite communityId userId hours maxUses draws).exec db).1 =
      (inviteGuards db communityId userId maxUses).bind fun _ =>
        (expiryFrom Duration.hours db.now hours).bind fun expiresAt =>
          ((mintInvite communityId userId expiresAt maxUses draws codeAttempts 0).exec db).1 := by
  rw [← inviteExpiry_eq]
  unfold createInvite inviteGuards
  rw [Prog.exec_query_bind]
  rcases memberContext db communityId userId with e | context
  · rfl
  simp only [Prog.exec_lift_bind, Prog.exec_ensure_bind, Prog.exec_read_bind]
  simp only [bind, Except.bind]
  rcases context.require .manageMembers with e | _
  · rfl
  rcases hmax : maxUses.all fun max => decide (0 < max.toInt)
  · simp only [hmax, Bool.false_eq_true, if_false]
  simp only [hmax, if_true]
  rcases inviteExpiry db.now hours with e | t
  · rfl
  · rfl

/-- One draw: the code is taken, or the row goes in, or the database refuses it for good. -/
theorem insertInvite_cases {maxUses : Option Int32} (hmax : (maxUses.all fun max => decide (0 < max.toInt)) = true)
    (db : Db) (communityId : CommunityId) (userId : UserId) (code : String) (expiresAt : Option Timestamp) :
    (expiresAt.all Timestamp.storable = true ∧ db.communityInvites.contains code = false ∧
      (db.communityExists communityId && db.userExists userId) = true ∧
      ∃ invite db', (insertInvite code communityId userId expiresAt maxUses).exec db = (.ok invite, db') ∧
        invite.expiresAt = expiresAt) ∨
    (expiresAt.all Timestamp.storable = true ∧ db.communityInvites.contains code = true ∧
      (insertInvite code communityId userId expiresAt maxUses).exec db =
        (.error (.repository (.conflict "community_invites_pkey")), db)) ∨
    ((expiresAt.all Timestamp.storable = false ∨ (db.communityExists communityId && db.userExists userId) = false) ∧
      ∃ e, (insertInvite code communityId userId expiresAt maxUses).exec db = (.error (.repository e), db) ∧
        isConflict (.repository e) = false) := by
  unfold insertInvite
  simp only [SqlM.exec_check_bind, hmax, Bool.and_true]
  rcases hstorable : expiresAt.all Timestamp.storable
  · exact .inr (.inr ⟨.inl rfl, _, rfl, rfl⟩)
  rcases hcode : db.communityInvites.contains code
  · rcases hfk : db.communityExists communityId && db.userExists userId
    · exact .inr (.inr ⟨.inr rfl, _, rfl, rfl⟩)
    · exact .inl ⟨rfl, rfl, rfl, _, _, rfl, rfl⟩
  · exact .inr (.inl ⟨rfl, rfl, rfl⟩)

theorem mintInvite_cases {maxUses : Option Int32} (hmax : (maxUses.all fun max => decide (0 < max.toInt)) = true)
    (db : Db) (communityId : CommunityId) (userId : UserId) (draws : Nat → Uuid) (left n : Nat)
    (expiresAt : Option Timestamp) :
    (takesInvite db communityId userId draws left n expiresAt = true ∧
      ∃ invite db', (mintInvite communityId userId expiresAt maxUses draws left n).exec db = (.ok invite, db') ∧
        invite.expiresAt = expiresAt) ∨
    (takesInvite db communityId userId draws left n expiresAt = false ∧
      ∃ e, (mintInvite communityId userId expiresAt maxUses draws left n).exec db = (.error e, db) ∧ e ≠ .panicked) := by
  induction left generalizing n with
  | zero => exact .inr ⟨by simp [takesInvite], _, rfl, fun h => (by cases h)⟩
  | succ left ih =>
    have htakes : takesInvite db communityId userId draws (left + 1) n expiresAt =
        (expiresAt.all Timestamp.storable && (!db.communityInvites.contains (generateCode (draws n)) ||
          (List.range' (n + 1) left).any fun i => !db.communityInvites.contains (generateCode (draws i))) &&
            (db.communityExists communityId && db.userExists userId)) := rfl
    unfold mintInvite
    rw [Prog.exec_orElse, htakes]
    rcases insertInvite_cases hmax db communityId userId (generateCode (draws n)) expiresAt with
      ⟨hstorable, hfree, hfk, invite, db', hinsert, hexpiry⟩ | ⟨hstorable, hcode, hinsert⟩ | ⟨hno, e, hinsert, hconflict⟩
    · rw [hinsert, hstorable, hfree, hfk]
      exact .inl ⟨by simp, invite, db', rfl, hexpiry⟩
    · rw [hinsert, hcode, Bool.not_true, Bool.false_or]
      exact ih (n + 1)
    · rw [hinsert]
      simp only [hconflict, Bool.false_eq_true, if_false]
      refine .inr ⟨?_, _, rfl, fun h => (by cases h)⟩
      rcases hno with hno | hno <;> simp [hno]

theorem inserts_invite {db : Db} {communityId : CommunityId} {userId : UserId} {maxUses : Option Int32}
    (hmax : (maxUses.all fun max => decide (0 < max.toInt)) = true) (draws : Nat → Uuid) :
    Inserts (·.expiresAt)
      (fun e => ((mintInvite communityId userId e maxUses draws codeAttempts 0).exec db).1)
      (takesInvite db communityId userId draws codeAttempts 0) := by
  constructor
  · intro e htakes
    rcases mintInvite_cases hmax db communityId userId draws codeAttempts 0 e with
      ⟨-, invite, db', hmint, hexpiry⟩ | ⟨hnot, -⟩
    · exact ⟨invite, congrArg Prod.fst hmint, hexpiry⟩
    · rw [htakes] at hnot
      cases hnot
  · intro e htakes
    rcases mintInvite_cases hmax db communityId userId draws codeAttempts 0 e with ⟨hyes, -⟩ | ⟨-, error, hmint, hne⟩
    · rw [htakes] at hyes
      cases hyes
    · exact ⟨error, congrArg Prod.fst hmint, hne⟩

theorem inviteGuards_max {db : Db} {communityId : CommunityId} {userId : UserId} {maxUses : Option Int32}
    (h : inviteGuards db communityId userId maxUses = .ok ()) :
    (maxUses.all fun max => decide (0 < max.toInt)) = true := by
  unfold inviteGuards at h
  obtain ⟨_, -, h⟩ := Prog.bind_eq_ok h
  obtain ⟨_, -, h⟩ := Prog.bind_eq_ok h
  split at h
  · assumption
  · cases h

/-- When minting keeps the law: it is refused for another reason, or the number of hours is ahead. -/
def InviteAhead (db : Db) (communityId : CommunityId) (userId : UserId) (hours : Option Int) (maxUses : Option Int32)
    (draws : Nat → Uuid) : Prop :=
  (∃ e, inviteGuards db communityId userId maxUses = .error e) ∨
    AmountAhead Duration.hours db.now (takesInvite db communityId userId draws codeAttempts 0) hours

theorem createInvite_endsAhead_iff (db : Db) (communityId : CommunityId) (userId : UserId) (hours : Option Int)
    (maxUses : Option Int32) (draws : Nat → Uuid) :
    EndsAhead db.now (·.expiresAt) ((createInvite communityId userId hours maxUses draws).exec db).1 ↔
      InviteAhead db communityId userId hours maxUses draws := by
  unfold InviteAhead
  rw [createInvite_eq]
  rcases hguards : inviteGuards db communityId userId maxUses with e | _
  · refine iff_of_true ⟨fun hp => ?_, fun a ha => (by cases ha)⟩ (.inl ⟨e, rfl⟩)
    cases hp
    exact inviteGuards_ne_panicked hguards
  · rw [or_iff_right (fun h => (by obtain ⟨e, he⟩ := h; cases he))]
    exact (inserts_invite (inviteGuards_max hguards) draws).endsAhead_bind_iff db.now Duration.hours hours

/-! ## Both requests -/

/-- A creation and a minting neither panic nor give an expiry that has passed exactly if the number of the request,
brought into range where that is done, is in range and ahead, or the request is refused anyway. -/
theorem expiries_iff (db : Db) :
    (∀ id communityId userId input, EndsAhead db.now (·.expiresAt) ((create id communityId userId input).exec db).1 ↔
      RoomAhead db id communityId userId input) ∧
    ∀ communityId userId hours maxUses draws,
      EndsAhead db.now (·.expiresAt) ((createInvite communityId userId hours maxUses draws).exec db).1 ↔
        InviteAhead db communityId userId hours maxUses draws :=
  ⟨create_endsAhead_iff db, createInvite_endsAhead_iff db⟩

/-- One account and the community it owns, at the epoch. -/
def owned : Db :=
  { Db.empty 0 with
    users := Table.empty.insert { id := ⟨1⟩, handle := "ana", email := "ana@genzh.test", isActive := true }
    communities := Table.empty.insert { id := ⟨7⟩, ownerId := ⟨1⟩ } }

/-- A channel of the owner's with this lifetime. -/
def channelFor (minutes : Int) : Except ServiceError Room :=
  ((create ⟨10⟩ (some ⟨7⟩) ⟨1⟩ { name := "den", roomType := .text, durationMinutes := some minutes }).exec owned).1

/-- An invite of the owner's with this lifetime. -/
def inviteFor (hours : Int) : Except ServiceError Invite :=
  ((createInvite ⟨7⟩ ⟨1⟩ (some hours) none fun _ => 0).exec owned).1

theorem not_endsAhead_of_past {α : Type} {expiry : α → Option Timestamp} {now e : Timestamp} {result : Except ServiceError α}
    (h : result.toOption.bind expiry = some e) (hpast : e ≤ now) : ¬EndsAhead now expiry result := by
  obtain ⟨a, ha, hexpiry⟩ := Option.bind_eq_some_iff.1 h
  rcases result with error | b
  · cases ha
  · cases ha
    exact fun hahead => not_lt.2 hpast (hahead.2 a rfl e hexpiry)

/-- The largest `i64` panics in either request, and a negative number gives an expiry before now. -/
theorem expiries_not_ahead :
    (channelFor 9223372036854775807 = .error .panicked ∧ ¬EndsAhead owned.now (·.expiresAt) (channelFor (-5))) ∧
      inviteFor 9223372036854775807 = .error .panicked ∧ ¬EndsAhead owned.now (·.expiresAt) (inviteFor (-5)) := by
  refine ⟨⟨by decide +kernel, ?_⟩, by decide +kernel, ?_⟩
  · have hpast : (channelFor (-5)).toOption.bind (·.expiresAt) = some (-5 * 60 * 1000000) := by decide +kernel
    exact not_endsAhead_of_past hpast (by decide)
  · have hpast : (inviteFor (-5)).toOption.bind (·.expiresAt) = some (-5 * 3600 * 1000000) := by decide +kernel
    exact not_endsAhead_of_past hpast (by decide)

end Genzh.Api
