/-
Two users open their conversation at the same time, any number of times and from both sides. Each call
looks for the conversation and, if there is none, inserts a room and gives the two of them a place in it,
all in statements of their own; what makes the room a conversation of the two is the last of them. Where
every lookup finds no other call on the way from an empty lookup to its last statement, there is at most
one conversation, and every room returned is it.
-/
import Genzh.Room.Blocks
import Genzh.Room.Directs
import Genzh.Lib.Interleaving

namespace Genzh.Room

open Genzh.Lib Genzh.Domain Genzh.Infrastructure Genzh.Community Genzh.Social

/-- One call: which of the two makes it, how the other is shown, and the identifier it draws. -/
structure Opening where
  id : RoomId
  bySecond : Bool
  targetName : String
  targetHandle : String
  deriving DecidableEq, Repr

/-- How far a call has come. -/
inductive OpenCall where
  | waiting
  /-- No block stands in the way; the lookup is next. -/
  | reaching
  /-- Nothing was found; the room is inserted next. -/
  | creating (candidate : Room)
  /-- The room is there; its creator is given a place next. -/
  | seating (created : Room)
  /-- The creator has a place; the other is given one next. -/
  | inviting (created : Room)
  | returned (room : Room) (new : Bool)
  | failed (e : ServiceError)
  deriving DecidableEq

namespace OpenCall

/-- Is the call between an empty lookup and its last statement? -/
def isOpening : OpenCall → Bool
  | creating _ | seating _ | inviting _ => true
  | _ => false

/-- What a finished call has returned. -/
def outcome : OpenCall → Option (Except ServiceError (Room × Bool))
  | returned room new => some (.ok (room, new))
  | failed e => some (.error e)
  | _ => none

end OpenCall

namespace Opening

variable (o : Opening) (a b : UserId)

def caller : UserId := if o.bySecond then b else a

def peer : UserId := if o.bySecond then a else b

end Opening

section Advance

variable (a b : UserId)

/-- The next statement of a call, and what it computes up to the one after. A transaction is seen by the
others at its commit, so giving somebody a place is one step. -/
def advance (o : Opening) : OpenCall → Db → OpenCall × Db
  | .waiting, db =>
    match ensureCanReach db (o.caller a b) (o.peer a b) with
    | .error e => (.failed e, db)
    | .ok _ => (.reaching, db)
  | .reaching, db =>
    match findDirectRoom db (o.caller a b) (o.peer a b) with
    | some room => (.returned room false, db)
    | none =>
      match newRoom db o.id none (o.caller a b) (directInput (o.peer a b) o.targetName o.targetHandle) with
      | .error e => (.failed e, db)
      | .ok candidate => (.creating candidate, db)
  | .creating candidate, db =>
    match (insertRoom candidate).exec db with
    | (.error e, db') => (.failed e, db')
    | (.ok created, db') => (.seating created, db')
  | .seating created, db => (.inviting created, ((seat created (o.caller a b) .owner).exec db).2)
  | .inviting created, db => (.returned created true, ((seat created (o.peer a b) .participant).exec db).2)
  | .returned room new, db => (.returned room new, db)
  | .failed e, db => (.failed e, db)

variable {I : Type} [DecidableEq I]

/-- The two users' calls on the database. -/
abbrev Openings (I : Type) := System Db I OpenCall

def openStep (openings : I → Opening) : Openings I → Event I Timestamp → Openings I :=
  System.step (fun i => advance a b (openings i)) Db.tick

end Advance

theorem caller_ne_peer {a b : UserId} (hab : a ≠ b) (o : Opening) : o.caller a b ≠ o.peer a b := by
  unfold Opening.caller Opening.peer
  cases o.bySecond
  · exact hab
  · exact Ne.symm hab

/-- By itself, a call is over after five statements, with the outcome and the database of `openDirect`. -/
theorem openDirect_alone {I : Type} (i : I) (a b : UserId) (hab : a ≠ b) (o : Opening) (db : Db) :
    (System.alone (fun _ => advance a b o) i 5 .waiting db).1.outcome =
        some ((openDirect o.id (o.caller a b) (o.peer a b) o.targetName o.targetHandle).exec db).1 ∧
      (System.alone (fun _ => advance a b o) i 5 .waiting db).2 =
        ((openDirect o.id (o.caller a b) (o.peer a b) o.targetName o.targetHandle).exec db).2 := by
  have hne := Ne.symm (caller_ne_peer hab o)
  have hinv : invited (o.caller a b) (directInput (o.peer a b) o.targetName o.targetHandle) = [o.peer a b] := by
    simp [invited, directInput, hne]
  unfold openDirect create
  rw [Prog.exec_query_bind, hinv]
  simp only [System.alone, Function.iterate_succ, Function.iterate_zero, Function.comp_apply, id, advance]
  rcases ensureCanReach db (o.caller a b) (o.peer a b) with e | _
  · exact ⟨rfl, rfl⟩
  · simp only [Prog.exec_read_bind]
    rcases findDirectRoom db (o.caller a b) (o.peer a b) with _ | room
    · simp only [Prog.exec_bind, Prog.exec_query]
      rcases newRoom db o.id none (o.caller a b) (directInput (o.peer a b) o.targetName o.targetHandle) with e | candidate
      · exact ⟨rfl, rfl⟩
      · simp only
        rcases (insertRoom candidate).exec db with ⟨e | created, db'⟩
        · exact ⟨rfl, rfl⟩
        · obtain ⟨db₁, h₁, -⟩ := exec_seat created (o.caller a b) .owner db'
          obtain ⟨db₂, h₂, -⟩ := exec_seat created (o.peer a b) .participant db₁
          simp only [Prog.forEach, Prog.exec_bind, h₁, h₂]
          exact ⟨rfl, rfl⟩
    · exact ⟨rfl, rfl⟩

/-! ## What holds between the statements -/

section Invariant

variable {a b : UserId}

/-- The two take part in no conversation together. -/
def Apart (db : Db) (a b : UserId) : Prop := ∀ d, together db d a b = false

/-- What the calls rely on: the two are different accounts, every participant has a room, and there is at most one
conversation of the two. -/
structure Ready (a b : UserId) (db : Db) : Prop where
  distinct : a ≠ b
  first : db.userExists a = true
  second : db.userExists b = true
  noStray : NoStray db
  unique : ∀ d d', together db d a b = true → together db d' a b = true → d = d'

/-- A room that can become a conversation of two. -/
def ForTwo (room : Room) : Prop := room.category = directCategory ∧ room.communityId = none ∧ room.isAnonymous = false

/-- What a call knows: on its way from an empty lookup there is no conversation, and the room it makes becomes one
with its last statement; the room it has returned is one. -/
def Making (a b : UserId) (o : Opening) : OpenCall → Db → Prop
  | .creating candidate, db => ForTwo candidate ∧ Apart db a b
  | .seating created, db =>
    created.isAnonymous = false ∧ conversation db created.id = true ∧ (∀ v, db.participates created.id v = false) ∧
      Apart db a b
  | .inviting created, db =>
    created.isAnonymous = false ∧ conversation db created.id = true ∧
      db.participates created.id (o.caller a b) = true ∧ Apart db a b
  | .returned room _, db => together db room.id a b = true
  | _, _ => True

theorem caller_peer (o : Opening) (db : Db) (d : RoomId) : together db d (o.caller a b) (o.peer a b) = together db d a b := by
  unfold Opening.caller Opening.peer
  cases o.bySecond
  · rfl
  · exact together_comm db d b a

theorem findDirectRoom_some {db : Db} {u v : UserId} {room : Room} (h : findDirectRoom db u v = some room) :
    together db room.id u v = true := by
  unfold findDirectRoom at h
  obtain ⟨row, hrow, rfl⟩ := Option.map_eq_some_iff.1 h
  obtain ⟨hm, hp⟩ := Table.selectFirst_mem hrow
  rw [Bool.and_eq_true, Bool.and_eq_true] at hp
  exact together_iff.2 ⟨⟨row, Table.mem_iff_find.1 hm, hp.1.1⟩, hp.1.2, hp.2⟩

theorem findDirectRoom_none {db : Db} {u v : UserId} (h : findDirectRoom db u v = none) : Apart db u v := by
  unfold findDirectRoom at h
  rw [Option.map_eq_none_iff, Table.selectFirst_eq_none] at h
  intro d
  rw [Bool.eq_false_iff]
  intro htog
  obtain ⟨⟨row, hrow, hconv⟩, hu, hv⟩ := together_iff.1 htog
  obtain ⟨hm, hid⟩ := Table.find_eq_some.1 hrow
  have := h row hm
  rw [show row.id = d from hid, hconv, hu, hv] at this
  cases this

theorem insertable_fresh {db : Db} {room : Room} (hi : insertable db room = true) : db.roomExists room.id = false := by
  simp only [insertable, Bool.and_eq_true, Bool.not_eq_true'] at hi
  exact hi.1.2

/-- Nobody is in a room that is not there. -/
theorem nobody_of_fresh {db : Db} (hf : NoStray db) {r : RoomId} (hfresh : db.roomExists r = false) (v : UserId) :
    db.participates r v = false := by
  have hnone : db.room r = none := Table.contains_eq_false.1 hfresh
  rw [Bool.eq_false_iff]
  intro hp
  obtain ⟨row, hrow⟩ := hf r v hp
  rw [hnone] at hrow
  cases hrow

/-- A room that has just been inserted brings nobody together. -/
theorem together_withRoom {db : Db} {room : Room} (hf : NoStray db) (hi : insertable db room = true) (d : RoomId) (u v : UserId) :
    together (withRoom room db) d u v = together db d u v := by
  have hfresh := insertable_fresh hi
  by_cases hd : room.id = d
  · subst hd
    unfold together
    rw [show (withRoom room db).participates room.id u = db.participates room.id u from rfl,
      nobody_of_fresh hf hfresh u]
    simp
  · unfold together conversation
    rw [room_withRoom hfresh, if_neg hd]
    rfl

theorem exec_seat_plain {room : Room} (h : room.isAnonymous = false) (u : UserId) (role : RoomParticipantRole) (db : Db) :
    (seat room u role).exec db = (.ok (), seated room.id u role db) := by
  unfold seat
  rw [Prog.exec_attempt_bind, exec_joinRoom, h]
  rfl

theorem conversation_seated (db : Db) (r d : RoomId) (u : UserId) (role : RoomParticipantRole) :
    conversation (seated r u role db) d = conversation db d := by
  unfold conversation
  rw [room_seated]
  split
  · cases db.room d <;> rfl
  · rfl

theorem together_seated (db : Db) (r d : RoomId) (u v w : UserId) (role : RoomParticipantRole) :
    together (seated r u role db) d v w =
      (conversation db d && ((db.participates d v || decide (seatable db r u = true ∧ r = d ∧ u = v)) &&
        (db.participates d w || decide (seatable db r u = true ∧ r = d ∧ u = w)))) := by
  unfold together
  rw [conversation_seated, participates_seated, participates_seated]

/-- Whoever is together stays so when somebody is given a place. -/
theorem together_seated_of {db : Db} {r d : RoomId} {u v w : UserId} {role : RoomParticipantRole}
    (h : together db d v w = true) : together (seated r u role db) d v w = true := by
  unfold together at h
  rw [Bool.and_eq_true, Bool.and_eq_true] at h
  rw [together_seated, h.1, h.2.1, h.2.2]
  rfl

/-- Somebody who is given a place comes together with nobody outside that room. -/
theorem together_seated_of_ne {db : Db} {r d : RoomId} {u v w : UserId} {role : RoomParticipantRole} (h : r ≠ d) :
    together (seated r u role db) d v w = together db d v w := by
  rw [together_seated]
  simp [h, together]

/-! ## The statements -/

/-- What the statements of a call do: from its state to its next one, and to the database. -/
inductive OpenStatement (a b : UserId) (o : Opening) (db : Db) : OpenCall → OpenCall → Db → Prop where
  | reach : OpenStatement a b o db .waiting .reaching db
  | find {room : Room} (h : findDirectRoom db (o.caller a b) (o.peer a b) = some room) :
      OpenStatement a b o db .reaching (.returned room false) db
  | miss {candidate : Room} (h : findDirectRoom db (o.caller a b) (o.peer a b) = none) (hfor : ForTwo candidate) :
      OpenStatement a b o db .reaching (.creating candidate) db
  | insert {candidate : Room} (hi : insertable db candidate = true) :
      OpenStatement a b o db (.creating candidate) (.seating { candidate with createdAt := db.now, updatedAt := db.now })
        (withRoom candidate db)
  | seat {created : Room} : OpenStatement a b o db (.seating created) (.inviting created)
      ((Room.seat created (o.caller a b) .owner).exec db).2
  | invite {created : Room} : OpenStatement a b o db (.inviting created) (.returned created true)
      ((Room.seat created (o.peer a b) .participant).exec db).2
  | fail {c : OpenCall} {e : ServiceError} : OpenStatement a b o db c (.failed e) db
  | rest {c : OpenCall} : OpenStatement a b o db c c db

theorem newRoom_forTwo {db : Db} {id : RoomId} {u v : UserId} {name handle : String} {candidate : Room}
    (h : newRoom db id none u (directInput v name handle) = .ok candidate) : ForTwo candidate := by
  obtain ⟨name, -, expiresAt, -, rfl⟩ := newRoom_ok h
  exact ⟨rfl, rfl, rfl⟩

/-- The next step of a call is one of the statements. -/
theorem advance_openStatement (a b : UserId) (o : Opening) (c : OpenCall) (db : Db) :
    OpenStatement a b o db c (advance a b o c db).1 (advance a b o c db).2 := by
  cases c with
  | waiting =>
    simp only [advance]
    rcases ensureCanReach db (o.caller a b) (o.peer a b) with e | _
    · exact .fail
    · exact .reach
  | reaching =>
    simp only [advance]
    rcases hf : findDirectRoom db (o.caller a b) (o.peer a b) with _ | room
    · simp only
      rcases hn : newRoom db o.id none (o.caller a b) (directInput (o.peer a b) o.targetName o.targetHandle) with e | candidate
      · exact .fail
      · exact .miss hf (newRoom_forTwo hn)
    · exact .find hf
  | creating candidate =>
    simp only [advance]
    rcases exec_insertRoom candidate db with ⟨hi, h⟩ | ⟨-, e, h⟩
    · rw [h]
      exact .insert hi
    · rw [h]
      exact .fail
  | seating created => exact .seat
  | inviting created => exact .invite
  | returned | failed => exact .rest

/-! ## One step -/

theorem participant_exists {db : Db} (hr : Ready a b db) (o : Opening) :
    db.userExists (o.caller a b) = true ∧ db.userExists (o.peer a b) = true := by
  unfold Opening.caller Opening.peer
  cases o.bySecond
  · exact ⟨hr.first, hr.second⟩
  · exact ⟨hr.second, hr.first⟩

theorem seatable_of {db : Db} {r : RoomId} {u : UserId} (hconv : conversation db r = true) (hu : db.userExists u = true) :
    seatable db r u = true := by
  obtain ⟨row, hrow, -⟩ := (Option.any_eq_true _ _).1 hconv
  have hexists : db.roomExists r = true := Table.contains_iff.2 ⟨row, hrow⟩
  unfold seatable
  rw [hexists, hu]
  simp

theorem ready_seated {db : Db} (hr : Ready a b db) (r : RoomId) (u : UserId) (role : RoomParticipantRole)
    (hunique : ∀ d d', together (seated r u role db) d a b = true → together (seated r u role db) d' a b = true → d = d') :
    Ready a b (seated r u role db) where
  distinct := hr.distinct
  first := by rw [userExists_seated, hr.first]
  second := by rw [userExists_seated, hr.second]
  noStray := noStray_seated hr.noStray r u role
  unique := hunique

/-- A statement keeps what all the calls rely on, and what the call that makes it knows. -/
theorem OpenStatement.keeps {o : Opening} {db db' : Db} {c c' : OpenCall} (h : OpenStatement a b o db c c' db')
    (hr : Ready a b db) (hm : Making a b o c db) : Ready a b db' ∧ Making a b o c' db' := by
  cases h with
  | reach => exact ⟨hr, trivial⟩
  | find hf =>
    have htog := findDirectRoom_some hf
    rw [caller_peer] at htog
    exact ⟨hr, htog⟩
  | miss hf hfor =>
    refine ⟨hr, hfor, fun d => ?_⟩
    rw [← caller_peer o db d]
    exact findDirectRoom_none hf d
  | @insert candidate hi =>
    obtain ⟨⟨hcat, hcomm, hanon⟩, hapart⟩ := hm
    have hfresh := insertable_fresh hi
    have htog := fun d => together_withRoom hr.noStray hi d a b
    refine ⟨⟨hr.distinct, hr.first, hr.second, fun r u hp => ?_, fun d d' h h' => ?_⟩, hanon, ?_, fun v => ?_, fun d => ?_⟩
    · obtain ⟨row, hrow⟩ := hr.noStray r u hp
      rw [room_withRoom hfresh]
      split
      · exact ⟨_, rfl⟩
      · exact ⟨row, hrow⟩
    · rw [htog] at h h'
      exact hr.unique d d' h h'
    · change ((withRoom candidate db).room candidate.id).any isConversation = true
      rw [room_withRoom hfresh, if_pos rfl, Option.any_some]
      exact isConversation_iff.2 ⟨hcat, hcomm⟩
    · exact nobody_of_fresh hr.noStray hfresh v
    · rw [htog]
      exact hapart d
  | @seat created =>
    obtain ⟨hanon, hconv, hnobody, hapart⟩ := hm
    rw [exec_seat_plain hanon]
    have hseat := seatable_of hconv (participant_exists hr o).1
    -- the other is not there yet, so the creator is with nobody
    have hstill : Apart (seated created.id (o.caller a b) .owner db) a b := by
      intro d
      by_cases hd : created.id = d
      · subst hd
        rw [← caller_peer o, together_seated, hnobody, hnobody]
        simp [caller_ne_peer hr.distinct o]
      · rw [together_seated_of_ne hd]
        exact hapart d
    refine ⟨ready_seated hr _ _ _ fun d d' h => ?_, hanon, ?_, ?_, hstill⟩
    · rw [hstill d] at h
      cases h
    · rw [conversation_seated]
      exact hconv
    · rw [participates_seated]
      simp [hseat]
  | @invite created =>
    obtain ⟨hanon, hconv, hthere, hapart⟩ := hm
    rw [exec_seat_plain hanon]
    have hseat := seatable_of hconv (participant_exists hr o).2
    have hnew : together (seated created.id (o.peer a b) .participant db) created.id a b = true := by
      rw [← caller_peer o, together_seated, hconv, hthere]
      simp [hseat]
    have honly : ∀ d, together (seated created.id (o.peer a b) .participant db) d a b = true → created.id = d := by
      intro d h
      by_contra hd
      rw [together_seated_of_ne hd, hapart d] at h
      cases h
    exact ⟨ready_seated hr _ _ _ fun d d' h h' => (honly d h).symm.trans (honly d' h'), hnew⟩
  | fail => exact ⟨hr, trivial⟩
  | rest => exact ⟨hr, hm⟩

/-- A call that is not on its way to a new room knows nothing that more togetherness could break. -/
theorem Making.of_mono {o : Opening} {c : OpenCall} {db db' : Db} (hc : c.isOpening = false) (hm : Making a b o c db)
    (hmono : ∀ d, together db d a b = true → together db' d a b = true) : Making a b o c db' := by
  cases c with
  | creating | seating | inviting => cases hc
  | returned room new => exact hmono room.id hm
  | _ => trivial

/-- A statement leaves what another call knows, unless both are on their way to a new room. -/
theorem OpenStatement.spares {o o₂ : Opening} {db db' : Db} {c c' c₂ : OpenCall} (h : OpenStatement a b o db c c' db')
    (hr : Ready a b db) (hm : Making a b o c db) (hm₂ : Making a b o₂ c₂ db)
    (hone : c.isOpening = true → c₂.isOpening = false) : Making a b o₂ c₂ db' := by
  cases h with
  | @insert candidate hi =>
    refine hm₂.of_mono (hone rfl) fun d hd => ?_
    rw [together_withRoom hr.noStray hi]
    exact hd
  | @seat created =>
    rw [exec_seat_plain hm.1]
    exact hm₂.of_mono (hone rfl) fun d hd => together_seated_of hd
  | @invite created =>
    rw [exec_seat_plain hm.1]
    exact hm₂.of_mono (hone rfl) fun d hd => together_seated_of hd
  | _ => exact hm₂

/-- A call sets out for a new room by an empty lookup, and by nothing else. -/
theorem OpenStatement.opening {o : Opening} {db db' : Db} {c c' : OpenCall} (h : OpenStatement a b o db c c' db')
    (hc' : c'.isOpening = true) : c.isOpening = true ∨ c = .reaching := by
  cases h with
  | miss => exact .inr rfl
  | insert => exact .inl rfl
  | seat => exact .inl rfl
  | rest => exact .inl hc'
  | _ => cases hc'

theorem Ready.tick {db : Db} (hr : Ready a b db) (now : Timestamp) : Ready a b (Db.tick now db) :=
  ⟨hr.distinct, hr.first, hr.second, hr.noStray, hr.unique⟩

theorem Making.tick {o : Opening} {c : OpenCall} {db : Db} (hm : Making a b o c db) (now : Timestamp) :
    Making a b o c (Db.tick now db) := by
  cases c <;> exact hm

end Invariant

/-! ## Runs -/

section Runs

variable {I : Type} [DecidableEq I] {a b : UserId}

/-- There is at most one conversation of the two, and every room returned is it. -/
structure OneConversation (a b : UserId) (σ : Openings I) : Prop where
  unique : ∀ d d', together σ.store d a b = true → together σ.store d' a b = true → d = d'
  returned : ∀ i room new, σ.calls i = .returned room new → together σ.store room.id a b = true

/-- A call that is about to look the conversation up finds no other on its way to a new room. -/
def LooksUpAlone (σ : Openings I) : Event I Timestamp → Prop
  | .turn i => σ.calls i = .reaching → ∀ j, (σ.calls j).isOpening = false
  | .outside _ => True

instance [Fintype I] : ∀ (σ : Openings I) (e : Event I Timestamp), Decidable (LooksUpAlone σ e)
  | σ, .turn i => inferInstanceAs (Decidable (σ.calls i = .reaching → ∀ j, (σ.calls j).isOpening = false))
  | _, .outside _ => .isTrue trivial

/-- The calls of these openings, none of which has begun. -/
def beginOpening (db : Db) : Openings I := { store := db, calls := fun _ => .waiting }

/-- What all the calls rely on, what each of them knows, and at most one of them on its way to a new room. -/
def OneMaking (a b : UserId) (openings : I → Opening) : Openings I → Prop :=
  System.Outline (Ready a b) (fun i c db => Making a b (openings i) c db) fun _ c => c.isOpening = true

theorem OneMaking.step {openings : I → Opening} {σ : Openings I} (h : OneMaking a b openings σ) {e : Event I Timestamp}
    (halone : LooksUpAlone σ e) : OneMaking a b openings (openStep a b openings σ e) := by
  cases e with
  | outside now => exact h.elsewhere (h.shared.tick now) fun i => (h.own i).tick now
  | turn i =>
    have hs := advance_openStatement a b (openings i) (σ.calls i) σ.store
    obtain ⟨hready, hmaking⟩ := hs.keeps h.shared (h.own i)
    refine System.Outline.turn h hready hmaking (fun j hj => ?_) fun hx => ?_
    · refine hs.spares h.shared (h.own i) (h.own j) fun hi => ?_
      rw [Bool.eq_false_iff]
      exact fun hjo => hj (h.exclusive j i hjo hi)
    · rcases hs.opening hx with hi | hi
      · exact .inl hi
      · refine .inr fun j _ hjo => ?_
        rw [halone hi j] at hjo
        cases hjo

omit [DecidableEq I] in
theorem OneMaking.oneConversation {openings : I → Opening} {σ : Openings I} (h : OneMaking a b openings σ) :
    OneConversation a b σ where
  unique := h.shared.unique
  returned := by
    intro i room new hi
    have := h.own i
    rw [hi] at this
    exact this

/-- Over every schedule of any number of openings from both sides: where every lookup finds no other call on its
way to a new room, there is at most one conversation of the two in every state, and every room returned by then
is it. -/
theorem one_conversation (openings : I → Opening) (db : Db) (es : List (Event I Timestamp)) (hr : Ready a b db)
    (halone : Along (openStep a b openings) LooksUpAlone (beginOpening db) es) :
    Always (openStep a b openings) (OneConversation a b) (beginOpening db) es := by
  have h0 : OneMaking a b openings (beginOpening db) := by
    refine ⟨hr, fun _ => trivial, fun i j hi => ?_⟩
    cases hi
  exact (always_of_along (fun _ _ h hl => h.step hl) h0 halone).mono fun _ h => h.oneConversation

end Runs

/-- Two accounts. -/
def twoAccounts : Db :=
  { Db.empty 0 with users := ((Table.empty).insert (account ⟨1⟩ "ana")).insert (account ⟨2⟩ "ben") }

theorem ready_twoAccounts : Ready ⟨1⟩ ⟨2⟩ twoAccounts where
  distinct := by decide
  first := by decide +kernel
  second := by decide +kernel
  noStray := by
    intro r u h
    cases h
  unique := by
    intro d d' h
    cases h

/-- Each of the two opens the conversation. -/
def bothSides : Fin 2 → Opening
  | 0 => { id := ⟨10⟩, bySecond := false, targetName := "Ben", targetHandle := "ben" }
  | 1 => { id := ⟨11⟩, bySecond := true, targetName := "Ana", targetHandle := "ana" }

/-- One after the other. -/
theorem one_conversation_in_turn :
    Always (openStep ⟨1⟩ ⟨2⟩ bothSides) (OneConversation ⟨1⟩ ⟨2⟩) (beginOpening twoAccounts)
      [.turn 0, .turn 0, .turn 0, .turn 0, .turn 0, .turn 1, .turn 1] :=
  one_conversation bothSides twoAccounts _ ready_twoAccounts (by decide +kernel)

/-- Each call takes each of its statements right after the other has taken the same one. -/
def openedSideBySide : List (Event (Fin 2) Timestamp) :=
  [.turn 0, .turn 1, .turn 0, .turn 1, .turn 0, .turn 1, .turn 0, .turn 1, .turn 0, .turn 1]

/-- Both lookups find nothing, both calls return, and there are two conversations of the two. -/
theorem two_conversations :
    ¬ Always (openStep ⟨1⟩ ⟨2⟩ bothSides) (OneConversation ⟨1⟩ ⟨2⟩) (beginOpening twoAccounts) openedSideBySide ∧
      (∀ i, ((run (openStep ⟨1⟩ ⟨2⟩ bothSides) (beginOpening twoAccounts) openedSideBySide).calls i).outcome.isSome = true) ∧
      together (run (openStep ⟨1⟩ ⟨2⟩ bothSides) (beginOpening twoAccounts) openedSideBySide).store ⟨10⟩ ⟨1⟩ ⟨2⟩ = true ∧
      together (run (openStep ⟨1⟩ ⟨2⟩ bothSides) (beginOpening twoAccounts) openedSideBySide).store ⟨11⟩ ⟨1⟩ ⟨2⟩ = true := by
  have h10 : together (run (openStep ⟨1⟩ ⟨2⟩ bothSides) (beginOpening twoAccounts) openedSideBySide).store ⟨10⟩ ⟨1⟩ ⟨2⟩ =
      true := by decide +kernel
  have h11 : together (run (openStep ⟨1⟩ ⟨2⟩ bothSides) (beginOpening twoAccounts) openedSideBySide).store ⟨11⟩ ⟨1⟩ ⟨2⟩ =
      true := by decide +kernel
  refine ⟨fun h => ?_, by decide +kernel, h10, h11⟩
  have := h.last.unique ⟨10⟩ ⟨11⟩ h10 h11
  exact absurd this (by decide)

end Genzh.Room
