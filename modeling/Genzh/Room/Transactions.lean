/-
The transactions that join a room, leave it, and end the empty playground rooms, statement by statement
under read committed. A statement sees the rows committed when it starts and what its own transaction has
written. A write waits while another transaction holds the lock of its row, and then goes on from the row
as it is by then; what it has read for it stays what it was when the statement started. So a recount is two
steps, its count and its write, and a delete is two as well.

The foreign keys of a participant row lock its room against deletion only, which nothing here attempts.
-/
import Genzh.Room.Observe
import Genzh.Lib.Interleaving
import Genzh.Lib.Locks

namespace Genzh.Room

open Genzh.Lib Genzh.Domain Genzh.Infrastructure

/-- A transaction of the repository. -/
inductive Transaction where
  | join (roomId : RoomId) (userId : UserId) (role : RoomParticipantRole)
  | leave (roomId : RoomId) (userId : UserId)
  | reap (grace : Duration)
  deriving DecidableEq, Repr

/-- What a transaction has written to the participant rows: a row inserted or refreshed, or deleted if found. -/
inductive Write where
  | join (roomId : RoomId) (userId : UserId) (role : RoomParticipantRole)
  | leave (roomId : RoomId) (userId : UserId) (found : Bool)
  deriving DecidableEq, Repr

/-- What a transaction returns. -/
inductive Outcome where
  | joined (participant : Option RoomParticipant)
  | left (present : Bool)
  | reaped (ended : Nat)
  deriving DecidableEq, Repr

/-- How far a transaction has come; `now` is when it began. -/
inductive Progress where
  | waiting (transaction : Transaction)
  | begun (transaction : Transaction) (now : Timestamp)
  /-- The row to be deleted is there; its lock is next. -/
  | deleting (roomId : RoomId) (userId : UserId) (now : Timestamp) (tuple : Nat)
  /-- The participant row is written; the recount is next. -/
  | written (now : Timestamp) (write : Write)
  /-- The recount has counted `total`; the lock of the room's row is next. -/
  | counting (now : Timestamp) (write : Write) (total : Nat)
  /-- The recount is written; the commit is next. -/
  | counted (now : Timestamp) (write : Write) (total : Nat)
  /-- The reaper has found the rooms `todo`, and has ended `ended`. -/
  | sweeping (now : Timestamp) (grace : Duration) (todo ended : List RoomId)
  | finished (result : Except ServiceError Outcome)
  deriving DecidableEq

/-- Is the transaction at its end? -/
def Progress.isFinished : Progress → Bool
  | finished _ => true
  | _ => false

/-- The committed rows, how often the row of a key has been inserted, and the locks. -/
structure Store (I : Type) where
  db : Db
  tuple : RoomId × UserId → Nat
  participantLocks : RowLocks (RoomId × UserId) I
  roomLocks : RowLocks RoomId I

/-! ## Writes -/

/-- A recount's write: the columns of the room as they follow from `total`. -/
def writeCount (now : Timestamp) (roomId : RoomId) (total : Nat) (db : Db) : Db :=
  { db with rooms := db.rooms.update roomId (recountRow now total) fun _ => rfl }

/-- The reaper's write to the rooms it has found. -/
def endListed (now : Timestamp) (ended : List RoomId) (db : Db) : Db :=
  { db with rooms := db.rooms.updateWhere (fun row => ended.contains row.id) (endRoom now) fun _ => rfl }

namespace Write

def roomId : Write → RoomId
  | join r _ _ | leave r _ _ => r

def userId : Write → UserId
  | join _ u _ | leave _ u _ => u

/-- The rows as the transaction sees them. -/
def apply (now : Timestamp) : Write → Db → Db
  | join r u role, db => (insertParticipant r u role (db.tick now)).tick db.now
  | leave r u true, db => deleteParticipant r u db
  | leave _ _ false, db => db

/-- Does the write put a new row in? -/
def inserts : Write → Db → Bool
  | join r u _, db => !db.participates r u
  | leave .., _ => false

/-- Does the write change who is in the room? -/
def changes : Write → Db → Bool
  | join r u _, db => !db.participates r u
  | leave r u found, db => found && db.participates r u

def outcome (now : Timestamp) (w : Write) (db : Db) : Outcome :=
  match w with
  | join r u _ => .joined ((w.apply now db).roomParticipants.find (r, u))
  | leave _ _ found => .left found

end Write

section Advance

variable {I : Type} [DecidableEq I]

namespace Store

variable (s : Store I) (i : I)

/-- A transaction's locks are given back. -/
def release : Store I :=
  { s with participantLocks := s.participantLocks.release i, roomLocks := s.roomLocks.release i }

/-- The commit of a join or a leave. -/
def commit (now : Timestamp) (w : Write) (total : Nat) : Store I :=
  { s.release i with
    db := writeCount now w.roomId total (w.apply now s.db)
    tuple :=
      if w.inserts s.db then Function.update s.tuple (w.roomId, w.userId) (s.tuple (w.roomId, w.userId) + 1)
      else s.tuple }

/-- The commit of the reaper. -/
def commitEnded (now : Timestamp) (ended : List RoomId) : Store I := { s.release i with db := endListed now ended s.db }

def lockParticipant (r : RoomId) (u : UserId) : Store I :=
  { s with participantLocks := s.participantLocks.take i (r, u) }

def lockRoom (r : RoomId) : Store I := { s with roomLocks := s.roomLocks.take i r }

end Store

/-- The next step of a transaction; one that has to wait stays where it is. -/
def Progress.advance (i : I) : Progress → Store I → Progress × Store I
  | .waiting t, s => (.begun t s.db.now, s)
  | .begun (.join r u role) now, s =>
    if !s.participantLocks.free i (r, u) then (.begun (.join r u role) now, s)
    else if seatable s.db r u then (.written now (.join r u role), s.lockParticipant i r u)
    else (.finished (.error (.repository .foreignKey)), s)
  | .begun (.leave r u) now, s =>
    -- a row that is not committed yet is not seen, and not waited for
    if s.db.participates r u then (.deleting r u now (s.tuple (r, u)), s) else (.written now (.leave r u false), s)
  | .begun (.reap grace) now, s =>
    (.sweeping now grace ((s.db.rooms.select (abandoned now grace)).map (·.id)) [], s)
  | .deleting r u now tuple, s =>
    -- a row inserted since in its place is another row
    if !(s.db.participates r u && s.tuple (r, u) = tuple) then (.written now (.leave r u false), s)
    else if s.participantLocks.free i (r, u) then (.written now (.leave r u true), s.lockParticipant i r u)
    else (.deleting r u now tuple, s)
  | .written now w, s =>
    let total := (w.apply now s.db).participantCount w.roomId
    if s.db.roomExists w.roomId then (.counting now w total, s) else (.counted now w total, s)
  | .counting now w total, s =>
    if s.roomLocks.free i w.roomId then (.counted now w total, s.lockRoom i w.roomId) else (.counting now w total, s)
  | .counted now w total, s => (.finished (.ok (w.outcome now s.db)), s.commit i now w total)
  | .sweeping now grace (r :: todo) ended, s =>
    match s.db.room r with
    | none => (.sweeping now grace todo ended, s)
    | some row =>
      if !s.roomLocks.free i r then (.sweeping now grace (r :: todo) ended, s)
      -- the condition is read again on the row as it is now; the lock stays either way
      else if abandoned now grace row then (.sweeping now grace todo (r :: ended), s.lockRoom i r)
      else (.sweeping now grace todo ended, s.lockRoom i r)
  | .sweeping now _ [] ended, s => (.finished (.ok (.reaped ended.length)), s.commitEnded i now ended)
  | .finished result, s => (.finished result, s)

/-- The transactions on the database. -/
abbrev Transactions (I : Type) := System (Store I) I Progress

/-- The clock. -/
def Store.tick (now : Timestamp) (s : Store I) : Store I := { s with db := s.db.tick now }

def transactionStep : Transactions I → Event I Timestamp → Transactions I := System.step Progress.advance Store.tick

/-- The store with no transaction in flight. -/
def Store.quiet (db : Db) : Store I := { db, tuple := fun _ => 0, participantLocks := .none, roomLocks := .none }

/-- These transactions, none of which has begun. -/
def beginTransactions (db : Db) (transactions : I → Transaction) : Transactions I :=
  { store := .quiet db, calls := fun i => .waiting (transactions i) }

end Advance

/-! ## A transaction by itself -/

section Alone

variable {I : Type} [DecidableEq I] {s : Store I} {i : I}

theorem deleteParticipant_of_absent {db : Db} {r : RoomId} {u : UserId} (h : db.participates r u = false) :
    deleteParticipant r u db = db := by
  unfold deleteParticipant
  rw [Table.delete_of_absent h]

theorem join_alone (r : RoomId) (u : UserId) (role : RoomParticipantRole) (hp : s.participantLocks.free i (r, u) = true)
    (hr : s.roomLocks.free i r = true) :
    (System.alone Progress.advance i 5 (.waiting (.join r u role)) s).1 =
        .finished (((joinRoom r u role).exec s.db).1.map .joined) ∧
      (System.alone Progress.advance i 5 (.waiting (.join r u role)) s).2.db = ((joinRoom r u role).exec s.db).2 := by
  rw [exec_joinRoom]
  unfold seated
  by_cases hs : seatable s.db r u
  · by_cases he : s.db.roomExists r
    · have hr' : (s.lockParticipant i r u).roomLocks.free i r = true := hr
      simp only [System.alone_succ, Progress.advance, hp, hs, Bool.not_true, Bool.false_eq_true, if_false, if_true,
        Write.roomId, show (s.lockParticipant i r u).db.roomExists r = true from he, hr']
      exact ⟨rfl, rfl⟩
    · simp only [System.alone_succ, Progress.advance, hp, hs, Bool.not_true, Bool.false_eq_true, if_false, if_true,
        Write.roomId, show ¬ (s.lockParticipant i r u).db.roomExists r = true from he]
      exact ⟨rfl, rfl⟩
  · simp only [System.alone_succ, Progress.advance, hp, hs, Bool.not_true, Bool.false_eq_true, if_false]
    exact ⟨rfl, rfl⟩

theorem leave_alone (r : RoomId) (u : UserId) (hp : s.participantLocks.free i (r, u) = true)
    (hr : s.roomLocks.free i r = true) :
    (System.alone Progress.advance i 6 (.waiting (.leave r u)) s).1 = .finished (((leaveRoom r u).exec s.db).1.map .left) ∧
      (System.alone Progress.advance i 6 (.waiting (.leave r u)) s).2.db = ((leaveRoom r u).exec s.db).2 := by
  rw [exec_leaveRoom]
  by_cases hin : s.db.participates r u
  · by_cases he : s.db.roomExists r
    · have hr' : (s.lockParticipant i r u).roomLocks.free i r = true := hr
      simp only [System.alone_succ, Progress.advance, hin, hp, Bool.true_and, Bool.not_true, Bool.false_eq_true, if_false,
        if_true, decide_true, Write.roomId, show (s.lockParticipant i r u).db.roomExists r = true from he, hr']
      exact ⟨rfl, rfl⟩
    · simp only [System.alone_succ, Progress.advance, hin, hp, Bool.true_and, Bool.not_true, Bool.false_eq_true, if_false,
        if_true, decide_true, Write.roomId, show ¬ (s.lockParticipant i r u).db.roomExists r = true from he]
      exact ⟨rfl, rfl⟩
  · have hsame : unseated r u s.db = recountParticipants r s.db := by
      unfold unseated
      rw [deleteParticipant_of_absent (Bool.eq_false_iff.2 hin)]
    rw [Bool.eq_false_iff.2 hin, hsame]
    by_cases he : s.db.roomExists r
    · simp only [System.alone_succ, Progress.advance, hin, Bool.false_eq_true, if_false, if_true, Write.roomId, he, hr]
      exact ⟨rfl, rfl⟩
    · simp only [System.alone_succ, Progress.advance, hin, Bool.false_eq_true, if_false, Write.roomId, he]
      exact ⟨rfl, rfl⟩

/-- Alone, the reaper ends every room it has found. -/
theorem sweep_alone (now : Timestamp) (grace : Duration) {todo : List RoomId} (ended : List RoomId)
    (hrow : ∀ r ∈ todo, ∃ row, s.db.room r = some row ∧ abandoned now grace row = true)
    (hfree : ∀ r, s.roomLocks.free i r = true) :
    ∃ locks, System.alone Progress.advance i todo.length (.sweeping now grace todo ended) s =
      (.sweeping now grace [] (todo.reverse ++ ended), { s with roomLocks := locks }) := by
  induction todo generalizing s ended with
  | nil => exact ⟨s.roomLocks, rfl⟩
  | cons r todo ih =>
    obtain ⟨row, hr, ha⟩ := hrow r List.mem_cons_self
    have hstep : Progress.advance i (.sweeping now grace (r :: todo) ended) s =
        (.sweeping now grace todo (r :: ended), s.lockRoom i r) := by
      simp only [Progress.advance, hr, hfree, ha, Bool.not_true, Bool.false_eq_true, if_false, if_true]
    obtain ⟨locks, h⟩ := ih (s := s.lockRoom i r) (r :: ended)
      (fun r' hr' => hrow r' (List.mem_cons_of_mem _ hr')) fun r' => RowLocks.free_take (hfree r')
    refine ⟨locks, ?_⟩
    rw [List.length_cons, System.alone_succ, hstep, h, List.reverse_cons, List.append_assoc]
    rfl

theorem endListed_select (now : Timestamp) (p : RoomRow → Bool) (db : Db) :
    endListed now ((db.rooms.select p).map (·.id)).reverse db =
      { db with rooms := db.rooms.updateWhere p (endRoom now) fun _ => rfl } := by
  unfold endListed
  congr 1
  apply Table.updateWhere_congr
  intro row hrow
  rw [Bool.eq_iff_iff]
  simp only [List.contains_iff_mem, List.mem_reverse, List.mem_map, Table.mem_select]
  constructor
  · rintro ⟨row', ⟨hrow', hp⟩, hid⟩
    rwa [← List.inj_on_of_nodup_map db.rooms.nodup hrow' hrow hid]
  · exact fun hp => ⟨row, ⟨hrow, hp⟩, rfl⟩

theorem reap_alone (grace : Duration) (hr : ∀ r, s.roomLocks.free i r = true) :
    ∃ n, (System.alone Progress.advance i n (.waiting (.reap grace)) s).1 =
        .finished (((endEmptyPlaygroundRooms grace).exec s.db).1.map .reaped) ∧
      (System.alone Progress.advance i n (.waiting (.reap grace)) s).2.db =
        ((endEmptyPlaygroundRooms grace).exec s.db).2 := by
  have hrow : ∀ r ∈ (s.db.rooms.select (abandoned s.db.now grace)).map (·.id),
      ∃ row, s.db.room r = some row ∧ abandoned s.db.now grace row = true := by
    intro r hmem
    obtain ⟨row, hrow, rfl⟩ := List.mem_map.1 hmem
    obtain ⟨hm, hp⟩ := Table.mem_select.1 hrow
    exact ⟨row, Table.mem_iff_find.1 hm, hp⟩
  obtain ⟨locks, h⟩ := sweep_alone s.db.now grace [] hrow hr
  refine ⟨2 + (((s.db.rooms.select (abandoned s.db.now grace)).map (·.id)).length + 1), ?_⟩
  rw [exec_reap, System.alone_add, System.alone_add]
  have hbegin : System.alone Progress.advance i 2 (.waiting (.reap grace)) s =
      (.sweeping s.db.now grace ((s.db.rooms.select (abandoned s.db.now grace)).map (·.id)) [], s) := rfl
  rw [hbegin, h, List.append_nil, System.alone_succ]
  refine ⟨?_, ?_⟩
  · simp only [System.alone, Function.iterate_zero, id, Progress.advance, List.length_reverse, List.length_map]
    simp [Table.select, Table.count, List.countP_eq_length_filter, Except.map]
  · exact endListed_select ..

end Alone

end Genzh.Room
