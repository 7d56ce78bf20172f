/-
Where each person got to in each room. A row says up to when somebody has read a room and whether they
muted it; the overview counts what is newer, by the text of the messages, and takes the epoch where there is
no row. Muting writes the same row, and where there is none, the date of reading takes its default.
-/
import Genzh.Messaging.Search
import Genzh.Domain.Mentions

namespace Genzh.Room

open Genzh.Lib Genzh.Domain Genzh.Infrastructure Genzh.Messaging

structure RoomReadState where
  userId : UserId
  roomId : RoomId
  /-- Everything created at or before this is read. -/
  lastReadAt : Timestamp
  muted : Bool
  updatedAt : Timestamp
  deriving DecidableEq, Repr

instance : HasKey RoomReadState (UserId × RoomId) := ⟨fun s => (s.userId, s.roomId)⟩

/-- The database with the read states. -/
structure ReadStateDb extends Db where
  roomReadState : Table RoomReadState

/-- One room's unread state for one person. -/
structure RoomUnread where
  roomId : RoomId
  unread : Nat
  mentions : Nat
  muted : Bool
  deriving DecidableEq, Repr

abbrev ReadStateM := Prog ReadStateDb ServiceError

/-! ## Reads -/

/-- `coalesce(rs.last_read_at, 'epoch')` -/
def readUpTo (db : ReadStateDb) (u : UserId) (r : RoomId) : Timestamp :=
  ((db.roomReadState.find (u, r)).map (·.lastReadAt)).getD 0

/-- The messages of a room that somebody else wrote after the reader got there. -/
def unreadFrom (db : ReadStateDb) (u : UserId) (r : RoomId) (m : Message) : Bool :=
  m.roomId = r && readUpTo db u r < m.createdAt && m.authorId ≠ u

/-- `content ILIKE '%@everyone%' OR content ILIKE '%@' || handle || '%'` -/
def matchesMention (engine : TextSearch) (handle content : String) : Bool :=
  ilike engine content.toList ("%@everyone%".toList) ||
    ilike engine content.toList ('%' :: '@' :: (handle.toList ++ ['%']))

/-- The row of a room in the overview of the user with this handle. -/
def unreadRow (engine : TextSearch) (db : ReadStateDb) (u : UserId) (handle : String) (r : RoomId) : RoomUnread where
  roomId := r
  unread := db.messages.count (unreadFrom db u r)
  mentions := db.messages.count fun m => unreadFrom db u r m && matchesMention engine handle m.content
  muted := ((db.roomReadState.find (u, r)).map (·.muted)).getD false

/-- Unread counts for every room the caller is in. -/
def overview (engine : TextSearch) (db : ReadStateDb) (u : UserId) : List RoomUnread :=
  match db.users.find u with
  | none => []
  | some user => (db.roomParticipants.select fun p => p.userId = u).map fun p => unreadRow engine db u user.handle p.roomId

/-- Which of these have muted this room. -/
def mutedAmong (db : ReadStateDb) (r : RoomId) (ids : List UserId) : List UserId :=
  if ids.isEmpty then []
  else (db.roomReadState.select fun s => s.roomId = r && s.muted && ids.contains s.userId).map (·.userId)

/-! ## Writes -/

/-- The foreign keys of a row that is inserted; a row that is there has them. -/
def checkReadState (u : UserId) (r : RoomId) : ReadStateM Unit := do
  let holds ← Prog.read fun db => db.roomReadState.contains (u, r) || (db.roomExists r && db.userExists u)
  Prog.ensure holds (.repository .foreignKey)

/-- Mark a room read up to now. -/
def markRead (u : UserId) (r : RoomId) : ReadStateM Unit := do
  checkReadState u r
  Prog.modify fun db =>
    { db with
      roomReadState := db.roomReadState.upsert
        { userId := u, roomId := r, lastReadAt := db.now, muted := false, updatedAt := db.now }
        (fun s => { s with lastReadAt := db.now, updatedAt := db.now }) fun _ => rfl }

/-- The rows after muting or unmuting a room. A row that is inserted has been read up to now, by the column's default. -/
def withMuted (u : UserId) (r : RoomId) (muted : Bool) (db : ReadStateDb) : ReadStateDb :=
  { db with
    roomReadState := db.roomReadState.upsert
      { userId := u, roomId := r, lastReadAt := db.now, muted, updatedAt := db.now }
      (fun s => { s with muted, updatedAt := db.now }) fun _ => rfl }

/-- Mute or unmute a room. -/
def setMuted (u : UserId) (r : RoomId) (muted : Bool) : ReadStateM Unit := do
  checkReadState u r
  Prog.modify (withMuted u r muted)

/-! ## What muting changes -/

/-- May the row be written? -/
def mutable (db : ReadStateDb) (u : UserId) (r : RoomId) : Bool :=
  db.roomReadState.contains (u, r) || (db.roomExists r && db.userExists u)

theorem exec_setMuted (u : UserId) (r : RoomId) (muted : Bool) (db : ReadStateDb) :
    (setMuted u r muted).exec db =
      if mutable db u r then (.ok (), withMuted u r muted db) else (.error (.repository .foreignKey), db) := by
  unfold setMuted checkReadState mutable
  rw [bind_assoc, Prog.exec_read_bind, Prog.exec_ensure_bind]
  rfl

section Muted

variable {db : ReadStateDb} {u v : UserId} {r r' : RoomId} {muted : Bool}

theorem find_withMuted (u : UserId) (r : RoomId) (muted : Bool) (db : ReadStateDb) (v : UserId) (r' : RoomId) :
    (withMuted u r muted db).roomReadState.find (v, r') =
      if (u, r) = (v, r') then
        some (((db.roomReadState.find (u, r)).map fun s => { s with muted, updatedAt := db.now }).getD
          { userId := u, roomId := r, lastReadAt := db.now, muted, updatedAt := db.now })
      else db.roomReadState.find (v, r') := by
  have hkey : key ({ userId := u, roomId := r, lastReadAt := db.now, muted, updatedAt := db.now } : RoomReadState) =
      (u, r) := rfl
  unfold withMuted
  simp only [Table.find_upsert, hkey]
  by_cases h : (u, r) = (v, r')
  · rw [if_pos h, if_pos h, ← h]
    rcases db.roomReadState.find (u, r) with _ | s <;> rfl
  · rw [if_neg h, if_neg h]

theorem readUpTo_withMuted : readUpTo (withMuted u r muted db) v r' =
    if (u, r) = (v, r') ∧ db.roomReadState.contains (u, r) = false then db.now else readUpTo db v r' := by
  unfold readUpTo Table.contains
  rw [find_withMuted]
  by_cases h : (u, r) = (v, r')
  · rw [if_pos h, ← h]
    rcases db.roomReadState.find (u, r) with _ | s
    · rw [if_pos ⟨rfl, rfl⟩]
      rfl
    · rw [if_neg (fun hnot => by cases hnot.2)]
      rfl
  · rw [if_neg h, if_neg fun hnot => h hnot.1]

/-- A row whose reader got as far as before shows what it showed, but for the flag. -/
theorem unreadRow_withMuted {engine : TextSearch} {handle : String}
    (h : ∀ m ∈ db.messages.rows, unreadFrom (withMuted u r muted db) v r' m = unreadFrom db v r' m) :
    unreadRow engine (withMuted u r muted db) v handle r' =
      if (u, r) = (v, r') then { unreadRow engine db v handle r' with muted } else unreadRow engine db v handle r' := by
  have hmessages : (withMuted u r muted db).messages = db.messages := rfl
  have hunread : db.messages.count (unreadFrom (withMuted u r muted db) v r') = db.messages.count (unreadFrom db v r') :=
    List.countP_congr fun m hm => by rw [h m hm]
  have hmentions : (db.messages.count fun m => unreadFrom (withMuted u r muted db) v r' m &&
      matchesMention engine handle m.content) =
        db.messages.count fun m => unreadFrom db v r' m && matchesMention engine handle m.content :=
    List.countP_congr fun m hm => by rw [h m hm]
  unfold unreadRow
  rw [hmessages, hunread, hmentions, find_withMuted]
  by_cases hkey : (u, r) = (v, r')
  · rw [if_pos hkey, if_pos hkey]
    rcases db.roomReadState.find (u, r) with _ | s <;> rfl
  · rw [if_neg hkey, if_neg hkey]

/-- Muting changes the flag of this user's room state and nothing else that anybody sees. -/
structure MutesOnly (engine : TextSearch) (db : ReadStateDb) (u : UserId) (r : RoomId) (muted : Bool) : Prop where
  refused : ((setMuted u r muted).exec db).1.isOk = false → ((setMuted u r muted).exec db).2 = db
  rest : ((setMuted u r muted).exec db).2.toDb = db.toDb
  others : ∀ v r', (u, r) ≠ (v, r') →
    ((setMuted u r muted).exec db).2.roomReadState.find (v, r') = db.roomReadState.find (v, r')
  seen : ((setMuted u r muted).exec db).1.isOk = true → ∀ v, overview engine ((setMuted u r muted).exec db).2 v =
    (overview engine db v).map fun row => if (u, r) = (v, row.roomId) then { row with muted } else row

/-- Either there is a row, or the request is refused, or the room is not in the user's overview, or nobody else wrote
into it between the epoch and now. -/
def NothingToMarkRead (db : ReadStateDb) (u : UserId) (r : RoomId) : Prop :=
  db.roomReadState.contains (u, r) = true ∨ (db.roomExists r && db.userExists u) = false ∨ db.participates r u = false ∨
    ∀ m ∈ db.messages.rows, m.roomId = r → m.authorId ≠ u → (0 < m.createdAt ↔ db.now < m.createdAt)

/-- Where there is no row, everything after the epoch is unread. -/
theorem unreadFrom_new (h : db.roomReadState.contains (u, r) = false) (m : Message) :
    unreadFrom db u r m = (decide (m.roomId = r) && decide (0 < m.createdAt) && decide (m.authorId ≠ u)) := by
  have hnone := Table.contains_eq_false.1 h
  unfold unreadFrom readUpTo
  rw [hnone]
  rfl

/-- Once the row is there, everything after now is. -/
theorem unreadFrom_withMuted_new (h : db.roomReadState.contains (u, r) = false) (m : Message) :
    unreadFrom (withMuted u r muted db) u r m =
      (decide (m.roomId = r) && decide (db.now < m.createdAt) && decide (m.authorId ≠ u)) := by
  unfold unreadFrom
  rw [readUpTo_withMuted, if_pos ⟨rfl, h⟩]

/-- The two counts are one only where they count the same messages: whichever of the epoch and now is the later, what is
after it is after the other. -/
theorem unreadFrom_eq_of_count (h : db.roomReadState.contains (u, r) = false)
    (hcount : db.messages.count (unreadFrom (withMuted u r muted db) u r) = db.messages.count (unreadFrom db u r)) :
    ∀ m ∈ db.messages.rows, unreadFrom (withMuted u r muted db) u r m = unreadFrom db u r m := by
  have hafter : ∀ m, unreadFrom (withMuted u r muted db) u r m = true ↔
      (m.roomId = r ∧ db.now < m.createdAt) ∧ m.authorId ≠ u := by
    intro m
    rw [unreadFrom_withMuted_new h, Bool.and_eq_true, Bool.and_eq_true, decide_eq_true_eq, decide_eq_true_eq,
      decide_eq_true_eq]
  have hbefore : ∀ m, unreadFrom db u r m = true ↔ (m.roomId = r ∧ 0 < m.createdAt) ∧ m.authorId ≠ u := by
    intro m
    rw [unreadFrom_new h, Bool.and_eq_true, Bool.and_eq_true, decide_eq_true_eq, decide_eq_true_eq, decide_eq_true_eq]
  intro m hm
  rw [Bool.eq_iff_iff]
  -- the later of the epoch and now has the fewer messages after it, so equal counts are of the same ones
  rcases le_total 0 db.now with hnow | hnow
  · have hnarrow : ∀ m ∈ db.messages.rows, unreadFrom (withMuted u r muted db) u r m = true → unreadFrom db u r m = true := by
      intro m _ hunread
      rw [hafter] at hunread
      exact (hbefore m).2 ⟨⟨hunread.1.1, lt_of_le_of_lt hnow hunread.1.2⟩, hunread.2⟩
    exact ⟨hnarrow m hm, (Table.count_eq_iff hnarrow).1 hcount m hm⟩
  · have hnarrow : ∀ m ∈ db.messages.rows, unreadFrom db u r m = true → unreadFrom (withMuted u r muted db) u r m = true := by
      intro m _ hunread
      rw [hbefore] at hunread
      exact (hafter m).2 ⟨⟨hunread.1.1, lt_of_le_of_lt hnow hunread.1.2⟩, hunread.2⟩
    exact ⟨(Table.count_eq_iff hnarrow).1 hcount.symm m hm, hnarrow m hm⟩

/-- Where there is nothing to mark read, everybody has in their rooms what they had. -/
theorem unreadFrom_kept (hmutable : mutable db u r = true) (h : NothingToMarkRead db u r)
    (hparticipates : db.participates r' v = true) :
    ∀ m ∈ db.messages.rows, unreadFrom (withMuted u r muted db) v r' m = unreadFrom db v r' m := by
  intro m hm
  by_cases hkey : (u, r) = (v, r') ∧ db.roomReadState.contains (u, r) = false
  · obtain ⟨heq, hnone⟩ := hkey
    obtain ⟨rfl, rfl⟩ := Prod.mk.inj heq
    have hkeys : (db.roomExists r && db.userExists u) = true := by
      unfold mutable at hmutable
      rwa [hnone, Bool.false_or] at hmutable
    rcases h with hrow | hrefused | hout | hmessages
    · rw [hnone] at hrow
      cases hrow
    · rw [hkeys] at hrefused
      cases hrefused
    · rw [hparticipates] at hout
      cases hout
    · rw [unreadFrom_withMuted_new hnone, unreadFrom_new hnone, Bool.eq_iff_iff]
      simp only [Bool.and_eq_true, decide_eq_true_eq]
      constructor
      · rintro ⟨⟨hr, hnow⟩, hauthor⟩
        exact ⟨⟨hr, (hmessages m hm hr hauthor).2 hnow⟩, hauthor⟩
      · rintro ⟨⟨hr, hepoch⟩, hauthor⟩
        exact ⟨⟨hr, (hmessages m hm hr hauthor).1 hepoch⟩, hauthor⟩
  · unfold unreadFrom
    rw [readUpTo_withMuted, if_neg hkey]

/-- Where nobody has anything else unread in their rooms, everybody is shown what they were, but for the flag. -/
theorem overview_withMuted {engine : TextSearch} (h : ∀ r', db.participates r' v = true → ∀ m ∈ db.messages.rows,
    unreadFrom (withMuted u r muted db) v r' m = unreadFrom db v r' m) :
    overview engine (withMuted u r muted db) v =
      (overview engine db v).map fun row => if (u, r) = (v, row.roomId) then { row with muted } else row := by
  have husers : (withMuted u r muted db).users = db.users := rfl
  have hparticipants : (withMuted u r muted db).roomParticipants = db.roomParticipants := rfl
  unfold overview
  rw [husers, hparticipants]
  rcases db.users.find v with _ | user
  · rfl
  · simp only [List.map_map, List.map_inj_left]
    intro p hp
    obtain ⟨hmem, hparticipant⟩ := Table.mem_select.1 hp
    rw [Function.comp_apply]
    exact unreadRow_withMuted (h p.roomId (Db.participates_iff.2 ⟨p, hmem, rfl, of_decide_eq_true hparticipant⟩))

/-- A participant who is shown what they were, but for the flag, has as much unread in the room as before. -/
theorem count_of_overview {engine : TextSearch} (hexists : db.userExists u = true) (hpresent : db.participates r u = true)
    (hseen : overview engine (withMuted u r muted db) u =
      (overview engine db u).map fun row => if (u, r) = (u, row.roomId) then { row with muted } else row) :
    db.messages.count (unreadFrom (withMuted u r muted db) u r) = db.messages.count (unreadFrom db u r) := by
  obtain ⟨user, huser⟩ := Table.contains_iff.1 hexists
  obtain ⟨p, hp, hroom, hparticipant⟩ := Db.participates_iff.1 hpresent
  have husers : (withMuted u r muted db).users = db.users := rfl
  have hparticipants : (withMuted u r muted db).roomParticipants = db.roomParticipants := rfl
  unfold overview at hseen
  simp only [husers, hparticipants, huser, List.map_map, List.map_inj_left] at hseen
  have hrow := hseen p (Table.mem_select.2 ⟨hp, decide_eq_true hparticipant⟩)
  rw [hroom, Function.comp_apply] at hrow
  have hunread := congrArg RoomUnread.unread hrow
  rw [apply_ite RoomUnread.unread, ite_self, hroom] at hunread
  exact hunread

/-- A refused request changes nothing. -/
theorem mutesOnly_of_refused (engine : TextSearch) (h : mutable db u r = false) (muted : Bool) :
    MutesOnly engine db u r muted := by
  have hexec := exec_setMuted u r muted db
  rw [h, if_neg Bool.false_ne_true] at hexec
  refine ⟨fun _ => ?_, ?_, fun v r' _ => ?_, fun hok => ?_⟩
  · rw [hexec]
  · rw [hexec]
  · rw [hexec]
  · rw [hexec] at hok
    cases hok

theorem mutesOnly_of_nothing (engine : TextSearch) (hmutable : mutable db u r = true) (h : NothingToMarkRead db u r)
    (muted : Bool) : MutesOnly engine db u r muted := by
  have hexec := exec_setMuted u r muted db
  rw [hmutable, if_pos rfl] at hexec
  refine ⟨fun hfailed => ?_, by rw [hexec]; rfl, fun v r' hne => ?_, fun _ v => ?_⟩
  · rw [hexec] at hfailed
    cases hfailed
  · rw [hexec, find_withMuted, if_neg hne]
  · rw [hexec]
    exact overview_withMuted fun r' hparticipates => unreadFrom_kept hmutable h hparticipates

theorem nothing_of_mutesOnly {engine : TextSearch} (hmutable : mutable db u r = true) (h : MutesOnly engine db u r muted) :
    NothingToMarkRead db u r := by
  have hexec := exec_setMuted u r muted db
  rw [hmutable, if_pos rfl] at hexec
  by_contra hnot
  unfold NothingToMarkRead at hnot
  rw [not_or, not_or, not_or, Bool.not_eq_true, Bool.not_eq_false, Bool.not_eq_false] at hnot
  obtain ⟨hnone, hkeys, hpresent, hmessages⟩ := hnot
  -- the row of the room in the user's own overview
  have hseen := h.seen (by rw [hexec]; rfl) u
  rw [hexec] at hseen
  have hcount := count_of_overview (Bool.and_eq_true_iff.1 hkeys).2 hpresent hseen
  refine hmessages fun m hm hr hauthor => ?_
  have hsame := unreadFrom_eq_of_count hnone hcount m hm
  rw [unreadFrom_withMuted_new hnone, unreadFrom_new hnone] at hsame
  simpa [hr, hauthor] using hsame.symm

/-- Muting changes only the flag exactly if there is nothing it could mark read. -/
theorem mutesOnly_iff (engine : TextSearch) (db : ReadStateDb) (u : UserId) (r : RoomId) (muted : Bool) :
    MutesOnly engine db u r muted ↔ NothingToMarkRead db u r := by
  rcases hmutable : mutable db u r
  · have hkeys := hmutable
    unfold mutable at hkeys
    rw [Bool.or_eq_false_iff] at hkeys
    exact iff_of_true (mutesOnly_of_refused engine hmutable muted) (.inr (.inl hkeys.2))
  · exact ⟨nothing_of_mutesOnly hmutable, fun h => mutesOnly_of_nothing engine hmutable h muted⟩

/-! ### Who is not notified -/

theorem mem_mutedAmong {ids : List UserId} : v ∈ mutedAmong db r ids ↔
    v ∈ ids ∧ ∃ s, db.roomReadState.find (v, r) = some s ∧ s.muted = true := by
  have hmem : v ∈ (db.roomReadState.select fun s => s.roomId = r && s.muted && ids.contains s.userId).map (·.userId) ↔
      v ∈ ids ∧ ∃ s, db.roomReadState.find (v, r) = some s ∧ s.muted = true := by
    simp only [List.mem_map, Table.mem_select, Bool.and_eq_true, decide_eq_true_eq, List.contains_iff_mem,
      Table.find_eq_some]
    constructor
    · rintro ⟨s, ⟨hs, ⟨rfl, hmuted⟩, hids⟩, rfl⟩
      exact ⟨hids, s, ⟨hs, rfl⟩, hmuted⟩
    · rintro ⟨hids, s, ⟨hs, hkey⟩, hmuted⟩
      obtain ⟨rfl, rfl⟩ := Prod.mk.inj hkey
      exact ⟨s, ⟨hs, ⟨rfl, hmuted⟩, hids⟩, rfl⟩
  unfold mutedAmong
  split
  · rename_i hempty
    rw [List.isEmpty_iff] at hempty
    simp [hempty]
  · exact hmem

/-- Muting takes effect for the user and the room, and for nobody else. -/
theorem mem_mutedAmong_withMuted {ids : List UserId} : v ∈ mutedAmong (withMuted u r muted db) r' ids ↔
    v ∈ ids ∧ if (u, r) = (v, r') then muted = true else v ∈ mutedAmong db r' ids := by
  rw [mem_mutedAmong, mem_mutedAmong, find_withMuted]
  by_cases hkey : (u, r) = (v, r')
  · rw [if_pos hkey, if_pos hkey]
    cases db.roomReadState.find (u, r) <;> simp
  · rw [if_neg hkey, if_neg hkey]
    tauto

/-! ### What has been read -/

/-- Reading a room up to now leaves nothing unread in it that is no later than now, and leaves it as muted as it was. -/
theorem markRead_reads (h : mutable db u r = true) (hpast : ∀ m ∈ db.messages.rows, m.createdAt ≤ db.now) :
    (∀ m ∈ ((markRead u r).exec db).2.messages.rows, unreadFrom ((markRead u r).exec db).2 u r m = false) ∧
      (((markRead u r).exec db).2.roomReadState.find (u, r)).any (·.muted) =
        (db.roomReadState.find (u, r)).any (·.muted) := by
  have hexec : ((markRead u r).exec db).2 =
      { db with
        roomReadState := db.roomReadState.upsert
          { userId := u, roomId := r, lastReadAt := db.now, muted := false, updatedAt := db.now }
          (fun s => { s with lastReadAt := db.now, updatedAt := db.now }) fun _ => rfl } := by
    unfold mutable at h
    unfold markRead checkReadState
    rw [bind_assoc, Prog.exec_read_bind, Prog.exec_ensure_bind, if_pos h]
    rfl
  have hkey : key ({ userId := u, roomId := r, lastReadAt := db.now, muted := false, updatedAt := db.now } : RoomReadState) =
      (u, r) := rfl
  rw [hexec]
  constructor
  · intro m hm
    have hread : ¬db.now < m.createdAt := not_lt.2 (hpast m hm)
    unfold unreadFrom readUpTo
    simp only [Table.find_upsert, hkey, if_pos]
    cases db.roomReadState.find (u, r) <;> simp [hread]
  · simp only [Table.find_upsert, hkey, if_pos]
    cases db.roomReadState.find (u, r) <;> rfl

end Muted

/-- `ben` has written to `ana` in a room that she has not opened. -/
def unopened (content : String) : ReadStateDb where
  toDb := run step (Db.empty 1)
    [.register (account ⟨2⟩ "ana"), .register (account ⟨3⟩ "ben"), .create ⟨10⟩ none ⟨3⟩ { name := "den", roomType := .text },
      .join ⟨10⟩ ⟨2⟩, .post ⟨20⟩ ⟨10⟩ ⟨3⟩ content false none none, .clock 2]
  roomReadState := .empty

/-- When she mutes it, his message is no longer unread. -/
theorem not_mutesOnly : ¬MutesOnly asciiSearch (unopened "hello") ⟨2⟩ ⟨10⟩ true := by
  intro h
  have hseen := h.seen (by decide +kernel) ⟨2⟩
  exact absurd hseen (by decide +kernel)

end Genzh.Room
