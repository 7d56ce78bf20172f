/-
Reading a room's history page by page. The repository fetches one row more than it was asked for, and counts it in
64 bits: the largest limit there is wraps to a negative one, which the database refuses. The service never asks for
more than a hundred.
-/
import Genzh.Messaging.Service
import Genzh.Lib.Keyset

namespace Genzh.Messaging

open Genzh.Lib Genzh.Domain Genzh.Infrastructure

/-! ## The repository -/

/-- Read history, newest first. -/
def list (db : Db) (roomId : RoomId) (before : Option Timestamp) (beforeId : Option MessageId) (limit : Int64) :
    Except RepositoryError MessagePage :=
  let fetch := limit + 1
  if fetch < 0 then .error .database
  else
    let rows := (db.messages.select fun m => m.roomId = roomId && beforeCursor before beforeId m).insertionSort
      fun m n => newestFirst m n
    let messages := rows.take fetch.toInt.toNat
    if limit.toInt < messages.length then
      let messages := if limit < 0 then messages else messages.take limit.toInt.toNat
      let last := messages.getLast?
      .ok { messages, nextBefore := last.map (·.createdAt), nextBeforeId := last.map (·.id) }
    else .ok { messages, nextBefore := none, nextBeforeId := none }

/-- Follow the cursor from the `k`-th request on until it is absent; the `k`-th request is made of `dbs k`. -/
def follow (dbs : Nat → Db) (roomId : RoomId) (limit : Int64) :
    Nat → Nat → Option Timestamp → Option MessageId → Option (List Message)
  | 0, _, _, _ => none
  | fuel + 1, k, before, beforeId =>
    match list (dbs k) roomId before beforeId limit with
    | .error _ => none
    | .ok page =>
      match page.nextBefore with
      | none => some page.messages
      | some next => (follow dbs roomId limit fuel (k + 1) (some next) page.nextBeforeId).map (page.messages ++ ·)

theorem list_eq {limit : Int64} (h0 : 0 ≤ limit) (hmax : limit < Int64.maxValue) (db : Db) (roomId : RoomId)
    (before : Option Timestamp) (beforeId : Option MessageId) :
    list db roomId before beforeId limit = .ok (listMessages db roomId before beforeId limit.toInt.toNat) := by
  rw [Int64.le_iff_toInt_le] at h0
  rw [Int64.lt_iff_toInt_lt] at hmax
  have h0 : 0 ≤ limit.toInt := h0
  have hmax : limit.toInt < 9223372036854775807 := hmax
  have hfetch : (limit + 1).toInt = limit.toInt + 1 := by
    rw [Int64.toInt_add]
    exact Int.bmod_eq_of_le (by simp; omega) (by simp; omega)
  have hnonneg : ¬ limit + 1 < 0 := by
    rw [Int64.lt_iff_toInt_lt, hfetch]
    simp
    omega
  have hlimit : ¬ limit < 0 := by
    rw [Int64.lt_iff_toInt_lt]
    exact not_lt.2 h0
  unfold list listMessages
  simp only [hnonneg, if_false, hfetch, hlimit]
  rw [show (limit.toInt + 1).toNat = limit.toInt.toNat + 1 from by omega]
  generalize ((db.messages.select fun m => m.roomId = roomId && beforeCursor before beforeId m).insertionSort
    fun m n => newestFirst m n) = rows
  by_cases hmore : limit.toInt < (rows.take (limit.toInt.toNat + 1)).length
  · rw [if_pos hmore, if_pos (by omega)]
  · rw [if_neg hmore, if_neg (by omega), @List.take_of_length_le _ _ (rows.take _) (by omega)]
    rfl

/-! ## Keyset order -/

/-- What messages are ordered by. -/
def keyOf (m : Message) : Timestamp ×ₗ Nat := toLex (m.createdAt, m.id.uuid.toNat)

/-- The messages of a room. -/
def roomMessages (db : Db) (roomId : RoomId) : List Message := db.messages.select fun m => m.roomId = roomId

theorem keyOf_lt {m n : Message} :
    keyOf m < keyOf n ↔ m.createdAt < n.createdAt ∨ m.createdAt = n.createdAt ∧ m.id.uuid.toNat < n.id.uuid.toNat :=
  Prod.Lex.toLex_lt_toLex

theorem newestFirst_iff {m n : Message} : newestFirst m n = true ↔ keyOf n ≤ keyOf m := by
  unfold newestFirst keyOf
  rw [Prod.Lex.toLex_le_toLex]
  simp

theorem rows_eq (db : Db) (roomId : RoomId) (before : Option Timestamp) (beforeId : Option MessageId) (cursor : Option (Timestamp ×ₗ Nat))
    (h : ∀ m, beforeCursor before beforeId m = cursor.all fun c => decide (keyOf m < c)) :
    ((db.messages.select fun m => m.roomId = roomId && beforeCursor before beforeId m).insertionSort fun m n => newestFirst m n) =
      Keyset.rows keyOf cursor (roomMessages db roomId) :=
  Keyset.insertionSort_eq_rows (fun m n => @newestFirst_iff m n) h db.messages.rows

/-- A page of the repository is a keyset page, its cursor the key of its last message. -/
theorem listMessages_eq (db : Db) (roomId : RoomId) (before : Option Timestamp) (beforeId : Option MessageId) (limit : Nat)
    (cursor : Option (Timestamp ×ₗ Nat)) (h : ∀ m, beforeCursor before beforeId m = cursor.all fun c => decide (keyOf m < c)) :
    (listMessages db roomId before beforeId limit).messages = (Keyset.page keyOf limit cursor (roomMessages db roomId)).1 ∧
      ∃ last : Option Message, (listMessages db roomId before beforeId limit).nextBefore = last.map (·.createdAt) ∧
        (listMessages db roomId before beforeId limit).nextBeforeId = last.map (·.id) ∧
        (Keyset.page keyOf limit cursor (roomMessages db roomId)).2 = last.map keyOf := by
  unfold listMessages Keyset.page
  rw [rows_eq db roomId before beforeId cursor h]
  refine ⟨rfl, _, rfl, rfl, ?_⟩
  simp only
  split <;> rfl

/-! ## Following the cursor -/

/-- The cursor of a message. -/
theorem beforeCursor_some (m n : Message) :
    beforeCursor (some n.createdAt) (some n.id) m = (some (keyOf n)).all fun c => decide (keyOf m < c) := by
  rw [Option.all_some, Bool.eq_iff_iff, decide_eq_true_eq, keyOf_lt]
  simp [beforeCursor]

/-- Any cursor of the repository is one of the keyset. -/
theorem exists_cursor (before : Option Timestamp) (beforeId : Option MessageId) : ∃ cursor : Option (Timestamp ×ₗ Nat),
    ∀ m, beforeCursor before beforeId m = cursor.all fun c => decide (keyOf m < c) := by
  rcases before with _ | t
  · exact ⟨none, fun m => rfl⟩
  · rcases beforeId with _ | i
    · refine ⟨some (toLex (t, 0)), fun m => ?_⟩
      rw [Option.all_some, Bool.eq_iff_iff, decide_eq_true_eq]
      refine Iff.trans ?_ Prod.Lex.toLex_lt_toLex.symm
      simp [beforeCursor]
    · refine ⟨some (toLex (t, i.uuid.toNat)), fun m => ?_⟩
      rw [Option.all_some, Bool.eq_iff_iff, decide_eq_true_eq]
      refine Iff.trans ?_ Prod.Lex.toLex_lt_toLex.symm
      simp [beforeCursor]

theorem follow_eq {limit : Int64} (h0 : 0 ≤ limit) (hmax : limit < Int64.maxValue) (dbs : Nat → Db) (roomId : RoomId) (fuel k : Nat)
    (before : Option Timestamp) (beforeId : Option MessageId) (cursor : Option (Timestamp ×ₗ Nat))
    (h : ∀ m, beforeCursor before beforeId m = cursor.all fun c => decide (keyOf m < c)) :
    follow dbs roomId limit fuel k before beforeId =
      Keyset.follow keyOf limit.toInt.toNat (fun k => roomMessages (dbs k) roomId) fuel k cursor := by
  induction fuel generalizing k before beforeId cursor with
  | zero => rfl
  | succ fuel ih =>
    obtain ⟨hpage, last, hbefore, hbeforeId, hcursor⟩ := listMessages_eq (dbs k) roomId before beforeId limit.toInt.toNat cursor h
    rw [follow, list_eq h0 hmax, Keyset.follow]
    simp only [hbefore, hbeforeId, hpage]
    rcases hkeyset : Keyset.page keyOf limit.toInt.toNat cursor (roomMessages (dbs k) roomId) with ⟨items, next⟩
    rw [hkeyset] at hcursor
    simp only at hcursor
    subst hcursor
    cases last with
    | none => rfl
    | some m =>
      simp only [Option.map_some]
      rw [ih (k + 1) (some m.createdAt) (some m.id) (some (keyOf m)) fun n => beforeCursor_some n m]

/-- Messages that come and stay: those of the room at the first request are there at every later one, and the others are
later than all of them. -/
structure OnlyLater (dbs : Nat → Db) (roomId : RoomId) : Prop where
  kept : ∀ k, ∀ m ∈ (dbs 0).messages.rows, m.roomId = roomId → m ∈ (dbs k).messages.rows
  later : ∀ k, ∀ m ∈ (dbs k).messages.rows, m.roomId = roomId →
    m ∈ (dbs 0).messages.rows ∨ ∀ n ∈ (dbs 0).messages.rows, n.roomId = roomId → n.createdAt < m.createdAt

theorem mem_roomMessages {db : Db} {roomId : RoomId} {m : Message} :
    m ∈ roomMessages db roomId ↔ m ∈ db.messages.rows ∧ m.roomId = roomId := by
  unfold roomMessages
  rw [Table.mem_select, decide_eq_true_iff]

theorem nodup_keys (db : Db) (roomId : RoomId) : ((roomMessages db roomId).map keyOf).Nodup := by
  have hids : ((roomMessages db roomId).map key).Nodup := db.messages.nodup.sublist (List.filter_sublist.map _)
  refine List.Nodup.of_map (fun c => (⟨BitVec.ofNat 128 (ofLex c).2⟩ : MessageId)) ?_
  rw [List.map_map]
  convert hids using 1
  refine List.map_congr_left fun m _ => ?_
  show (⟨BitVec.ofNat 128 m.id.uuid.toNat⟩ : MessageId) = m.id
  rw [BitVec.ofNat_toNat, BitVec.setWidth_eq]

/-- A message past the cursor is on the page, or past the cursor of the next one. -/
theorem mem_page_or_before {db : Db} {roomId : RoomId} {before : Option Timestamp} {beforeId : Option MessageId} {limit : Nat} {m : Message}
    (hlimit : 0 < limit) (hm : m ∈ roomMessages db roomId) (hbefore : beforeCursor before beforeId m = true) :
    m ∈ (listMessages db roomId before beforeId limit).messages ∨
      ∃ t i, (listMessages db roomId before beforeId limit).nextBefore = some t ∧
        (listMessages db roomId before beforeId limit).nextBeforeId = some i ∧ beforeCursor (some t) (some i) m = true := by
  obtain ⟨cursor, hcursor⟩ := exists_cursor before beforeId
  obtain ⟨hpage, last, hnext, hnextId, hkey⟩ := listMessages_eq db roomId before beforeId limit cursor hcursor
  have hlt : ∀ c, cursor = some c → keyOf m < c := by
    rintro c rfl
    rw [hcursor, Option.all_some] at hbefore
    exact of_decide_eq_true hbefore
  rw [hpage]
  refine (Keyset.mem_page_or_next (nodup_keys db roomId) hlimit hm hlt).imp_right ?_
  rintro ⟨next, hsome, hless⟩
  rw [hkey] at hsome
  obtain ⟨n, rfl, rfl⟩ := Option.map_eq_some_iff.1 hsome
  refine ⟨n.createdAt, n.id, hnext, hnextId, ?_⟩
  rw [beforeCursor_some, Option.all_some]
  exact decide_eq_true hless

theorem nodup_ids_page (db : Db) (roomId : RoomId) (before : Option Timestamp) (beforeId : Option MessageId) (limit : Nat) :
    ((listMessages db roomId before beforeId limit).messages.map (·.id)).Nodup := by
  unfold listMessages
  have hrows : ((db.messages.select fun m => m.roomId = roomId && beforeCursor before beforeId m).map (·.id)).Nodup :=
    db.messages.nodup.sublist (List.filter_sublist.map _)
  have hperm := List.perm_insertionSort (fun m n : Message => newestFirst m n = true)
    (db.messages.select fun m => m.roomId = roomId && beforeCursor before beforeId m)
  refine ((hperm.map (·.id)).nodup_iff.2 hrows).sublist ?_
  exact ((List.take_sublist _ _).trans (List.take_sublist _ _)).map _

theorem mem_room_of_mem_page {db : Db} {roomId : RoomId} {before : Option Timestamp} {beforeId : Option MessageId} {limit : Nat} {m : Message}
    (h : m ∈ (listMessages db roomId before beforeId limit).messages) : m ∈ roomMessages db roomId := by
  obtain ⟨cursor, hcursor⟩ := exists_cursor before beforeId
  rw [(listMessages_eq db roomId before beforeId limit cursor hcursor).1] at h
  exact Keyset.mem_of_mem_page h

theorem OnlyLater.higher {dbs : Nat → Db} {roomId : RoomId} (h : OnlyLater dbs roomId) :
    Keyset.OnlyHigher keyOf fun k => roomMessages (dbs k) roomId where
  nodup k := nodup_keys (dbs k) roomId
  kept k m hm := by
    obtain ⟨hm, hroom⟩ := mem_roomMessages.1 hm
    exact mem_roomMessages.2 ⟨h.kept k m hm hroom, hroom⟩
  higher k m hm := by
    obtain ⟨hm, hroom⟩ := mem_roomMessages.1 hm
    rcases h.later k m hm hroom with hold | hnew
    · exact .inl (mem_roomMessages.2 ⟨hold, hroom⟩)
    · refine .inr fun n hn => keyOf_lt.2 (.inl ?_)
      obtain ⟨hn, hnroom⟩ := mem_roomMessages.1 hn
      exact hnew n hn hnroom

/-- For every content of a room and every limit the page can be counted for: following the cursor ends, and has then
visited every message there was at the first request once, newest first, whatever later messages came meanwhile. -/
theorem history_visits (dbs : Nat → Db) (roomId : RoomId) (limit : Int64) (h1 : 1 ≤ limit) (hmax : limit < Int64.maxValue)
    (hlater : OnlyLater dbs roomId) :
    ∃ fuel visited, follow dbs roomId limit fuel 0 none none = some visited ∧ visited.Perm (roomMessages (dbs 0) roomId) ∧
      visited.Pairwise fun m n => n.createdAt < m.createdAt ∨ n.createdAt = m.createdAt ∧ n.id.uuid.toNat < m.id.uuid.toNat := by
  have hone : 1 ≤ limit.toInt := Int64.le_iff_toInt_le.1 h1
  have h0 : 0 ≤ limit := Int64.le_iff_toInt_le.2 (le_trans (by decide) hone)
  refine ⟨(roomMessages (dbs 0) roomId).length + 1, Keyset.rows keyOf none (roomMessages (dbs 0) roomId), ?_, ?_, ?_⟩
  · rw [follow_eq h0 hmax dbs roomId _ 0 none none none fun m => rfl]
    exact Keyset.follow_eq hlater.higher (by omega)
  · exact Keyset.perm_rows_none
  · exact (Keyset.descending hlater.higher).imp fun hlt => keyOf_lt.1 hlt

def said (id : BitVec 128) (createdAt : Timestamp) : Message :=
  { id := ⟨id⟩, roomId := ⟨1⟩, authorId := ⟨1⟩, content := "hi", replyToId := none, isAnonymous := false, editedAt := none, createdAt }

/-- A room of three messages, two of them of one instant, and what comes while it is read. -/
def conversation : Nat → Db
  | 0 => { Db.empty 20 with messages := ((Table.empty.insert (said 1 5)).insert (said 2 9)).insert (said 3 9) }
  | _ + 1 => { Db.empty 20 with messages := (((Table.empty.insert (said 1 5)).insert (said 2 9)).insert (said 3 9)).insert (said 4 12) }

theorem onlyLater_conversation : OnlyLater conversation ⟨1⟩ := by
  have hkept : ∀ m ∈ (conversation 0).messages.rows, m.roomId = ⟨1⟩ → m ∈ (conversation 1).messages.rows := by decide
  have hlater : ∀ m ∈ (conversation 1).messages.rows, m.roomId = ⟨1⟩ →
      m ∈ (conversation 0).messages.rows ∨ ∀ n ∈ (conversation 0).messages.rows, n.roomId = ⟨1⟩ → n.createdAt < m.createdAt := by
    decide
  constructor
  · intro k
    cases k with
    | zero => exact fun m hm _ => hm
    | succ k => exact hkept
  · intro k
    cases k with
    | zero => exact fun m hm _ => .inl hm
    | succ k => exact hlater

theorem history_visits_conversation :
    ∃ fuel visited, follow conversation ⟨1⟩ 2 fuel 0 none none = some visited ∧ visited.Perm (roomMessages (conversation 0) ⟨1⟩) ∧
      visited.Pairwise fun m n => n.createdAt < m.createdAt ∨ n.createdAt = m.createdAt ∧ n.id.uuid.toNat < m.id.uuid.toNat :=
  history_visits conversation ⟨1⟩ 2 (by decide) (by decide) onlyLater_conversation

/-- One more than the largest limit is negative: the first page is refused. -/
theorem largest_limit_refused :
    (1 : Int64) ≤ Int64.maxValue ∧ OnlyLater conversation ⟨1⟩ ∧
      ¬ ∃ fuel visited, follow conversation ⟨1⟩ Int64.maxValue fuel 0 none none = some visited := by
  refine ⟨by decide, onlyLater_conversation, ?_⟩
  rintro ⟨fuel, visited, h⟩
  cases fuel with
  | zero => cases h
  | succ fuel =>
    have hrefused : list (conversation 0) ⟨1⟩ none none Int64.maxValue = .error .database := by
      unfold list
      exact if_pos (by decide)
    rw [follow, hrefused] at h
    cases h

end Genzh.Messaging
