/-
What the playground shows to somebody who is in none of its rooms: the queries behind the feed, the discovery page, the
trending and live lists and the dice. They are one query in one scope, with filters and an order of their own; only the
feed's order leaves nothing open, since it is read page by page.
-/
import Genzh.Room.Repository
import Genzh.Lib.Keyset

namespace Genzh.Room

open Genzh.Lib Genzh.Domain Genzh.Infrastructure

/-! ## The scope -/

/-- A standalone public room that has not expired. A direct conversation is never one of them. -/
def discoverable (now : Timestamp) (r : RoomRow) : Bool :=
  r.visibility = .public && r.status = .active && r.communityId.isNone && r.category ≠ directCategory &&
    r.expiresAt.all fun expires => now < expires

/-- What being in the scope means for a room. An active room has not ended. -/
structure InScope (now : Timestamp) (r : Room) : Prop where
  isPublic : r.visibility = .public
  active : r.status = .active
  standalone : r.communityId = none
  notDirect : r.isDirect = false
  notExpired : r.isExpired now = false

theorem discoverable_iff {now : Timestamp} {r : RoomRow} : discoverable now r = true ↔ InScope now r.toRoom := by
  have hexpired : (r.expiresAt.all fun expires => now < expires) = !r.toRoom.isExpired now := by
    unfold Room.isExpired
    cases r.expiresAt with
    | none => rfl
    | some expires => simp [← decide_not]
  have hdirect : decide (r.category ≠ directCategory) = !r.toRoom.isDirect := decide_not
  unfold discoverable
  rw [hexpired, hdirect]
  constructor
  · intro h
    simp only [Bool.and_eq_true, decide_eq_true_eq, Bool.not_eq_true'] at h
    obtain ⟨⟨⟨⟨hpublic, hactive⟩, hstandalone⟩, hdirect⟩, hexpired⟩ := h
    exact ⟨hpublic, hactive, Option.isNone_iff_eq_none.1 hstandalone, hdirect, hexpired⟩
  · intro h
    simp [h.isPublic, h.active, h.standalone, h.notDirect, h.notExpired]

/-! ## The queries -/

/-- `ORDER BY current_participants DESC, created_at DESC` -/
def crowdedFirst (a b : RoomRow) : Bool :=
  b.currentParticipants < a.currentParticipants ||
    (a.currentParticipants = b.currentParticipants && b.createdAt ≤ a.createdAt)

/-- A room with somebody in it beats an empty one outright; then come the busiest and the freshest. -/
def feedFirst (a b : RoomRow) : Bool :=
  (0 < a.currentParticipants && b.currentParticipants ≤ 0) ||
    (decide (0 < a.currentParticipants) = decide (0 < b.currentParticipants) &&
      (b.currentParticipants < a.currentParticipants ||
        (a.currentParticipants = b.currentParticipants &&
          (b.createdAt < a.createdAt || (a.createdAt = b.createdAt && a.id.uuid.toNat ≤ b.id.uuid.toNat)))))

/-- The rooms in scope that a filter lets through. -/
def listed (db : Db) (p : RoomRow → Bool) : List RoomRow := db.rooms.select fun r => discoverable db.now r && p r

def inCategory (category : Option String) (r : RoomRow) : Bool := category.all fun c => r.category = c

/-- The most crowded of the rooms in scope that a filter lets through. -/
def listCrowded (db : Db) (p : RoomRow → Bool) (limit : Int) : List Room :=
  (((listed db p).insertionSort fun a b => crowdedFirst a b).take limit.toNat).map (·.toRoom)

/-- List public rooms for playground discovery. -/
def listDiscovery (db : Db) (category : Option String) (limit : Int) : List Room := listCrowded db (inCategory category) limit

/-- List trending rooms by engagement score. -/
def listTrending (db : Db) (limit : Int) : List Room := listCrowded db (fun _ => true) limit

/-- List live voice, video, stage and game rooms. -/
def listLive (db : Db) (limit : Int) : List Room :=
  listCrowded db (fun r => r.roomType ∈ [.voice, .video, .stage, .game]) limit

/-- The rooms of the feed, in swipe order. -/
def feedRows (db : Db) (category : Option String) : List RoomRow :=
  (listed db (inCategory category)).insertionSort fun a b => feedFirst a b

/-- One page of the playground feed. -/
def listFeed (db : Db) (category : Option String) (limit offset : Int) : List Room :=
  (Offset.window (feedRows db category) limit offset).map (·.toRoom)

/-- Find a random active public room for one-click matchmaking; `draw` is the one that comes first at random. -/
def findRandom (db : Db) (category : Option String) (roomType : Option RoomType) (draw : Nat) : Option Room :=
  let rows := listed db fun r => inCategory category r && roomType.all fun t => r.roomType = t
  (rows[draw % rows.length]?).map (·.toRoom)

/-- The first seats of a room, oldest joiner first. Anonymous participants have none. -/
def seats (db : Db) (r : RoomId) (perRoom : Nat) : List RoomParticipant :=
  ((db.roomParticipants.select fun p => p.roomId = r && !p.isAnonymous).insertionSort
    fun p q => p.joinedAt ≤ q.joinedAt).take perRoom

/-- A few faces from each of the given rooms. -/
def previewParticipants (db : Db) (roomIds : List RoomId) (perRoom : Nat) : List (RoomId × UserId) :=
  roomIds.flatMap fun r => (seats db r perRoom).map fun p => (r, p.userId)

/-- One page of the playground feed, with a few faces from each room. -/
def feed (db : Db) (category : Option String) (limit offset : Int) : List Room × List (RoomId × UserId) :=
  let rooms := listFeed db category limit offset
  (rooms, previewParticipants db (rooms.map (·.id)) 5)

/-! ## In scope -/

section Scope

variable {db : Db} {r : Room} {category : Option String} {limit offset : Int}

theorem mem_listed {p : RoomRow → Bool} {row : RoomRow} :
    row ∈ listed db p ↔ row ∈ db.rooms.rows ∧ InScope db.now row.toRoom ∧ p row = true := by
  unfold listed
  rw [Table.mem_select, Bool.and_eq_true, discoverable_iff]

theorem inScope_of_listCrowded {p : RoomRow → Bool} (h : r ∈ listCrowded db p limit) : InScope db.now r := by
  obtain ⟨row, hrow, rfl⟩ := List.mem_map.1 h
  exact (mem_listed.1 ((List.mem_insertionSort _).1 (List.mem_of_mem_take hrow))).2.1

theorem mem_feedRows {row : RoomRow} :
    row ∈ feedRows db category ↔ row ∈ db.rooms.rows ∧ InScope db.now row.toRoom ∧ inCategory category row = true :=
  (List.mem_insertionSort _).trans mem_listed

theorem inScope_of_listFeed (h : r ∈ listFeed db category limit offset) : InScope db.now r := by
  obtain ⟨row, hrow, rfl⟩ := List.mem_map.1 h
  exact (mem_feedRows.1 (List.mem_of_mem_drop (List.mem_of_mem_take hrow))).2.1

theorem inScope_of_findRandom {roomType : Option RoomType} {draw : Nat} (h : findRandom db category roomType draw = some r) :
    InScope db.now r := by
  obtain ⟨row, hrow, rfl⟩ := Option.map_eq_some_iff.1 h
  exact (mem_listed.1 (List.mem_of_getElem? hrow)).2.1

/-- No room is in the feed twice. -/
theorem nodup_feedRows (db : Db) (category : Option String) : ((feedRows db category).map fun r => r.id).Nodup := by
  have hperm := List.perm_insertionSort (fun a b => feedFirst a b) (listed db (inCategory category))
  have hlisted : ((listed db (inCategory category)).map fun r => r.id).Nodup :=
    db.rooms.nodup.sublist (List.filter_sublist.map _)
  exact (hperm.map _).nodup_iff.2 hlisted

theorem length_feedRows_le (db : Db) (category : Option String) : (feedRows db category).length ≤ db.rooms.rows.length := by
  unfold feedRows
  rw [List.length_insertionSort]
  exact List.length_filter_le ..

theorem nodup_listFeed (db : Db) (category : Option String) (limit offset : Int) :
    ((listFeed db category limit offset).map (·.id)).Nodup := by
  unfold listFeed Offset.window
  rw [List.map_map]
  exact (nodup_feedRows db category).sublist (((List.take_sublist _ _).trans (List.drop_sublist _ _)).map _)

/-- A seat is taken by somebody in the room who wears no persona there. -/
theorem mem_seats {room : RoomId} {perRoom : Nat} {p : RoomParticipant} (h : p ∈ seats db room perRoom) :
    db.roomParticipants.find (room, p.userId) = some p ∧ p.isAnonymous = false := by
  obtain ⟨hmem, hp⟩ := Table.mem_select.1 ((List.mem_insertionSort _).1 (List.mem_of_mem_take h))
  obtain ⟨hroom, hopen⟩ := Bool.and_eq_true _ _ ▸ hp
  obtain rfl := of_decide_eq_true hroom
  exact ⟨Table.mem_iff_find.1 hmem, Bool.not_eq_true' _ ▸ hopen⟩

/-- Of the faces of several rooms, those of one of them. -/
theorem filter_previewParticipants {roomIds : List RoomId} {room : RoomId} (perRoom : Nat) (hnodup : roomIds.Nodup)
    (hmem : room ∈ roomIds) : ((previewParticipants db roomIds perRoom).filter fun face => face.1 = room) =
      (seats db room perRoom).map fun p => (room, p.userId) := by
  induction roomIds with
  | nil => cases hmem
  | cons first rest ih =>
    obtain ⟨hfirst, hrest⟩ := List.nodup_cons.1 hnodup
    change ((((seats db first perRoom).map fun p => (first, p.userId)) ++ previewParticipants db rest perRoom).filter
      fun face => face.1 = room) = _
    rw [List.filter_append]
    by_cases hroom : first = room
    · subst hroom
      have hown : (((seats db first perRoom).map fun p => (first, p.userId)).filter fun face => face.1 = first) =
          (seats db first perRoom).map fun p => (first, p.userId) := by
        refine List.filter_eq_self.2 fun face hface => ?_
        obtain ⟨p, -, rfl⟩ := List.mem_map.1 hface
        exact decide_eq_true rfl
      have hother : ((previewParticipants db rest perRoom).filter fun face => face.1 = first) = [] := by
        refine List.filter_eq_nil_iff.2 fun face hface hsame => hfirst ?_
        obtain ⟨r, hr, hface⟩ := List.mem_flatMap.1 hface
        obtain ⟨p, -, rfl⟩ := List.mem_map.1 hface
        exact of_decide_eq_true hsame ▸ hr
      rw [hown, hother, List.append_nil]
    · have hnone : (((seats db first perRoom).map fun p => (first, p.userId)).filter fun face => face.1 = room) = [] := by
        refine List.filter_eq_nil_iff.2 fun face hface hsame => hroom ?_
        obtain ⟨p, -, rfl⟩ := List.mem_map.1 hface
        exact of_decide_eq_true hsame
      rw [hnone, List.nil_append]
      exact ih hrest ((List.mem_cons.1 hmem).resolve_left (Ne.symm hroom))

/-- The feed depends on nothing but the rooms, and on the clock only through what it lets expire. -/
theorem feedRows_congr {db' : Db} (hrooms : db'.rooms = db.rooms)
    (hscope : ∀ row ∈ db.rooms.rows, discoverable db'.now row = discoverable db.now row) :
    feedRows db' category = feedRows db category := by
  have hlisted : listed db' (inCategory category) = listed db (inCategory category) := by
    unfold listed Table.select
    rw [hrooms]
    refine List.filter_congr fun row hrow => ?_
    rw [hscope row hrow]
  unfold feedRows
  rw [hlisted]

end Scope

end Genzh.Room
