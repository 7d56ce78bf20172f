/-
The playground feed, as a column of cards: a live public room, its host, and a few of the faces that are in it. The rooms
come from one query, the faces from another, and the profiles behind both from a third.

`one_scope_paged`: the feed, the other listings and the candidates of the recommender all stay within one scope, and
following the offsets of the feed through a table that does not change visits each room of it once.
-/
import Genzh.Room.Feed
import Genzh.Room.Request
import Genzh.Recommend.Surfaces

namespace Genzh.Api

open Genzh.Lib Genzh.Domain Genzh.Infrastructure Genzh.Room Genzh.Recommend

/-! ## The endpoint -/

/-- How an account shows to others. -/
structure PublicProfile where
  id : UserId
  handle : String
  displayName : String
  avatarUrl : Option String
  deriving DecidableEq, Repr

/-- The handle and profile of an account, where it exists. -/
def identityOf (db : Db) (u : UserId) : Option PublicProfile :=
  (db.users.find u).bind fun row => (db.profiles.find row.id).map fun p =>
    { id := row.id, handle := row.handle, displayName := p.displayName, avatarUrl := p.avatarUrl }

/-- Resolve a batch of ids. Those that match nobody are simply absent. -/
def publicIdentities (db : Db) (ids : List UserId) : List PublicProfile := ids.filterMap (identityOf db)

/-- One card in the playground feed. -/
structure FeedRoomView where
  room : Room
  /-- Whoever started it, when they still have an account. -/
  host : Option PublicProfile
  /-- A few of the people in the room right now, oldest joiner first. -/
  faces : List PublicProfile
  deriving DecidableEq

/-- One page of the playground feed. -/
structure PlaygroundFeedResponse where
  rooms : List FeedRoomView
  /-- The offset to ask for next, or `none` at the end of the feed. -/
  nextOffset : Option Int
  deriving DecidableEq

structure FeedQuery where
  category : Option String
  limit : Option Int
  offset : Option Int
  deriving DecidableEq, Repr

/-- How many faces one feed card shows. -/
def feedFaceLimit : Nat := 5

/-- How many rooms one page of the feed carries. -/
def feedPageDefault : Int := 20

def feedLimit (limit : Option Int) : Int := max 1 (min 50 (limit.getD feedPageDefault))

/-- `GET /rooms/feed` -/
def playgroundFeed (db : Db) (query : FeedQuery) : PlaygroundFeedResponse :=
  let limit := feedLimit query.limit
  let offset := max 0 (query.offset.getD 0)
  let (rooms, faces) := Room.feed db query.category limit offset
  -- every id the page will render, hosts and faces alike, resolved together
  let wanted := (rooms.filterMap (·.ownerId) ++ faces.map Prod.snd).dedup
  let people := publicIdentities db wanted
  let person := fun id : UserId => people.find? fun p => p.id = id
  let seats := fun r : RoomId => ((faces.filter fun face => face.1 = r).filterMap fun face => person face.2).take feedFaceLimit
  { rooms := rooms.map fun room => { room, host := room.ownerId.bind person, faces := seats room.id }
    nextOffset := Offset.next rooms limit offset }

/-! ## One scope -/

section Scope

variable {db : Db} {s : ViewerSignals} {category : Option String} {limit : Int}

theorem discoverable_of_suggestible {row : RoomRow} (h : suggestible db s category row = true) : discoverable db.now row = true := by
  unfold suggestible at h
  unfold discoverable
  simp only [Bool.and_eq_true] at h ⊢
  obtain ⟨⟨⟨⟨⟨⟨⟨hactive, hpublic⟩, hstandalone⟩, hdirect⟩, hexpires⟩, -⟩, -⟩, -⟩ := h
  exact ⟨⟨⟨⟨hpublic, hactive⟩, hstandalone⟩, hdirect⟩, hexpires⟩

/-- The candidates of the recommender are rooms in scope. -/
theorem inScope_of_candidate {c : RoomCandidate} (h : c ∈ roomCandidates db s category limit) :
    ∃ row, db.room c.id = some row ∧ InScope db.now row.toRoom := by
  obtain ⟨row, hrow, rfl⟩ := List.mem_map.1 h
  obtain ⟨hmem, hsuggestible⟩ := Table.mem_select.1 ((List.mem_insertionSort _).1 (List.mem_of_mem_take hrow))
  exact ⟨row, Table.mem_iff_find.1 hmem, discoverable_iff.1 (discoverable_of_suggestible hsuggestible)⟩

/-- So are the rooms that are recommended for them. -/
theorem inScope_of_recommended {halving : ℚ → ℚ} {r : RoomRecommendation} (h : r ∈ recommendRooms halving db s category limit) :
    InScope db.now r.room := by
  obtain ⟨entry, hentry, row, hrow, hroom, -⟩ := mem_takeRooms h
  obtain ⟨row', hrow', hscope⟩ := inScope_of_candidate (item_mem_best hentry)
  have hsame : some row = some row' := hrow.symm.trans hrow'
  cases hsame
  rw [hroom]
  exact hscope

theorem rooms_playgroundFeed (db : Db) (query : FeedQuery) :
    (playgroundFeed db query).rooms.map (·.room) =
      listFeed db query.category (feedLimit query.limit) (max 0 (query.offset.getD 0)) := by
  unfold playgroundFeed Room.feed
  simp only [List.map_map]
  exact List.map_id _

theorem nextOffset_playgroundFeed (db : Db) (query : FeedQuery) :
    (playgroundFeed db query).nextOffset =
      Offset.next (listFeed db query.category (feedLimit query.limit) (max 0 (query.offset.getD 0))) (feedLimit query.limit)
        (max 0 (query.offset.getD 0)) := rfl

theorem inScope_of_card {query : FeedQuery} {card : FeedRoomView} (h : card ∈ (playgroundFeed db query).rooms) :
    InScope db.now card.room := by
  have hroom : card.room ∈ (playgroundFeed db query).rooms.map (·.room) := List.mem_map.2 ⟨card, h, rfl⟩
  rw [rooms_playgroundFeed] at hroom
  exact inScope_of_listFeed hroom

/-! ## What a card shows -/

theorem id_identityOf {u : UserId} {person : PublicProfile} (h : identityOf db u = some person) : person.id = u := by
  obtain ⟨row, hrow, h⟩ := Option.bind_eq_some_iff.1 h
  obtain ⟨p, -, rfl⟩ := Option.map_eq_some_iff.1 h
  exact Table.find_key hrow

/-- Among the ids that were asked for, everybody finds their own. -/
theorem find_publicIdentities {ids : List UserId} {u : UserId} (h : u ∈ ids) :
    ((publicIdentities db ids).find? fun p => p.id = u) = identityOf db u := by
  have hother : ∀ v, ((identityOf db v).any fun p => p.id = u) = true ↔ v = u ∧ (identityOf db u).isSome = true := by
    intro v
    rw [Option.any_eq_true, Option.isSome_iff_exists]
    constructor
    · rintro ⟨person, hperson, hid⟩
      obtain rfl : v = u := (id_identityOf hperson).symm.trans (of_decide_eq_true hid)
      exact ⟨rfl, person, hperson⟩
    · rintro ⟨rfl, person, hperson⟩
      exact ⟨person, hperson, decide_eq_true (id_identityOf hperson)⟩
  unfold publicIdentities
  rw [List.find?_filterMap]
  rcases hu : identityOf db u with _ | person
  · rw [List.find?_eq_none.2 fun v _ hv => by rw [hother, hu] at hv; cases hv.2]
    rfl
  · have hfound : (ids.find? fun v => (identityOf db v).any fun p => p.id = u).isSome = true :=
      List.find?_isSome.2 ⟨u, h, (hother u).2 ⟨rfl, by rw [hu]; rfl⟩⟩
    obtain ⟨v, hv⟩ := Option.isSome_iff_exists.1 hfound
    obtain ⟨rfl, -⟩ := (hother v).1 (List.find?_some (p := fun v => (identityOf db v).any fun p => p.id = u) hv)
    rw [hv, Option.bind_some, hu]

/-- A card shows the host as they are known in public, and the first seats of the room. -/
theorem card_eq {query : FeedQuery} {card : FeedRoomView} (h : card ∈ (playgroundFeed db query).rooms) :
    card.host = card.room.ownerId.bind (identityOf db) ∧
    card.faces = (seats db card.room.id feedFaceLimit).filterMap fun p => identityOf db p.userId := by
  obtain ⟨room, hroom, rfl⟩ := List.mem_map.1 h
  have hid : room.id ∈ (listFeed db query.category (feedLimit query.limit) (max 0 (query.offset.getD 0))).map (·.id) :=
    List.mem_map.2 ⟨room, hroom, rfl⟩
  constructor
  · simp only
    rcases howner : room.ownerId with _ | u
    · rfl
    · refine find_publicIdentities (List.mem_dedup.2 (List.mem_append_left _ ?_))
      exact List.mem_filterMap.2 ⟨room, hroom, howner⟩
  · simp only [filter_previewParticipants 5 (nodup_listFeed _ _ _ _) hid, List.filterMap_map]
    -- every face that is looked up was among those asked for, and there are no more than a card shows
    have hfound : ∀ p ∈ seats db room.id 5, p.userId ∈ ((listFeed db query.category (feedLimit query.limit)
        (max 0 (query.offset.getD 0))).filterMap (·.ownerId) ++ (previewParticipants db ((listFeed db query.category
          (feedLimit query.limit) (max 0 (query.offset.getD 0))).map (·.id)) 5).map Prod.snd).dedup := by
      intro p hp
      refine List.mem_dedup.2 (List.mem_append_right _ (List.mem_map.2 ⟨(room.id, p.userId), ?_, rfl⟩))
      exact List.mem_flatMap.2 ⟨room.id, hid, List.mem_map.2 ⟨p, hp, rfl⟩⟩
    rw [List.take_of_length_le]
    · exact List.filterMap_congr fun p hp => find_publicIdentities (hfound p hp)
    · refine (List.length_filterMap_le _ _).trans ?_
      unfold seats
      exact List.length_take_le ..

/-! ## Page by page -/

/-- The rooms and the next offset that the `k`-th request for a page gets, where it asks for so many rooms. -/
def feedPages (dbs : Nat → Db) (category : Option String) (limits : Nat → Option Int) (k : Nat) (offset : Int) :
    List Room × Option Int :=
  let response := playgroundFeed (dbs k) { category, limit := limits k, offset := some offset }
  (response.rooms.map (·.room), response.nextOffset)

theorem feedLimit_pos (limit : Option Int) : 0 < feedLimit limit := by
  unfold feedLimit
  omega

/-- A page is a window of the feed. -/
theorem feedPages_eq {dbs : Nat → Db} {limits : Nat → Option Int} {k : Nat} {offset : Int} (hoffset : 0 ≤ offset)
    (hsame : feedRows (dbs k) category = feedRows (dbs 0) category) :
    feedPages dbs category limits k offset =
      (Offset.window ((feedRows (dbs 0) category).map (·.toRoom)) (feedLimit (limits k)) offset,
        Offset.next (Offset.window ((feedRows (dbs 0) category).map (·.toRoom)) (feedLimit (limits k)) offset)
          (feedLimit (limits k)) offset) := by
  have hlist : listFeed (dbs k) category (feedLimit (limits k)) offset =
      Offset.window ((feedRows (dbs 0) category).map (·.toRoom)) (feedLimit (limits k)) offset := by
    unfold listFeed Offset.window
    rw [hsame, List.map_take, List.map_drop]
  have hmax : max 0 offset = offset := max_eq_right hoffset
  simp only [feedPages, rooms_playgroundFeed, nextOffset_playgroundFeed, Option.getD_some, hmax, hlist]

/-- The feed, discovery, the trending and live lists, the dice and the recommender's candidates show rooms of one scope
only. And where the rooms stay as they are, and none of them expires in between, following the offsets of the feed from 0,
with pages of whatever size, visits every room in scope, of the category asked for, exactly once, and ends. -/
theorem one_scope_paged :
    (∀ db : Db,
      (∀ query, ∀ card ∈ (playgroundFeed db query).rooms, InScope db.now card.room) ∧
      (∀ category limit, ∀ r ∈ listDiscovery db category limit, InScope db.now r) ∧
      (∀ limit, ∀ r ∈ listTrending db limit, InScope db.now r) ∧
      (∀ limit, ∀ r ∈ listLive db limit, InScope db.now r) ∧
      (∀ category roomType draw, ∀ r, findRandom db category roomType draw = some r → InScope db.now r) ∧
      (∀ s category limit, ∀ c ∈ roomCandidates db s category limit, ∃ row, db.room c.id = some row ∧ InScope db.now row.toRoom) ∧
      (∀ halving s category limit, ∀ r ∈ recommendRooms halving db s category limit, InScope db.now r.room)) ∧
    (∀ (dbs : Nat → Db) (category : Option String) (limits : Nat → Option Int),
      (∀ k, (dbs k).rooms = (dbs 0).rooms) →
      (∀ k, ∀ row ∈ (dbs 0).rooms.rows, discoverable (dbs k).now row = discoverable (dbs 0).now row) →
      ∀ fuel, (dbs 0).rooms.rows.length < fuel → ∃ visited,
        Offset.follow (feedPages dbs category limits) fuel 0 0 = some visited ∧ (visited.map (·.id)).Nodup ∧
        ∀ r, r ∈ visited ↔ ∃ row ∈ (dbs 0).rooms.rows, row.toRoom = r ∧ InScope (dbs 0).now r ∧ inCategory category row = true) := by
  constructor
  · intro db
    refine ⟨fun query card => inScope_of_card, fun category limit r => inScope_of_listCrowded,
      fun limit r => inScope_of_listCrowded, fun limit r => inScope_of_listCrowded,
      fun category roomType draw r => inScope_of_findRandom, fun s category limit c => inScope_of_candidate,
      fun halving s category limit r => inScope_of_recommended⟩
  · intro dbs category limits hrooms hscope fuel hfuel
    have hsame : ∀ k, feedRows (dbs k) category = feedRows (dbs 0) category := fun k => feedRows_congr (hrooms k) (hscope k)
    obtain ⟨rows, hrows⟩ : ∃ rows, rows = (feedRows (dbs 0) category).map (·.toRoom) := ⟨_, rfl⟩
    have hpage : ∀ k offset, 0 ≤ offset → feedPages dbs category limits k offset =
        (Offset.window rows (feedLimit (limits k)) offset,
          Offset.next (Offset.window rows (feedLimit (limits k)) offset) (feedLimit (limits k)) offset) := by
      rw [hrows]
      exact fun k offset hoffset => feedPages_eq hoffset (hsame k)
    have hlength : rows.length ≤ (dbs 0).rooms.rows.length := by
      rw [hrows, List.length_map]
      exact length_feedRows_le (dbs 0) category
    have hfollow := Offset.follow_eq hpage (fun k => feedLimit_pos (limits k)) (k := 0) (le_refl 0)
      (Nat.zero_lt_of_lt hfuel) (lt_of_le_of_lt hlength (Nat.lt_add_right _ hfuel))
    rw [Int.toNat_zero, List.drop_zero, hrows] at hfollow
    refine ⟨_, hfollow, ?_, fun r => ?_⟩
    · rw [List.map_map]
      exact nodup_feedRows (dbs 0) category
    · constructor
      · intro hr
        obtain ⟨row, hrow, rfl⟩ := List.mem_map.1 hr
        obtain ⟨hmem, hin, hcategory⟩ := mem_feedRows.1 hrow
        exact ⟨row, hmem, rfl, hin, hcategory⟩
      · rintro ⟨row, hmem, rfl, hin, hcategory⟩
        exact List.mem_map.2 ⟨row, mem_feedRows.2 ⟨hmem, hin, hcategory⟩, rfl⟩

end Scope

/-- `ana` opens two rooms. -/
def denAndAttic : Db :=
  run Room.step (Db.empty 0)
    [.register (account ⟨2⟩ "ana"), .create ⟨10⟩ none ⟨2⟩ { name := "den", roomType := .text },
      .create ⟨11⟩ none ⟨2⟩ { name := "attic", roomType := .voice }]

/-- Read one by one, the feed has both. -/
theorem two_rooms_paged : ∃ visited,
    Offset.follow (feedPages (fun _ => denAndAttic) none fun _ => some 1) 3 0 0 = some visited ∧ (visited.map (·.id)).Nodup ∧
    ∀ r, r ∈ visited ↔
      ∃ row ∈ denAndAttic.rooms.rows, row.toRoom = r ∧ InScope denAndAttic.now r ∧ inCategory none row = true :=
  one_scope_paged.2 (fun _ => denAndAttic) none (fun _ => some 1) (fun _ => rfl) (fun _ _ _ => rfl) 3 (by decide +kernel)

end Genzh.Api
