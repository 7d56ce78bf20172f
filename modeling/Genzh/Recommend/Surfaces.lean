/-
The three recommenders: moments to join, people to add, communities to explore. Each takes what is known about the viewer,
selects its candidates with every count they are ranked by in one query, ranks them and keeps the best. What somebody must
not be shown is left out by the query and never by the ranking.

Where the database leaves the order of rows open, theirs is the order of insertion.
-/
import Genzh.Recommend.Score
import Genzh.Infrastructure.Db

namespace Genzh.Recommend

open Genzh.Lib Genzh.Domain Genzh.Infrastructure

/-- The most recommendations any one call will return. -/
def maxResults : Int := 50

/-- What a caller gets when it does not say. -/
def defaultResults : Int := 12

/-- How many of a recommender's best are kept. -/
def clampResults (limit : Int) : Int := max 1 (min maxResults limit)

/-! ## The viewer -/

/-- The one of a pair who is not `u`. -/
def otherOf (u : UserId) (f : Friendship) : UserId := if f.requesterId = u then f.addresseeId else f.requesterId

def involves (u : UserId) (f : Friendship) : Bool := f.requesterId = u || f.addresseeId = u

/-- Accepted friends, both directions. -/
def friendsOf (db : Db) (viewer : UserId) : List UserId :=
  (db.friendships.select fun f => f.status = .accepted && involves viewer f).map (otherOf viewer)

/-- Communities the viewer belongs to. -/
def communitiesOf (db : Db) (viewer : UserId) : List CommunityId :=
  (db.communityMembers.select fun m => m.userId = viewer).map (·.communityId)

/-- Rooms the viewer is in or has posted in, with their categories. -/
def roomsOf (db : Db) (viewer : UserId) : List (RoomId × String) :=
  (db.rooms.select fun r =>
    db.participates r.id viewer || db.messages.rows.any fun m => m.roomId = r.id && m.authorId = viewer).map
      fun r => (r.id, r.category)

/-- Who has blocked the viewer, or been blocked by them. -/
def blockedWith (db : Db) (viewer : UserId) : List UserId :=
  (db.blocks.select fun b => b.blockerId = viewer).map (·.blockedId) ++
    (db.blocks.select fun b => b.blockedId = viewer).map (·.blockerId)

/-- How strongly a viewer leans toward each category. -/
structure Affinity where
  share : String → ℚ
  /-- Rooms behind the affinity. -/
  observations : Nat

/-- The share of each category in the rooms of a viewer. -/
def Affinity.fromRooms (rooms : List (RoomId × String)) : Affinity where
  share category := ((rooms.map Prod.snd).count category : ℚ) / rooms.length
  observations := clampCount rooms.length

/-- Everything about the viewer that the recommenders score against. -/
structure ViewerSignals where
  viewer : UserId
  friends : List UserId
  communities : List CommunityId
  knownRooms : List RoomId
  affinity : Affinity
  /-- Accounts that must not appear, in either direction. -/
  excludedUsers : List UserId

/-- What the four queries make known. The viewer is never a recommendation for themselves. -/
def ViewerSignals.of (viewer : UserId) (friends : List UserId) (communities : List CommunityId)
    (rooms : List (RoomId × String)) (blocked : List UserId) : ViewerSignals where
  viewer := viewer
  friends := friends
  communities := communities
  knownRooms := rooms.map Prod.fst
  affinity := .fromRooms rooms
  excludedUsers := viewer :: blocked

/-- Order by several keys, the first one that differs deciding: each a pair of what should be larger and what smaller. -/
def largestFirst : List (Int × Int) → Bool
  | [] => true
  | (a, b) :: rest => b < a || (a = b && largestFirst rest)

/-! ## Communities -/

/-- Counts for one candidate community. -/
structure CommunityCandidate where
  id : CommunityId
  memberCount : Nat
  /-- Members here who are also in one of the viewer's communities. -/
  overlap : Nat
  /-- Friends of the viewer who are members. -/
  friends : Nat
  deriving DecidableEq, Repr

/-- A community to suggest, with why. -/
structure CommunityRecommendation where
  communityId : CommunityId
  memberCount : Nat
  score : ℚ
  reasons : List Reason
  deriving DecidableEq

/-- Everyone who shares a community with the viewer, blocked accounts dropped. -/
def peers (db : Db) (s : ViewerSignals) : List UserId :=
  ((db.communityMembers.select fun m =>
    s.communities.contains m.communityId && m.userId ≠ s.viewer && !s.excludedUsers.contains m.userId).map (·.userId)).dedup

/-- How many different members of a community satisfy `p`. -/
def membersWhere (db : Db) (c : CommunityId) (p : UserId → Bool) : Nat :=
  ((db.communityMembers.select fun m => m.communityId = c && p m.userId).map (·.userId)).dedup.length

def communityCandidates (db : Db) (s : ViewerSignals) (limit : Int) : List CommunityCandidate :=
  let eligible := db.communities.select fun c => !c.isQuarantined && !s.communities.contains c.id
  let candidates := eligible.map fun c =>
    { id := c.id, memberCount := db.communityMembers.count fun m => m.communityId = c.id
      overlap := membersWhere db c.id (peers db s).contains, friends := membersWhere db c.id s.friends.contains : CommunityCandidate }
  (candidates.insertionSort fun a b =>
    largestFirst [(a.overlap, b.overlap), (a.memberCount, b.memberCount), (-a.id.uuid.toNat, -b.id.uuid.toNat)]).take limit.toNat

def scoreCommunity (c : CommunityCandidate) : Scorer :=
  (((Scorer.new .default).count .sharedCommunity (clampCount c.overlap) 3).count .friendActivity (clampCount c.friends) 1).count
    .popularity (clampCount c.memberCount) 25

/-- Communities this viewer might want, best first. -/
def recommendCommunities (db : Db) (s : ViewerSignals) (limit : Int) : List CommunityRecommendation :=
  let limit := clampResults limit
  (best (·.id.uuid) scoreCommunity limit.toNat (communityCandidates db s (min (limit * 4) 200))).map fun entry =>
    { communityId := entry.item.id, memberCount := entry.item.memberCount, score := entry.score, reasons := entry.reasons }

/-! ## Rooms -/

/-- Counts for one candidate room. -/
structure RoomCandidate where
  id : RoomId
  category : String
  currentParticipants : Int
  startedAt : Option Timestamp
  /-- Distinct people in this room who share a community with the viewer. -/
  peers : Nat
  /-- Distinct friends of the viewer in this room. -/
  friends : Nat
  /-- Messages in the last day. -/
  recentMessages : Nat
  deriving DecidableEq, Repr

/-- A room to suggest, with why. -/
structure RoomRecommendation where
  room : Room
  score : ℚ
  reasons : List Reason
  deriving DecidableEq

/-- Is it a playground room the viewer may be sent to, and not one they already know? -/
def suggestible (db : Db) (s : ViewerSignals) (category : Option String) (r : RoomRow) : Bool :=
  r.status = .active && r.visibility = .public && r.communityId.isNone && r.category ≠ directCategory &&
    r.expiresAt.all (fun expires => db.now < expires) && !s.knownRooms.contains r.id && r.ownerId ≠ some s.viewer &&
    category.all fun c => r.category = c

/-- `ORDER BY current_participants DESC, started_at DESC NULLS LAST` -/
def busiestFirst (a b : RoomRow) : Bool :=
  b.currentParticipants < a.currentParticipants ||
    (a.currentParticipants = b.currentParticipants &&
      match a.startedAt, b.startedAt with
      | some s, some t => decide (t ≤ s)
      | _, none => true
      | none, some _ => false)

/-- How many different participants of a room satisfy `p`. -/
def presentWhere (db : Db) (r : RoomId) (p : UserId → Bool) : Nat := ((db.participants r).filter p).length

def oneDay : Duration := 24 * 3600 * 1000000

def roomCandidates (db : Db) (s : ViewerSignals) (category : Option String) (limit : Int) : List RoomCandidate :=
  let candidates := ((db.rooms.select (suggestible db s category)).insertionSort fun a b => busiestFirst a b).take limit.toNat
  candidates.map fun r =>
    { id := r.id, category := r.category, currentParticipants := r.currentParticipants, startedAt := r.startedAt
      peers := presentWhere db r.id (peers db s).contains, friends := presentWhere db r.id s.friends.contains
      recentMessages := db.messages.count fun m => m.roomId = r.id && decide (db.now - oneDay < m.createdAt) }

/-- The room's share in the viewer's attention, if any. -/
def scoreCategory (s : ViewerSignals) (category : String) (scorer : Scorer) : Scorer :=
  let share := s.affinity.share category
  if 0 < share then scorer.ratio .categoryAffinity s.affinity.observations share else scorer

/-- How recently the room started, in whole seconds. -/
def scoreFreshness (halving : ℚ → ℚ) (now : Timestamp) (startedAt : Option Timestamp) (scorer : Scorer) : Scorer :=
  match startedAt with
  | some startedAt => scorer.ratio .freshness 1 (decay halving (((now - startedAt).tdiv 1000000 : Int) / 3600) 6)
  | none => scorer

def scoreRoom (halving : ℚ → ℚ) (now : Timestamp) (s : ViewerSignals) (c : RoomCandidate) : Scorer :=
  scoreFreshness halving now c.startedAt <| scoreCategory s c.category <|
    ((((Scorer.new .default).count .sharedCommunity (clampCount c.peers) 2).count .friendActivity (clampCount c.friends) 1).count
      .activity (clampCount c.recentMessages) 12).count .popularity (clampCount c.currentParticipants.toNat) 4

/-- The rows of the winners, in the order of the ranking: each row is handed out once, and one that is gone is dropped. -/
def takeRooms : Table RoomRow → List (Scored RoomCandidate) → List RoomRecommendation
  | _, [] => []
  | byId, entry :: rest =>
    match byId.find entry.item.id with
    | some row =>
      { room := row.toRoom, score := entry.score, reasons := entry.reasons } :: takeRooms (byId.delete entry.item.id) rest
    | none => takeRooms byId rest

/-- Load the full room rows for the winners. -/
def hydrate (db : Db) (scored : List (Scored RoomCandidate)) : List RoomRecommendation := takeRooms db.rooms scored

/-- Rooms this viewer might want, best first. -/
def recommendRooms (halving : ℚ → ℚ) (db : Db) (s : ViewerSignals) (category : Option String) (limit : Int) :
    List RoomRecommendation :=
  let limit := clampResults limit
  hydrate db (best (·.id.uuid) (scoreRoom halving db.now s) limit.toNat (roomCandidates db s category (min (limit * 6) 300)))

/-! ## People -/

/-- Counts for one candidate person. -/
structure PersonCandidate where
  id : UserId
  handle : String
  displayName : Option String
  avatarUrl : Option String
  /-- Friends the viewer and this person have in common. -/
  mutualFriends : Nat
  /-- Communities both belong to. -/
  sharedCommunities : Nat
  /-- Rooms both have posted in. -/
  sharedRooms : Nat
  deriving DecidableEq, Repr

/-- Somebody to suggest, with why. -/
structure PersonRecommendation where
  userId : UserId
  handle : String
  displayName : Option String
  avatarUrl : Option String
  score : ℚ
  reasons : List Reason
  deriving DecidableEq

/-- Any existing edge at all, not just an accepted one. -/
def connected (db : Db) (viewer : UserId) : List UserId := (db.friendships.select (involves viewer)).map (otherOf viewer)

/-- Rooms somebody has posted in that satisfy `p`. -/
def postedIn (db : Db) (p : Message → Bool) : List RoomId := ((db.messages.select p).map (·.roomId)).dedup

/-- Friends of friends, members of the viewer's communities, and whoever has openly talked in the viewer's rooms. -/
def isCandidate (db : Db) (s : ViewerSignals) (u : UserId) : Bool :=
  let viewerRooms := postedIn db fun m => m.authorId = s.viewer
  (friendsOf db s.viewer).any (fun f => (friendsOf db f).contains u) ||
    (db.communityMembers.rows.any fun m => m.userId = u && s.communities.contains m.communityId) ||
    db.messages.rows.any fun m => m.authorId = u && !m.isAnonymous && viewerRooms.contains m.roomId

def personCandidate (db : Db) (s : ViewerSignals) (u : User) : PersonCandidate :=
  let profile := db.profiles.find u.id
  let viewerRooms := postedIn db fun m => m.authorId = s.viewer
  { id := u.id, handle := u.handle, displayName := profile.map (·.displayName), avatarUrl := profile.bind (·.avatarUrl)
    mutualFriends := ((friendsOf db s.viewer).dedup.filter fun f => (friendsOf db f).contains u.id).length
    sharedCommunities := db.communityMembers.count fun m => m.userId = u.id && s.communities.contains m.communityId
    sharedRooms :=
      (postedIn db fun m => m.authorId = u.id && !m.isAnonymous && viewerRooms.contains m.roomId).length }

/-- What the `ORDER BY` of the people's query weighs. -/
def PersonCandidate.edges (c : PersonCandidate) : Nat := c.mutualFriends * 3 + c.sharedCommunities * 2 + c.sharedRooms

def personCandidates (db : Db) (s : ViewerSignals) (limit : Int) : List PersonCandidate :=
  let eligible := db.users.select fun u =>
    isCandidate db s u.id && u.isActive && u.id ≠ s.viewer && !s.excludedUsers.contains u.id &&
      !(connected db s.viewer).contains u.id
  let candidates := (eligible.map (personCandidate db s)).filter fun c =>
    decide (0 < c.mutualFriends + c.sharedCommunities + c.sharedRooms)
  (candidates.insertionSort fun a b => largestFirst [(a.edges, b.edges), (-a.id.uuid.toNat, -b.id.uuid.toNat)]).take limit.toNat

def scorePerson (c : PersonCandidate) : Scorer :=
  (((Scorer.new .default).count .mutualFriends (clampCount c.mutualFriends) 2).count .sharedCommunity
    (clampCount c.sharedCommunities) (3 / 2)).count .activity (clampCount c.sharedRooms) 2

/-- People this viewer might know, best first. -/
def recommendPeople (db : Db) (s : ViewerSignals) (limit : Int) : List PersonRecommendation :=
  let limit := clampResults limit
  (best (·.id.uuid) scorePerson limit.toNat (personCandidates db s (min (limit * 4) 200))).map fun entry =>
    { userId := entry.item.id, handle := entry.item.handle, displayName := entry.item.displayName
      avatarUrl := entry.item.avatarUrl, score := entry.score, reasons := entry.reasons }

/-! ## What the filters keep out -/

section Filters

variable {db : Db} {s : ViewerSignals} {limit : Int}

/-- Whether a community is under quarantine. One that is not there is not. -/
def isQuarantined (db : Db) (c : CommunityId) : Bool := (db.communities.find c).any (·.isQuarantined)

theorem candidate_not_quarantined {c : CommunityCandidate} (h : c ∈ communityCandidates db s limit) :
    isQuarantined db c.id = false := by
  have hmem := (List.mem_insertionSort _).1 (List.mem_of_mem_take h)
  obtain ⟨row, hrow, rfl⟩ := List.mem_map.1 hmem
  obtain ⟨hrow, heligible⟩ := Table.mem_select.1 hrow
  have hfind : db.communities.find row.id = some row := Table.mem_iff_find.1 hrow
  unfold isQuarantined
  rw [hfind]
  simp only [Bool.and_eq_true, Bool.not_eq_true'] at heligible
  exact heligible.1

/-- No community under quarantine is recommended. -/
theorem recommended_not_quarantined {r : CommunityRecommendation} (h : r ∈ recommendCommunities db s limit) :
    isQuarantined db r.communityId = false := by
  obtain ⟨entry, hentry, rfl⟩ := List.mem_map.1 h
  exact candidate_not_quarantined (item_mem_best hentry)

theorem mem_takeRooms {byId : Table RoomRow} {scored : List (Scored RoomCandidate)} {r : RoomRecommendation}
    (h : r ∈ takeRooms byId scored) :
    ∃ entry ∈ scored, ∃ row, byId.find entry.item.id = some row ∧ r.room = row.toRoom ∧ r.score = entry.score := by
  induction scored generalizing byId with
  | nil => cases h
  | cons entry rest ih =>
    unfold takeRooms at h
    split at h
    · rename_i row hrow
      rcases List.mem_cons.1 h with rfl | h
      · exact ⟨entry, List.mem_cons_self, row, hrow, rfl, rfl⟩
      · obtain ⟨entry', hmem, row', hrow', hroom⟩ := ih h
        rw [Table.find_delete] at hrow'
        split at hrow'
        · cases hrow'
        · exact ⟨entry', List.mem_cons_of_mem _ hmem, row', hrow', hroom⟩
    · obtain ⟨entry', hmem, row', hrow', hroom⟩ := ih h
      exact ⟨entry', List.mem_cons_of_mem _ hmem, row', hrow', hroom⟩

/-- No room of a community is recommended, under quarantine or not. -/
theorem recommended_standalone {halving : ℚ → ℚ} {category : Option String} {r : RoomRecommendation}
    (h : r ∈ recommendRooms halving db s category limit) : r.room.communityId = none := by
  obtain ⟨entry, hentry, row, hrow, hroom, -⟩ := mem_takeRooms h
  have hcandidate := item_mem_best hentry
  obtain ⟨row', hrow', hid⟩ := List.mem_map.1 hcandidate
  have hselected := (List.mem_insertionSort _).1 (List.mem_of_mem_take hrow')
  obtain ⟨hmem, hsuggestible⟩ := Table.mem_select.1 hselected
  have hfind : db.rooms.find row'.id = some row' := Table.mem_iff_find.1 hmem
  rw [← hid, hfind] at hrow
  cases hrow
  unfold suggestible at hsuggestible
  simp only [Bool.and_eq_true] at hsuggestible
  rw [hroom]
  exact Option.isNone_iff_eq_none.1 hsuggestible.1.1.1.1.1.2

end Filters

end Genzh.Recommend
