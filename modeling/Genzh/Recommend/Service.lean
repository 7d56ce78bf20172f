/-
The recommendation service: the three recommenders behind a short memory. A request that finds a fresh list of its viewer
is answered from it; any other reads what is known of the viewer, computes a list of full length, remembers it, and hands
out as much of it as was asked for. Requests run at the same time, one statement of one of them after the other.
-/
import Genzh.Recommend.Surfaces
import Genzh.Lib.Map
import Genzh.Lib.Interleaving

namespace Genzh.Recommend

open Genzh.Lib Genzh.Domain Genzh.Infrastructure

/-! ## A short memory -/

/-- Which list, for whom. -/
structure CacheKey where
  viewer : UserId
  surface : String
  /-- Filters that change the answer, flattened. -/
  variant : String
  deriving DecidableEq, Repr

structure CacheEntry (T : Type) where
  value : T
  storedAt : Nat

abbrev RecommendationCache (T : Type) := Map CacheKey (CacheEntry T)

/-- How long a computed list is reused, in nanoseconds. -/
def cacheTtl : Nat := 120 * 1000000000

/-- Above this many entries, expired ones are swept before the next insert. -/
def sweepThreshold : Nat := 2048

/-- Has the entry not expired? -/
def CacheEntry.isFresh {T : Type} (now : Nat) (e : CacheEntry T) : Bool := now - e.storedAt < cacheTtl

namespace RecommendationCache

variable {T : Type}

/-- The stored value, if it has not expired. -/
def lookup (now : Nat) (key : CacheKey) (cache : RecommendationCache T) : Option T :=
  ((Map.get cache key).filter (·.isFresh now)).map (·.value)

/-- Drop expired entries, but only from a cache that has grown. -/
def sweep (now : Nat) (cache : RecommendationCache T) : RecommendationCache T :=
  if sweepThreshold < cache.size then cache.retain fun _ e => e.isFresh now else cache

/-- Store a result. -/
def insert (now : Nat) (key : CacheKey) (value : T) (cache : RecommendationCache T) : RecommendationCache T :=
  (sweep now cache).set key { value, storedAt := now }

/-- Forget everything remembered for one viewer. -/
def forgetViewer (viewer : UserId) (cache : RecommendationCache T) : RecommendationCache T :=
  cache.retain fun key _ => key.viewer ≠ viewer

variable {cache : RecommendationCache T} {now : Nat} {key key' : CacheKey} {e : CacheEntry T} {value : T}

theorem lookup_some (h : lookup now key cache = some value) : ∃ e, Map.get cache key = some e ∧ e.value = value := by
  obtain ⟨e, he, rfl⟩ := Option.map_eq_some_iff.1 h
  exact ⟨e, (Option.filter_eq_some_iff.1 he).1, rfl⟩

theorem get_sweep (h : Map.get (sweep now cache) key = some e) : Map.get cache key = some e := by
  unfold sweep at h
  split at h
  · rw [Map.get_retain] at h
    exact (Option.filter_eq_some_iff.1 h).1
  · exact h

theorem get_forgetViewer {viewer : UserId} (h : Map.get (forgetViewer viewer cache) key = some e) :
    Map.get cache key = some e ∧ key.viewer ≠ viewer := by
  unfold forgetViewer at h
  rw [Map.get_retain] at h
  obtain ⟨hget, hviewer⟩ := Option.filter_eq_some_iff.1 h
  exact ⟨hget, by simpa using hviewer⟩

/-- What a cache holds after an insertion is the new entry, or was there before. -/
theorem get_insert (h : Map.get (insert now key value cache) key' = some e) :
    (key = key' ∧ e.value = value) ∨ (key ≠ key' ∧ Map.get cache key' = some e) := by
  unfold insert at h
  rw [Map.get_set] at h
  by_cases hk : key = key'
  · rw [if_pos hk] at h
    cases h
    exact .inl ⟨hk, rfl⟩
  · rw [if_neg hk] at h
    exact .inr ⟨hk, get_sweep h⟩

end RecommendationCache

/-! ## Requests -/

/-- Rooms for the home feed, people the viewer might know, communities to explore. -/
inductive Surface where
  | rooms (category : Option String)
  | people
  | communities
  deriving DecidableEq, Repr

/-- A request for recommendations. -/
structure Ask where
  viewer : UserId
  surface : Surface
  limit : Option Int
  deriving DecidableEq, Repr

def Ask.key (ask : Ask) : CacheKey :=
  match ask.surface with
  | .rooms category => { viewer := ask.viewer, surface := "rooms", variant := category.getD "all" }
  | .people => { viewer := ask.viewer, surface := "people", variant := "all" }
  | .communities => { viewer := ask.viewer, surface := "communities", variant := "all" }

/-- A list of recommendations, of one of the surfaces. -/
inductive Recommendations where
  | rooms (list : List RoomRecommendation)
  | people (list : List PersonRecommendation)
  | communities (list : List CommunityRecommendation)
  deriving DecidableEq

/-- How many results a request gets at most. -/
def Ask.limitOf (ask : Ask) : Nat := (clampResults (ask.limit.getD defaultResults)).toNat

/-- Clone out the first `limit` results. -/
def Recommendations.take (limit : Nat) : Recommendations → Recommendations
  | .rooms list => .rooms (list.take limit)
  | .people list => .people (list.take limit)
  | .communities list => .communities (list.take limit)

/-- The database, the process's own clock, and one cache for each surface. -/
structure RecommendState extends Db where
  instant : Nat
  roomCache : RecommendationCache (List RoomRecommendation)
  peopleCache : RecommendationCache (List PersonRecommendation)
  communityCache : RecommendationCache (List CommunityRecommendation)

namespace RecommendState

def start (db : Db) : RecommendState where
  toDb := db
  instant := 0
  roomCache := .empty
  peopleCache := .empty
  communityCache := .empty

/-- The list remembered for a request, if it has not expired. -/
def remembered (s : RecommendState) (ask : Ask) : Option Recommendations :=
  match ask.surface with
  | .rooms _ => (RecommendationCache.lookup s.instant ask.key s.roomCache).map .rooms
  | .people => (RecommendationCache.lookup s.instant ask.key s.peopleCache).map .people
  | .communities => (RecommendationCache.lookup s.instant ask.key s.communityCache).map .communities

/-- Remember a list for a request. -/
def remember (ask : Ask) (full : Recommendations) (s : RecommendState) : RecommendState :=
  match full with
  | .rooms list => { s with roomCache := RecommendationCache.insert s.instant ask.key list s.roomCache }
  | .people list => { s with peopleCache := RecommendationCache.insert s.instant ask.key list s.peopleCache }
  | .communities list => { s with communityCache := RecommendationCache.insert s.instant ask.key list s.communityCache }

/-- Drop everything remembered for one viewer. -/
def forget (viewer : UserId) (s : RecommendState) : RecommendState :=
  { s with
    roomCache := RecommendationCache.forgetViewer viewer s.roomCache
    peopleCache := RecommendationCache.forgetViewer viewer s.peopleCache
    communityCache := RecommendationCache.forgetViewer viewer s.communityCache }

end RecommendState

/-- Computed at full size, whatever the limit. -/
def compute (halving : ℚ → ℚ) (ask : Ask) (signals : ViewerSignals) (db : Db) : Recommendations :=
  match ask.surface with
  | .rooms category => .rooms (recommendRooms halving db signals category maxResults)
  | .people => .people (recommendPeople db signals maxResults)
  | .communities => .communities (recommendCommunities db signals maxResults)

/-! ## One statement after the other -/

/-- How far a request has come. -/
inductive Progress where
  | begun
  /-- Nothing fresh is remembered. -/
  | missed
  | friendsRead (friends : List UserId)
  | communitiesRead (friends : List UserId) (communities : List CommunityId)
  | roomsRead (friends : List UserId) (communities : List CommunityId) (rooms : List (RoomId × String))
  | signalled (signals : ViewerSignals)
  /-- The list is there, and has yet to be remembered. -/
  | computed (full : Recommendations)
  | served (list : Recommendations)

/-- The next statement of a request. The rows of recommended rooms are read along with the candidates. -/
def Progress.advance (halving : ℚ → ℚ) (ask : Ask) : Progress → RecommendState → Progress × RecommendState
  | .begun, s =>
    match s.remembered ask with
    | some hit => (.served (hit.take ask.limitOf), s)
    | none => (.missed, s)
  | .missed, s => (.friendsRead (friendsOf s.toDb ask.viewer), s)
  | .friendsRead friends, s => (.communitiesRead friends (communitiesOf s.toDb ask.viewer), s)
  | .communitiesRead friends communities, s => (.roomsRead friends communities (roomsOf s.toDb ask.viewer), s)
  | .roomsRead friends communities rooms, s =>
    (.signalled (.of ask.viewer friends communities rooms (blockedWith s.toDb ask.viewer)), s)
  | .signalled signals, s => (.computed (compute halving ask signals s.toDb), s)
  | .computed full, s => (.served (full.take ask.limitOf), s.remember ask full)
  | .served list, s => (.served list, s)

/-! ## By itself -/

/-- What the four queries find. -/
def loadSignals (db : Db) (viewer : UserId) : ViewerSignals :=
  .of viewer (friendsOf db viewer) (communitiesOf db viewer) (roomsOf db viewer) (blockedWith db viewer)

/-- The service's answer to a request, and the caches it leaves. -/
def recommend (halving : ℚ → ℚ) (ask : Ask) (s : RecommendState) : Recommendations × RecommendState :=
  match s.remembered ask with
  | some hit => (hit.take ask.limitOf, s)
  | none =>
    let full := compute halving ask (loadSignals s.toDb ask.viewer) s.toDb
    (full.take ask.limitOf, s.remember ask full)

/-- A request that is not interrupted gets the answer of the service. -/
theorem recommend_alone {I : Type} (i : I) (halving : ℚ → ℚ) (ask : Ask) (s : RecommendState) :
    System.Reaches (fun _ : I => Progress.advance halving ask) i .begun s (.served (recommend halving ask s).1)
      (recommend halving ask s).2 := by
  unfold recommend
  rcases hr : s.remembered ask with _ | hit
  · refine .head .missed s (by simp only [Progress.advance, hr]) ?_
    refine .head _ s rfl (.head _ s rfl (.head _ s rfl (.head _ s rfl (.head _ s rfl (.one rfl)))))
  · exact .one (by simp only [Progress.advance, hr])

/-! ## What a list names -/

/-- Does a list send somebody to the community, or to a room of it? -/
def Recommendations.names (c : CommunityId) : Recommendations → Bool
  | .rooms list => list.any fun r => r.room.communityId = some c
  | .people _ => false
  | .communities list => list.any fun r => r.communityId = c

section Names

variable {c : CommunityId} {full : Recommendations} {ask : Ask} {s : RecommendState}

theorem names_take {limit : Nat} (h : (full.take limit).names c = true) : full.names c = true := by
  cases full with
  | rooms list =>
    obtain ⟨r, hr, hc⟩ := List.any_eq_true.1 h
    exact List.any_eq_true.2 ⟨r, List.mem_of_mem_take hr, hc⟩
  | people list => cases h
  | communities list =>
    obtain ⟨r, hr, hc⟩ := List.any_eq_true.1 h
    exact List.any_eq_true.2 ⟨r, List.mem_of_mem_take hr, hc⟩

/-- A list that is computed names no community that is under quarantine at the time. -/
theorem names_compute {halving : ℚ → ℚ} {signals : ViewerSignals} {db : Db}
    (h : (compute halving ask signals db).names c = true) : isQuarantined db c = false := by
  unfold compute at h
  split at h
  · obtain ⟨r, hr, hc⟩ := List.any_eq_true.1 h
    rw [recommended_standalone hr] at hc
    cases hc
  · cases h
  · obtain ⟨r, hr, hc⟩ := List.any_eq_true.1 h
    rw [← of_decide_eq_true hc]
    exact recommended_not_quarantined hr

end Names

end Genzh.Recommend
