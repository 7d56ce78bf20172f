/-
What recommendations tell of those who are somewhere under an alias. Two states look the same to a viewer where they
differ only in who else takes part anonymously in the rooms, and in who else has written the anonymous messages.

`aliases_told`: the communities and the people that are recommended are the same in both. The rooms are the same where as
many friends and as many peers of the viewer take part in them, since both are counted whether they show or not.
-/
import Genzh.Recommend.Service
import Genzh.Lib.Masked

namespace Genzh.Recommend

open Genzh.Lib Genzh.Domain Genzh.Infrastructure

/-! ## What shows -/

/-- Who is seen to be there: an anonymous user is somebody, except to themselves. -/
def overt (viewer : UserId) (isAnonymous : Bool) (u : UserId) : Option UserId :=
  if isAnonymous && u ≠ viewer then none else some u

/-- What a participant row shows. -/
def participantMask (viewer : UserId) (p : RoomParticipant) : RoomId × Bool × Option UserId :=
  (p.roomId, p.isAnonymous, overt viewer p.isAnonymous p.userId)

/-- What a message shows. -/
def messageMask (viewer : UserId) (m : Message) : RoomId × Timestamp × Bool × Option UserId :=
  (m.roomId, m.createdAt, m.isAnonymous, overt viewer m.isAnonymous m.authorId)

/-- The two states differ only in who else is there, or has written, anonymously. -/
structure SameButAliases (viewer : UserId) (db db' : Db) : Prop where
  rest : db' =
    { db with
      roomParticipants := db'.roomParticipants
      roomAnonymousIdentities := db'.roomAnonymousIdentities
      messages := db'.messages }
  participants : LooksLike (participantMask viewer) db.roomParticipants.rows db'.roomParticipants.rows
  messages : LooksLike (messageMask viewer) db.messages.rows db'.messages.rows

section Overt

variable {viewer u : UserId} {isAnonymous : Bool}

/-- The viewer knows where they are. -/
theorem overt_self : decide (overt viewer isAnonymous u = some viewer) = decide (u = viewer) := by
  rw [decide_eq_decide]
  unfold overt
  split
  · rename_i h
    simp only [Bool.and_eq_true, decide_eq_true_eq] at h
    exact ⟨fun hnone => (by cases hnone), fun hself => absurd hself h.2⟩
  · exact Option.some_inj

/-- Who is there openly is seen. -/
theorem overt_other {author : UserId} :
    (!isAnonymous && decide (overt viewer isAnonymous author = some u)) = (!isAnonymous && decide (author = u)) := by
  cases isAnonymous with
  | true => rfl
  | false =>
    unfold overt
    rw [Bool.false_and, if_neg Bool.false_ne_true, decide_eq_decide.2 Option.some_inj]

end Overt

/-! ## What is the same -/

section Same

variable {viewer : UserId} {db db' : Db}

/-- Where the viewer takes part is seen. -/
theorem SameButAliases.participates_eq (h : SameButAliases viewer db db') (r : RoomId) :
    db'.participates r viewer = db.participates r viewer := by
  have hany : ∀ db : Db, db.participates r viewer =
      db.roomParticipants.rows.any fun p => decide (p.roomId = r) && decide (p.userId = viewer) := by
    intro db
    rw [Bool.eq_iff_iff, Db.participates_iff, List.any_eq_true]
    simp
  rw [hany, hany]
  refine (h.participants.any_eq (q := fun seen => decide (seen.1 = r) && decide (seen.2.2 = some viewer)) fun p => ?_).symm
  exact congrArg (decide (p.roomId = r) && ·) overt_self.symm

/-- Where the viewer has written is seen. -/
theorem SameButAliases.wrote_eq (h : SameButAliases viewer db db') (r : RoomId) :
    (db'.messages.rows.any fun m => m.roomId = r && m.authorId = viewer) =
      db.messages.rows.any fun m => m.roomId = r && m.authorId = viewer := by
  refine (h.messages.any_eq (q := fun seen => decide (seen.1 = r) && decide (seen.2.2.2 = some viewer)) fun m => ?_).symm
  exact congrArg (decide (m.roomId = r) && ·) overt_self.symm

/-- The viewer is known as well in one state as in the other. -/
theorem SameButAliases.signals_eq (h : SameButAliases viewer db db') : loadSignals db' viewer = loadSignals db viewer := by
  have hrooms : roomsOf db' viewer = roomsOf db viewer := by
    have htable : db'.rooms = db.rooms := by rw [h.rest]
    unfold roomsOf
    simp only [htable, h.participates_eq, h.wrote_eq]
  have hfriends : friendsOf db' viewer = friendsOf db viewer := by
    rw [h.rest]
    rfl
  have hcommunities : communitiesOf db' viewer = communitiesOf db viewer := by
    rw [h.rest]
    rfl
  have hblocked : blockedWith db' viewer = blockedWith db viewer := by
    rw [h.rest]
    rfl
  unfold loadSignals
  rw [hfriends, hcommunities, hrooms, hblocked]

/-- Communities are recommended for their members. -/
theorem SameButAliases.communities_eq (h : SameButAliases viewer db db') (s : ViewerSignals) (limit : Int) :
    recommendCommunities db' s limit = recommendCommunities db s limit := by
  rw [h.rest]
  rfl

/-! ### People -/

/-- The rooms in which what shows of the messages satisfies `p`. -/
theorem SameButAliases.postedIn_perm (h : SameButAliases viewer db db') {p : Message → Bool}
    {q : RoomId × Timestamp × Bool × Option UserId → Bool} (hp : ∀ m, p m = q (messageMask viewer m)) :
    (postedIn db' p).Perm (postedIn db p) :=
  (h.messages.select_perm hp (g := Prod.fst) fun _ => rfl).symm.dedup

theorem SameButAliases.viewerRooms_eq (h : SameButAliases viewer db db') (r : RoomId) :
    (postedIn db' fun m => m.authorId = viewer).contains r = (postedIn db fun m => m.authorId = viewer).contains r := by
  exact List.Perm.contains_eq (h.postedIn_perm (q := fun seen => decide (seen.2.2.2 = some viewer)) fun m => overt_self.symm)

/-- Has `u` openly talked in one of the rooms, as it shows? -/
def openlyIn (rooms : List RoomId) (u : UserId) (seen : RoomId × Timestamp × Bool × Option UserId) : Bool :=
  decide (seen.2.2.2 = some u) && !seen.2.2.1 && rooms.contains seen.1

theorem openlyIn_mask (rooms : List RoomId) (u : UserId) (m : Message) :
    (decide (m.authorId = u) && !m.isAnonymous && rooms.contains m.roomId) = openlyIn rooms u (messageMask viewer m) := by
  unfold openlyIn messageMask
  rw [Bool.and_comm (decide (m.authorId = u)), ← @overt_other viewer, Bool.and_comm (!m.isAnonymous)]

theorem SameButAliases.friendsOf_eq (h : SameButAliases viewer db db') (u : UserId) : friendsOf db' u = friendsOf db u := by
  rw [h.rest]
  rfl

theorem SameButAliases.isCandidate_eq (h : SameButAliases viewer db db') {s : ViewerSignals} (hs : s.viewer = viewer) (u : UserId) :
    isCandidate db' s u = isCandidate db s u := by
  have hmembers : db'.communityMembers = db.communityMembers := by rw [h.rest]
  unfold isCandidate
  simp only [h.friendsOf_eq, hmembers, hs, h.viewerRooms_eq]
  rw [h.messages.any_eq (openlyIn_mask _ u)]

theorem SameButAliases.personCandidate_eq (h : SameButAliases viewer db db') {s : ViewerSignals} (hs : s.viewer = viewer) (u : User) :
    personCandidate db' s u = personCandidate db s u := by
  have hmembers : db'.communityMembers = db.communityMembers := by rw [h.rest]
  have hprofiles : db'.profiles = db.profiles := by rw [h.rest]
  unfold personCandidate
  simp only [h.friendsOf_eq, hmembers, hprofiles, hs, h.viewerRooms_eq]
  rw [(h.postedIn_perm (openlyIn_mask _ u.id)).length_eq]

/-- People are recommended for their friends, their communities, and where they have openly talked. -/
theorem SameButAliases.people_eq (h : SameButAliases viewer db db') {s : ViewerSignals} (hs : s.viewer = viewer) (limit : Int) :
    recommendPeople db' s limit = recommendPeople db s limit := by
  have husers : db'.users = db.users := by rw [h.rest]
  have hconnected : ∀ u, connected db' u = connected db u := by
    intro u
    rw [h.rest]
    rfl
  have hcandidates : ∀ limit, personCandidates db' s limit = personCandidates db s limit := by
    intro limit
    have hperson : personCandidate db' s = personCandidate db s := funext (h.personCandidate_eq hs)
    unfold personCandidates
    simp only [husers, hconnected, h.isCandidate_eq hs, hperson]
  unfold recommendPeople
  simp only [hcandidates]

/-! ### Rooms -/

/-- The rooms a viewer may be sent to that are ranked, the busiest first. -/
def roomPool (db : Db) (s : ViewerSignals) (category : Option String) (limit : Int) : List RoomRow :=
  ((db.rooms.select (suggestible db s category)).insertionSort fun a b => busiestFirst a b).take limit.toNat

/-- What is counted of a room. -/
def candidateOf (db : Db) (s : ViewerSignals) (r : RoomRow) : RoomCandidate where
  id := r.id
  category := r.category
  currentParticipants := r.currentParticipants
  startedAt := r.startedAt
  peers := presentWhere db r.id (peers db s).contains
  friends := presentWhere db r.id s.friends.contains
  recentMessages := db.messages.count fun m => m.roomId = r.id && decide (db.now - oneDay < m.createdAt)

theorem roomCandidates_eq (db : Db) (s : ViewerSignals) (category : Option String) (limit : Int) :
    roomCandidates db s category limit = (roomPool db s category limit).map (candidateOf db s) := rfl

/-- As many friends of the viewer take part in a room, and as many of their peers, in one state as in the other. -/
def CountsAgree (s : ViewerSignals) (db db' : Db) (r : RoomId) : Prop :=
  presentWhere db' r s.friends.contains = presentWhere db r s.friends.contains ∧
    presentWhere db' r (peers db s).contains = presentWhere db r (peers db s).contains

theorem SameButAliases.recent_eq (h : SameButAliases viewer db db') (r : RoomId) (since : Timestamp) :
    (db'.messages.count fun m => m.roomId = r && decide (since < m.createdAt)) =
      db.messages.count fun m => m.roomId = r && decide (since < m.createdAt) :=
  (h.messages.countP_eq (q := fun seen => decide (seen.1 = r) && decide (since < seen.2.1)) fun _ => rfl).symm

theorem SameButAliases.roomPool_eq (h : SameButAliases viewer db db') (s : ViewerSignals) (category : Option String) (limit : Int) :
    roomPool db' s category limit = roomPool db s category limit := by
  rw [h.rest]
  rfl

theorem SameButAliases.peers_eq (h : SameButAliases viewer db db') (s : ViewerSignals) : peers db' s = peers db s := by
  rw [h.rest]
  rfl

/-- Of a room the same is counted, but for the peers and the friends. -/
theorem SameButAliases.candidateOf_eq (h : SameButAliases viewer db db') (s : ViewerSignals) (r : RoomRow) :
    candidateOf db' s r =
      { candidateOf db s r with
        peers := presentWhere db' r.id (peers db s).contains
        friends := presentWhere db' r.id s.friends.contains } := by
  have hnow : db'.now = db.now := by rw [h.rest]
  unfold candidateOf
  rw [h.peers_eq, hnow, h.recent_eq]

/-- The rooms are recommended for how many take part, and for which of them are friends or peers. -/
theorem SameButAliases.rooms_eq (h : SameButAliases viewer db db') {s : ViewerSignals} {category : Option String} {limit : Int}
    (hcounts : ∀ r ∈ roomPool db s category (min (clampResults limit * 6) 300), CountsAgree s db db' r.id) (halving : ℚ → ℚ) :
    recommendRooms halving db' s category limit = recommendRooms halving db s category limit := by
  have hnow : db'.now = db.now := by rw [h.rest]
  have htable : db'.rooms = db.rooms := by rw [h.rest]
  have hcandidates : roomCandidates db' s category (min (clampResults limit * 6) 300) =
      roomCandidates db s category (min (clampResults limit * 6) 300) := by
    rw [roomCandidates_eq, roomCandidates_eq, h.roomPool_eq]
    refine List.map_congr_left fun r hr => ?_
    obtain ⟨hfriends, hpeers⟩ := hcounts r hr
    rw [h.candidateOf_eq, hfriends, hpeers]
    rfl
  unfold recommendRooms hydrate
  simp only [hcandidates, hnow, htable]

end Same

/-! ## What a score tells -/

/-- A stage of the scoring adds to the score, whatever it is. -/
def Adds (f : Scorer → Scorer) : Prop :=
  ∃ d : ℚ, ∀ s : Scorer, s.weights = .default → (f s).weights = .default ∧ (f s).score = s.score + d

section Scores

theorem adds_add (kind : ReasonKind) (magnitude : Nat) (normalized : ℚ) : Adds (Scorer.add kind magnitude normalized) :=
  ⟨normalized * Weights.default.of kind, fun s hs => ⟨hs, by
    show s.score + normalized * s.weights.of kind = _
    rw [hs]⟩⟩

theorem adds_id : Adds id := ⟨0, fun s hs => ⟨hs, (add_zero s.score).symm⟩⟩

theorem Adds.comp {f g : Scorer → Scorer} (hg : Adds g) (hf : Adds f) : Adds (g ∘ f) := by
  obtain ⟨d, hd⟩ := hf
  obtain ⟨e, he⟩ := hg
  refine ⟨d + e, fun s hs => ?_⟩
  obtain ⟨hweights, hscore⟩ := hd s hs
  obtain ⟨hweights', hscore'⟩ := he (f s) hweights
  exact ⟨hweights', by rw [Function.comp_apply, hscore', hscore, add_assoc]⟩

theorem adds_category (s : ViewerSignals) (category : String) : Adds (scoreCategory s category) := by
  unfold scoreCategory
  by_cases hshare : 0 < s.affinity.share category
  · simp only [if_pos hshare]
    exact adds_add _ _ _
  · simp only [if_neg hshare]
    exact adds_id

theorem adds_freshness (halving : ℚ → ℚ) (now : Timestamp) (startedAt : Option Timestamp) :
    Adds (scoreFreshness halving now startedAt) := by
  cases startedAt with
  | none => exact adds_id
  | some t => exact adds_add _ _ _

/-- The score of a room is that of its peers, that of its friends, and what neither of them changes. -/
theorem score_scoreRoom (halving : ℚ → ℚ) (now : Timestamp) (s : ViewerSignals) (c : RoomCandidate) :
    ∃ d : ℚ, ∀ peers friends : Nat, (scoreRoom halving now s { c with peers, friends }).score =
      saturate (clampCount peers) 2 + saturate (clampCount friends) 1 * (14 / 10) + d := by
  have hrest : Adds (scoreFreshness halving now c.startedAt ∘ scoreCategory s c.category ∘
      Scorer.count .popularity (clampCount c.currentParticipants.toNat) 4 ∘ Scorer.count .activity (clampCount c.recentMessages) 12) :=
    (adds_freshness halving now c.startedAt).comp ((adds_category s c.category).comp ((adds_add _ _ _).comp (adds_add _ _ _)))
  obtain ⟨d, hd⟩ := hrest
  refine ⟨d, fun peers friends => ?_⟩
  refine (hd (((Scorer.new .default).count .sharedCommunity (clampCount peers) 2).count .friendActivity (clampCount friends) 1) rfl).2.trans ?_
  show 0 + saturate (clampCount peers) 2 * 1 + saturate (clampCount friends) 1 * (14 / 10) + d = _
  rw [zero_add, mul_one]

theorem saturate_nat (n : Nat) {half : ℚ} (hhalf : 0 < half) : saturate n half = n / (n + half) := by
  unfold saturate
  rcases Nat.eq_zero_or_pos n with rfl | hn
  · simp
  · have hpos : (0 : ℚ) < n := by exact_mod_cast hn
    rw [if_neg (by simp [not_le.2 hpos, not_le.2 hhalf])]

/-- Different counts weigh differently. -/
theorem saturate_inj {m n : Nat} {half : ℚ} (hhalf : 0 < half) : saturate m half = saturate n half ↔ m = n := by
  constructor
  · intro h
    rw [saturate_nat m hhalf, saturate_nat n hhalf, div_eq_div_iff (by positivity) (by positivity)] at h
    have hmul : (m : ℚ) * half = n * half := by linarith
    exact_mod_cast mul_right_cancel₀ hhalf.ne' hmul
  · rintro rfl
    rfl

/-- A room keeps its score where one of the two counts changes exactly if the other changes too. -/
theorem counts_of_score {halving : ℚ → ℚ} {now : Timestamp} {s : ViewerSignals} {c : RoomCandidate} {peers friends peers' friends' : Nat}
    (h : (scoreRoom halving now s { c with peers, friends }).score =
      (scoreRoom halving now s { c with peers := peers', friends := friends' }).score) :
    clampCount peers = clampCount peers' ↔ clampCount friends = clampCount friends' := by
  obtain ⟨d, hd⟩ := score_scoreRoom halving now s c
  rw [hd, hd] at h
  rw [← saturate_inj (show (0 : ℚ) < 2 by norm_num), ← saturate_inj (show (0 : ℚ) < 1 by norm_num)]
  constructor
  · intro hpeers
    linarith
  · intro hfriends
    linarith

/-- A room that is recommended has the score of what is counted of it. -/
theorem exists_row {halving : ℚ → ℚ} {db : Db} {s : ViewerSignals} {category : Option String} {limit : Int} {r : RoomRecommendation}
    (h : r ∈ recommendRooms halving db s category limit) :
    ∃ row ∈ db.rooms.rows, r.room = row.toRoom ∧ r.score = (scoreRoom halving db.now s (candidateOf db s row)).score := by
  obtain ⟨entry, hentry, row, hrow, hroom, hscore⟩ := mem_takeRooms h
  obtain ⟨candidate, hcandidate, rfl⟩ := List.mem_map.1 (mem_rank.1 (List.mem_of_mem_take hentry))
  rw [roomCandidates_eq] at hcandidate
  obtain ⟨row', hrow', rfl⟩ := List.mem_map.1 hcandidate
  have hmem : row' ∈ db.rooms.rows := (Table.mem_select.1 ((List.mem_insertionSort _).1 (List.mem_of_mem_take hrow'))).1
  have hfind : db.rooms.find row'.id = some row' := Table.mem_iff_find.1 hmem
  obtain rfl : row' = row := Option.some.inj (hfind.symm.trans hrow)
  exact ⟨row', hmem, hroom, hscore⟩

/-- In a room that is recommended alike, either both counts are the same or both have changed. -/
theorem SameButAliases.recommended_alike {viewer : UserId} {db db' : Db} (h : SameButAliases viewer db db') {halving : ℚ → ℚ}
    {s : ViewerSignals} {category : Option String} {limit : Int} {r : RoomRecommendation}
    (hr : r ∈ recommendRooms halving db s category limit) (hr' : r ∈ recommendRooms halving db' s category limit) :
    clampCount (presentWhere db r.room.id (peers db s).contains) = clampCount (presentWhere db' r.room.id (peers db s).contains) ↔
      clampCount (presentWhere db r.room.id s.friends.contains) = clampCount (presentWhere db' r.room.id s.friends.contains) := by
  obtain ⟨row, hrow, hroom, hscore⟩ := exists_row hr
  obtain ⟨row', hrow', hroom', hscore'⟩ := exists_row hr'
  have hnow : db'.now = db.now := by rw [h.rest]
  have htable : db'.rooms = db.rooms := by rw [h.rest]
  rw [htable] at hrow'
  have hid : row'.id = row.id := congrArg Room.id (hroom'.symm.trans hroom)
  obtain rfl : row' = row := by
    have hfind : db.rooms.find row'.id = some row' := Table.mem_iff_find.1 hrow'
    have hfind' : db.rooms.find row.id = some row := Table.mem_iff_find.1 hrow
    rw [hid, hfind'] at hfind
    exact (Option.some.inj hfind).symm
  rw [h.candidateOf_eq, hnow, hscore] at hscore'
  rw [hroom]
  exact counts_of_score (c := candidateOf db s row') hscore'

end Scores

/-! ## What is served -/

/-- A request that ranks rooms counts as many friends, and as many peers, in each of them. -/
def CountedAlike (ask : Ask) (s : RecommendState) (db' : Db) : Prop :=
  ∀ category, ask.surface = .rooms category → s.remembered ask = none →
    ∀ r ∈ roomPool s.toDb (loadSignals s.toDb ask.viewer) category 300, CountsAgree (loadSignals s.toDb ask.viewer) s.toDb db' r.id

/-- A request for rooms that finds nothing remembered ranks them. -/
theorem recommend_rooms {halving : ℚ → ℚ} {ask : Ask} {s : RecommendState} {category : Option String}
    (hsurface : ask.surface = .rooms category) (hmiss : s.remembered ask = none) :
    (recommend halving ask s).1 =
      .rooms ((recommendRooms halving s.toDb (loadSignals s.toDb ask.viewer) category maxResults).take ask.limitOf) := by
  unfold recommend compute
  rw [hmiss, hsurface]
  rfl

/-- Two states that differ only in who else is where under an alias: the communities and the people that are recommended
are the same, and so are the rooms if as many friends and as many peers are counted in each that is ranked. Of a room that
is recommended alike, one of the counts is the same exactly if the other is. -/
theorem aliases_told (halving : ℚ → ℚ) (ask : Ask) (s : RecommendState) (db' : Db) (h : SameButAliases ask.viewer s.toDb db') :
    (CountedAlike ask s db' → (recommend halving ask { s with toDb := db' }).1 = (recommend halving ask s).1) ∧
    ∀ category, ask.surface = .rooms category → s.remembered ask = none →
      ∀ list, (recommend halving ask s).1 = .rooms list → (recommend halving ask { s with toDb := db' }).1 = .rooms list →
        let signals := loadSignals s.toDb ask.viewer
        ∀ r ∈ list,
          (clampCount (presentWhere s.toDb r.room.id (peers s.toDb signals).contains) =
              clampCount (presentWhere db' r.room.id (peers s.toDb signals).contains) ↔
            clampCount (presentWhere s.toDb r.room.id signals.friends.contains) =
              clampCount (presentWhere db' r.room.id signals.friends.contains)) := by
  have hremembered : RecommendState.remembered { s with toDb := db' } ask = s.remembered ask := rfl
  have hsignals : loadSignals db' ask.viewer = loadSignals s.toDb ask.viewer := h.signals_eq
  constructor
  · intro hcounts
    unfold recommend
    rw [hremembered]
    rcases hhit : s.remembered ask with _ | hit
    · -- only here is anything computed
      refine congrArg (Recommendations.take ask.limitOf) ?_
      show compute halving ask (loadSignals db' ask.viewer) db' = compute halving ask (loadSignals s.toDb ask.viewer) s.toDb
      rw [hsignals]
      unfold compute
      rcases hsurface : ask.surface with category | _ | _
      · exact congrArg Recommendations.rooms (h.rooms_eq (hcounts category hsurface hhit) halving)
      · exact congrArg Recommendations.people (h.people_eq rfl maxResults)
      · exact congrArg Recommendations.communities (h.communities_eq _ maxResults)
    · rfl
  · intro category hsurface hmiss list hlist hlist' signals r hr
    have hmiss' : RecommendState.remembered { s with toDb := db' } ask = none := hremembered.trans hmiss
    rw [recommend_rooms hsurface hmiss] at hlist
    rw [recommend_rooms hsurface hmiss'] at hlist'
    have hserved : r ∈ recommendRooms halving s.toDb signals category maxResults := by
      obtain rfl := Recommendations.rooms.inj hlist
      exact List.mem_of_mem_take hr
    have hserved' : r ∈ recommendRooms halving db' signals category maxResults := by
      change Recommendations.rooms ((recommendRooms halving db' (loadSignals db' ask.viewer) category maxResults).take _) = _ at hlist'
      rw [hsignals] at hlist'
      obtain rfl := Recommendations.rooms.inj hlist'
      exact List.mem_of_mem_take hr
    exact h.recommended_alike hserved hserved'

/-! ### A friend under an alias -/

/-- A room everybody may be sent to, with one in it. -/
def masquerade : RoomRow where
  id := ⟨9⟩
  communityId := none
  ownerId := none
  name := "masquerade"
  topic := none
  category := "chill"
  roomType := .text
  visibility := .public
  status := .active
  isAnonymous := true
  position := 0
  maxParticipants := none
  currentParticipants := 1
  startedAt := none
  expiresAt := none
  endedAt := none
  createdAt := 0
  updatedAt := 0
  emptiedAt := none

/-- `⟨1⟩` and `⟨2⟩` are friends, and `u` is in the room under an alias. -/
def masked (u : UserId) : Db :=
  { Db.empty 0 with
    friendships := Table.empty.insert { requesterId := ⟨1⟩, addresseeId := ⟨2⟩, status := .accepted }
    rooms := Table.empty.insert masquerade
    roomParticipants := Table.empty.insert
      { roomId := ⟨9⟩, userId := u, role := .participant, isMuted := false, isAnonymous := true, joinedAt := 0, lastSeenAt := 0 } }

/-- Whether it is the friend who hides there shows in the reasons. -/
theorem friend_revealed :
    SameButAliases ⟨1⟩ (masked ⟨3⟩) (masked ⟨2⟩) ∧
      (recommend id ⟨⟨1⟩, .rooms none, none⟩ (.start (masked ⟨2⟩))).1 ≠ (recommend id ⟨⟨1⟩, .rooms none, none⟩ (.start (masked ⟨3⟩))).1 :=
  ⟨⟨rfl, List.Perm.refl _, List.Perm.refl _⟩, by decide +kernel⟩

/-- Which stranger it is does not. -/
theorem aliases_told_masked :
    (recommend id ⟨⟨1⟩, .rooms none, none⟩ { RecommendState.start (masked ⟨3⟩) with toDb := masked ⟨4⟩ }).1 =
      (recommend id ⟨⟨1⟩, .rooms none, none⟩ (.start (masked ⟨3⟩))).1 := by
  refine (aliases_told id ⟨⟨1⟩, .rooms none, none⟩ (.start (masked ⟨3⟩)) (masked ⟨4⟩) ⟨rfl, List.Perm.refl _, List.Perm.refl _⟩).1 ?_
  rintro category hsurface -
  obtain rfl := Surface.rooms.inj hsurface
  unfold CountsAgree
  decide +kernel

end Genzh.Recommend
