/-
Channels and blocks. A room of a community is open to whoever may view it there, and no block is to change that; but a
conversation is told by its category alone, and a channel can be created and updated under the category of conversations
like under any other. Such a channel is closed to whoever is in a block with the participant that joined it first.
-/
import Genzh.Room.Blocks

namespace Genzh.Room

open Genzh.Lib Genzh.Domain Genzh.Infrastructure Genzh.Community Genzh.Social

/-! ## What access is a function of -/

/-- The same room, with the same overrides, and the same standing of the user in every community. -/
structure SameStanding (db db' : Db) (r : RoomId) (u : UserId) : Prop where
  row : db'.room r = db.room r
  member : ∀ c, memberContext db' c u = memberContext db c u
  overrides : roomOverrides db' r = roomOverrides db r

/-- The outcome is a function of the membership, the roles and the overrides. -/
def DependsOnStanding (db : Db) (r : RoomId) (u : UserId) : Prop :=
  ∀ db', SameStanding db db' r u → visibleAccess db' r u = visibleAccess db r u

/-- No block that is added or removed changes the outcome. -/
def BlindToBlocks (db : Db) (r : RoomId) (u : UserId) : Prop :=
  ∀ blocks, visibleAccess { db with blocks } r u = visibleAccess db r u

/-- Is the user let see the room by their roles? -/
def mayView (db : Db) (r : RoomId) (u : UserId) : Bool :=
  match access db r u with
  | .ok a => a.permissions.allows .viewRoom
  | .error _ => false

section Access

variable {db db' : Db} {r : RoomId} {u : UserId} {row : RoomRow}

theorem access_sameStanding (h : SameStanding db db' r u) : access db' r u = access db r u := by
  unfold access
  rw [h.row, h.overrides]
  simp only [h.member]

theorem access_row {a : RoomAccess} (hrow : db.room r = some row) (ha : access db r u = .ok a) : a.room = row.toRoom := by
  obtain ⟨row', hrow', hroom⟩ := access_room ha
  rw [hrow] at hrow'
  cases hrow'
  exact hroom

/-- Whoever may not view the room is told so, and blocks are not asked about. -/
theorem visibleAccess_hidden (h : SameStanding db db' r u) (hview : mayView db r u = false) :
    visibleAccess db' r u = visibleAccess db r u := by
  unfold visibleAccess
  rw [access_sameStanding h]
  unfold mayView at hview
  rcases ha : access db r u with e | a
  · rfl
  · rw [ha] at hview
    simp only [bind, Except.bind, RoomAccess.require, hview, Bool.false_eq_true, if_false]

/-- Nor are they about a room that is not a conversation. -/
theorem visibleAccess_channel (h : SameStanding db db' r u) (hrow : db.room r = some row) (hcategory : row.category ≠ directCategory) :
    visibleAccess db' r u = visibleAccess db r u := by
  unfold visibleAccess
  rw [access_sameStanding h]
  rcases ha : access db r u with e | a
  · rfl
  · have hdirect : a.room.isDirect = false := by
      rw [access_row hrow ha]
      exact decide_eq_false hcategory
    simp only [bind, Except.bind, ensurePeer, hdirect]
    rfl

/-- In a room of the category of conversations, it is the block with the first of the others that decides. -/
theorem visibleAccess_direct (hrow : db.room r = some row) (hcategory : row.category = directCategory)
    (hview : mayView db r u = true) :
    (visibleAccess db r u).isOk = (directPeer db r u).all fun peer => !blockedEitherWay db u peer := by
  unfold mayView at hview
  unfold visibleAccess
  rcases ha : access db r u with e | a
  · rw [ha] at hview
    cases hview
  · rw [ha] at hview
    have hdirect : a.room.isDirect = true := by
      rw [access_row hrow ha]
      exact decide_eq_true hcategory
    simp only [bind, Except.bind, RoomAccess.require, show a.permissions.allows .viewRoom = true from hview, if_true, ensurePeer,
      hdirect]
    rcases hpeer : directPeer db r u with _ | peer
    · rfl
    · have hne : u ≠ peer := (directPeer_some hpeer).1.symm
      simp only [Option.all_some, ensureCanReach, if_neg hne]
      cases blockedEitherWay db u peer <;> rfl

theorem sameStanding_blocks (blocks : Table Block) : SameStanding db { db with blocks } r u := ⟨rfl, fun _ => rfl, rfl⟩

/-- One block and nothing else. -/
def oneBlock (u v : UserId) : Table Block := Table.empty.insert { blockerId := u, blockedId := v, createdAt := 0 }

/-- A block stands with the first of the others, or does not. -/
theorem blocks_decide (hrow : db.room r = some row) (hcategory : row.category = directCategory) (hview : mayView db r u = true)
    {peer : UserId} (hpeer : directPeer db r u = some peer) :
    (visibleAccess { db with blocks := .empty } r u).isOk = true ∧
    (visibleAccess { db with blocks := oneBlock u peer } r u).isOk = false := by
  have hboth : ∀ blocks : Table Block, (visibleAccess { db with blocks } r u).isOk =
      !blockedEitherWay { db with blocks } u peer := by
    intro blocks
    have hsame : mayView { db with blocks } r u = true := by
      unfold mayView
      rw [access_sameStanding (sameStanding_blocks blocks)]
      exact hview
    have hp : directPeer { db with blocks } r u = some peer := hpeer
    have hrow' : ({ db with blocks } : Db).room r = some row := hrow
    rw [visibleAccess_direct hrow' hcategory hsame, hp, Option.all_some]
  rw [hboth, hboth]
  refine ⟨rfl, ?_⟩
  have hstands : (oneBlock u peer).contains (u, peer) = true := by
    unfold oneBlock
    rw [Table.contains_insert]
    simp [key]
  unfold blockedEitherWay
  rw [hstands]
  rfl

theorem blindToBlocks_iff (hrow : db.room r = some row) : BlindToBlocks db r u ↔
    (row.category = directCategory → mayView db r u = true → directPeer db r u = none) := by
  constructor
  · intro h hcategory hview
    rcases hpeer : directPeer db r u with _ | peer
    · rfl
    · obtain ⟨hopen, hclosed⟩ := blocks_decide hrow hcategory hview hpeer
      rw [h] at hopen hclosed
      rw [hopen] at hclosed
      cases hclosed
  · intro h blocks
    by_cases hcategory : row.category = directCategory
    · rcases hview : mayView db r u
      · exact visibleAccess_hidden (sameStanding_blocks blocks) hview
      · -- nobody else is in the room, so there is no block to ask about
        have hnone := h hcategory hview
        unfold visibleAccess
        rw [access_sameStanding (sameStanding_blocks blocks)]
        have hpeer : ∀ room, ensurePeer { db with blocks } room r u = ensurePeer db room r u := by
          intro room
          have hnone' : directPeer { db with blocks } r u = none := hnone
          unfold ensurePeer
          rw [hnone, hnone']
        simp only [hpeer]
    · exact visibleAccess_channel (sameStanding_blocks blocks) hrow hcategory

/-- With another participant in it, the channel would be closed by a block. -/
def joinedBy (db : Db) (r : RoomId) (w : UserId) : Db :=
  let p : RoomParticipant :=
    { roomId := r, userId := w, role := .participant, isMuted := false, isAnonymous := false, joinedAt := 0, lastSeenAt := 0 }
  { db with roomParticipants := Table.empty.insert p }

theorem directPeer_joinedBy {w : UserId} (h : w ≠ u) : directPeer (joinedBy db r w) r u = some w := by
  unfold directPeer joinedBy Table.selectFirst Table.select
  rw [Table.rows_insert rfl]
  simp [Table.empty, Table.firstBy, h]

theorem dependsOnStanding_iff (hrow : db.room r = some row) :
    DependsOnStanding db r u ↔ (row.category = directCategory → mayView db r u = false) := by
  constructor
  · intro h hcategory
    rcases hview : mayView db r u
    · rfl
    · exfalso
      -- with somebody else in the room, a block between the two decides
      obtain ⟨w, hw⟩ : ∃ w : UserId, w ≠ u := ⟨⟨u.uuid + 1⟩, fun he => by simpa using congrArg (·.uuid) he⟩
      have hview' : mayView (joinedBy db r w) r u = true := hview
      have hrow' : (joinedBy db r w).room r = some row := hrow
      obtain ⟨hopen, hclosed⟩ := blocks_decide hrow' hcategory hview' (directPeer_joinedBy hw)
      have hsame : ∀ blocks, visibleAccess { joinedBy db r w with blocks } r u = visibleAccess db r u :=
        fun blocks => h _ ⟨rfl, fun _ => rfl, rfl⟩
      rw [hsame] at hopen hclosed
      rw [hopen] at hclosed
      cases hclosed
  · intro h db' hsame
    by_cases hcategory : row.category = directCategory
    · exact visibleAccess_hidden hsame (h hcategory)
    · exact visibleAccess_channel hsame hrow hcategory

end Access

/-! ## Which channels are conversations -/

/-- No channel of a community is under the category of conversations. -/
def NoneDirect (db : Db) : Prop :=
  ∀ r row, db.room r = some row → row.communityId.isSome = true → row.category ≠ directCategory

/-- Access to every channel is, for every user, a function of the membership, the roles and the overrides, whatever
blocks come and go. -/
def ChannelsOpen (db : Db) : Prop :=
  ∀ r row u, db.room r = some row → row.communityId.isSome = true → DependsOnStanding db r u ∧ BlindToBlocks db r u

/-- What a request must not do for the law to hold: be accepted as the creation of a channel under the category of
conversations, or as an update that brings a channel under it. -/
def KeepsChannels (db : Db) : Request → Prop
  | .create id communityId u input =>
    (created db id communityId u input).isSome = true → communityId.isSome = true → input.category ≠ some directCategory
  | .update r u input =>
    (acceptedUpdate db r u input).isSome = true → (db.room r).any (fun row => row.communityId.isSome) = true →
      input.category ≠ some directCategory
  | _ => True

theorem BlindToBlocks.of_standing {db : Db} {r : RoomId} {u : UserId} (h : DependsOnStanding db r u) : BlindToBlocks db r u :=
  fun blocks => h _ (sameStanding_blocks blocks)

theorem NoneDirect.channelsOpen {db : Db} (h : NoneDirect db) : ChannelsOpen db := by
  intro r row u hrow hchannel
  have hstanding := (dependsOnStanding_iff (u := u) hrow).2 fun hdirect => absurd hdirect (h r row hrow hchannel)
  exact ⟨hstanding, .of_standing hstanding⟩

theorem noneDirect_opened {db : Db} {req : Request} {id : RoomId} {communityId : Option CommunityId} {u : UserId}
    {input : CreateRoom} {room : Room} (ho : Opens db id req communityId u input room) (hk : KeepsChannels db req)
    (hchannel : room.communityId.isSome = true) : room.category ≠ directCategory := by
  intro hdirect
  have hspec := ho.spec
  rw [hspec.community] at hchannel
  have hcategory := category_dm.1 (hspec.category.symm.trans hdirect)
  cases ho with
  | create h => exact hk (by rw [h]; rfl) hchannel hcategory
  | direct => cases hchannel

theorem noneDirect_effect {db : Db} {req : Request} (hi : NoneDirect db) (hk : KeepsChannels db req) :
    NoneDirect (effect db req) := by
  intro r row' hrow' hchannel
  cases row_effect hrow' with
  | opened ho hrow =>
    subst hrow
    have hopened := noneDirect_opened ho hk
    exact hopened hchannel
  | channel _ _ _ _ hrow =>
    subst hrow
    exact show "random" ≠ directCategory by decide
  | @updated row _ input _ hold hreq ha hrow =>
    subst hreq hrow
    obtain ⟨name, _, rfl, -⟩ := acceptedUpdate_some ha
    have hnot : input.category ≠ some directCategory := hk (by rw [ha]; rfl) (by rw [hold]; exact hchannel)
    -- the update names another category, or leaves the one there was
    change input.category.getD row.category ≠ directCategory
    rcases hc : input.category with _ | c
    · exact hi r row hold hchannel
    · exact fun h => hnot (hc.trans (congrArg some h))
  | expired hold _ _ hrow =>
    subst hrow
    have hkept := hi r _ hold
    exact hkept hchannel
  | reaped hold _ _ hrow =>
    subst hrow
    have hkept := hi r _ hold
    exact hkept hchannel
  | closed hold _ hrow =>
    subst hrow
    have hkept := hi r _ hold
    exact hkept hchannel
  | counted hold _ _ hrow =>
    subst hrow
    have hkept := hi r _ hold
    exact hkept hchannel
  | kept hold => exact hi r row' hold hchannel

theorem noneDirect_step {db : Db} {req : Request} (hi : NoneDirect db) (hk : KeepsChannels db req) :
    NoneDirect (step db req) := by
  intro r row hrow
  rw [room_step] at hrow
  exact noneDirect_effect hi hk r row hrow

/-! ## Runs -/

/-- Blocks pass a room by exactly where it is not under the category of conversations, or where the user may not see
it anyway or is the only one in it; and over every run, where no channel is created or brought under that category,
they pass every channel by in every state reached. -/
theorem channels_open_iff (now : Timestamp) (reqs : List Request) :
    (∀ db r row u, db.room r = some row →
      (DependsOnStanding db r u ↔ (row.category = directCategory → mayView db r u = false)) ∧
      (BlindToBlocks db r u ↔ (row.category = directCategory → mayView db r u = true → directPeer db r u = none))) ∧
    (Along step KeepsChannels (Db.empty now) reqs → Always step ChannelsOpen (Db.empty now) reqs) := by
  refine ⟨fun db r row u hrow => ⟨dependsOnStanding_iff hrow, blindToBlocks_iff hrow⟩, fun h => ?_⟩
  have hnone : NoneDirect (Db.empty now) := fun r row hrow => (by cases hrow)
  exact (always_of_along (fun _ _ hi hk => noneDirect_step hi hk) hnone h).mono fun _ => NoneDirect.channelsOpen

/-- A community of ana's, and a channel of it under the category of conversations that ben is given a place in. -/
def channelForDms : List Request :=
  [.register (account ⟨1⟩ "ana"), .register (account ⟨2⟩ "ben"), .createCommunity ⟨5⟩ ⟨1⟩ [] [],
    .create ⟨10⟩ (some ⟨5⟩) ⟨1⟩ { name := "dms open", category := some "dm", roomType := .text, participantIds := some [⟨2⟩] }]

/-- The channel is there and ana sees it; when ben blocks her, she is shut out of the channel of her own community. -/
theorem owner_shut_out :
    ¬ Always step ChannelsOpen (Db.empty 0) channelForDms ∧
    ((run step (Db.empty 0) channelForDms).room ⟨10⟩).map (fun row => (row.category, row.communityId)) =
      some ("dm", some ⟨5⟩) ∧
    (visibleAccess (run step (Db.empty 0) channelForDms) ⟨10⟩ ⟨1⟩).isOk = true ∧
    (visibleAccess (run step (Db.empty 0) (channelForDms ++ [.block ⟨2⟩ ⟨1⟩])) ⟨10⟩ ⟨1⟩).isOk = false := by
  have hrow : ((run step (Db.empty 0) channelForDms).room ⟨10⟩).map (fun row => (row.category, row.communityId)) =
      some ("dm", some ⟨5⟩) := by decide +kernel
  have hpeer : directPeer (run step (Db.empty 0) channelForDms) ⟨10⟩ ⟨1⟩ = some ⟨2⟩ := by decide +kernel
  have hview : mayView (run step (Db.empty 0) channelForDms) ⟨10⟩ ⟨1⟩ = true := by decide +kernel
  refine ⟨fun h => ?_, hrow, by decide +kernel, by decide +kernel⟩
  obtain ⟨row, hr, hcols⟩ := Option.map_eq_some_iff.1 hrow
  obtain ⟨hcategory, hcommunity⟩ := Prod.mk.inj hcols
  have hopen := (h.last _ row ⟨1⟩ hr (by rw [hcommunity]; rfl)).2
  have hnone := (blindToBlocks_iff hr).1 hopen hcategory hview
  rw [hpeer] at hnone
  cases hnone

end Genzh.Room
