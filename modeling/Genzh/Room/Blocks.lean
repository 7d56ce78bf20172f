/-
Blocks and direct conversations. Opening a conversation checks the block between its two ends; the
other ways into one do not: a room can be created as a conversation of anybody, a third person can
join one, and an update can turn any standalone room into one. Which of these steps bring two blocked
users together, and which blocked users are let in, is said exactly.
-/
import Genzh.Room.Inversion
import Genzh.Room.Visibility

namespace Genzh.Room

open Genzh.Lib Genzh.Domain Genzh.Infrastructure Genzh.Community Genzh.Social

/-- Do both users participate in the direct conversation `d`? -/
def together (db : Db) (d : RoomId) (u v : UserId) : Bool :=
  conversation db d && (db.participates d u && db.participates d v)

/-- No two of these users are blocked from each other. -/
def NoBlockAmong (db : Db) (us : List UserId) : Prop :=
  ∀ u ∈ us, ∀ v ∈ us, u ≠ v → blockedEitherWay db u v = false

/-- The step brings no two users together between whom a block stands. -/
def BringsNoneTogether (db : Db) (req : Request) : Prop :=
  ∀ d u v, u ≠ v → blockedEitherWay db u v = true → together (step db req) d u v = true → together db d u v = true

/-- Whoever is blocked from a participant of a conversation does not see it. -/
def RefusesBlocked (db : Db) : Prop :=
  ∀ d u v, conversation db d = true → u ≠ v → blockedEitherWay db u v = true → db.participates d v = true →
    (visibleAccess db d u).isOk = false

/-- Whoever is blocked from a participant of a conversation is blocked from the earliest of the other
participants. -/
def EarliestBlocked (db : Db) : Prop :=
  ∀ d u v, conversation db d = true → u ≠ v → blockedEitherWay db u v = true → db.participates d v = true →
    barred db d u = true

/-- What a request must not do for the law to hold: be accepted as the creation of a conversation among
blocked users, as a join of one that holds somebody the joiner is blocked from, or as an update that turns
a room with two blocked participants into one. -/
def KeepsApart (db : Db) : Request → Prop
  | .create id communityId u input =>
    (created db id communityId u input).isSome = true → communityId = none → input.category = some directCategory →
      NoBlockAmong db (guests db u input)
  | .join r u =>
    (visibleAccess db r u).isOk = true → seatable db r u = true → conversation db r = true →
      db.participates r u = true ∨ ∀ v, db.participates r v = true → v ≠ u → blockedEitherWay db u v = false
  | .update r u input =>
    (acceptedUpdate db r u input).isSome = true → (db.room r).any (fun row => row.communityId.isNone) = true →
      input.category = some directCategory → conversation db r = true ∨ NoBlockAmong db (db.participants r)
  | _ => True

theorem refusesBlocked_iff (db : Db) : RefusesBlocked db ↔ EarliestBlocked db := by
  unfold RefusesBlocked EarliestBlocked
  constructor
  · intro h d u v hd huv hb hv
    have := h d u v hd huv hb hv
    rw [visibleAccess_conversation hd] at this
    simpa using this
  · intro h d u v hd huv hb hv
    rw [visibleAccess_conversation hd, h d u v hd huv hb hv]
    rfl

theorem together_comm (db : Db) (d : RoomId) (u v : UserId) : together db d u v = together db d v u := by
  unfold together
  rw [Bool.and_comm (db.participates d u)]

theorem together_iff {db : Db} {d : RoomId} {u v : UserId} :
    together db d u v = true ↔
      (∃ row, db.room d = some row ∧ isConversation row = true) ∧ db.participates d u = true ∧ db.participates d v = true := by
  unfold together conversation
  rw [Bool.and_eq_true, Bool.and_eq_true, Option.any_eq_true]

/-! ## A new conversation -/

/-- Somebody who is in a new room after the step that opens it is one of its guests. -/
theorem Opens.guest {db : Db} {r : RoomId} {req : Request} {communityId : Option CommunityId} {u v : UserId}
    {input : CreateRoom} {room : Room} (ho : Opens db r req communityId u input room) (hf : NoStray db)
    (hv : (effect db req).participates r v = true) : v ∈ guests db u input := by
  rw [ho.effect_eq, participates_opened ho.spec] at hv
  rcases hv with hv | ⟨-, hv⟩
  · obtain ⟨row, hrow⟩ := hf r v hv
    have hnone : db.room r = none := Table.contains_eq_false.1 ho.spec.fresh
    rw [hnone] at hrow
    cases hrow
  · exact hv

theorem mem_guests {db : Db} {u v : UserId} {input : CreateRoom} (h : v ∈ guests db u input) :
    v = u ∨ v ∈ input.participantIds.getD [] := by
  unfold guests invited at h
  rw [List.mem_dedup, List.mem_cons, List.mem_filter, List.mem_filter] at h
  rcases h with h | h
  · exact .inl h
  · exact .inr h.1.1

/-- Those who open a conversation with each other are not blocked. -/
theorem noBlockAmong_direct {db : Db} {id : RoomId} {a b : UserId} {name handle : String} {room : Room}
    (h : openedDirect db id a b name handle = some room) : NoBlockAmong db (guests db a (directInput b name handle)) := by
  have hab := (openedDirect_some h).1
  intro u hu v hv huv
  have hu := mem_guests hu
  have hv := mem_guests hv
  simp only [directInput, Option.getD_some, List.mem_singleton] at hu hv
  rcases hab with rfl | hab
  · exact absurd (((or_self_iff.1 hu).trans (or_self_iff.1 hv).symm)) huv
  · rcases hu with rfl | rfl <;> rcases hv with rfl | rfl
    · exact absurd rfl huv
    · exact hab
    · rw [blockedEitherWay_comm]
      exact hab
    · exact absurd rfl huv

/-! ## One step -/

theorem bringsNoneTogether_iff_effect {db : Db} {req : Request} :
    BringsNoneTogether db req ↔ ∀ d u v, u ≠ v → blockedEitherWay db u v = true →
      together (effect db req) d u v = true → together db d u v = true := by
  unfold BringsNoneTogether
  have h : ∀ d u v, together (step db req) d u v = together (effect db req) d u v := by
    intro d u v
    unfold together conversation
    rw [room_step, participates_step, participates_step]
  simp only [h]

/-- A joiner, and somebody who was there before. -/
theorem together_of_joined {db : Db} {d : RoomId} {u v : UserId} (hk : KeepsApart db (.join d u))
    (huv : u ≠ v) (hb : blockedEitherWay db u v = true) (hvis : (visibleAccess db d u).isOk = true)
    (hseat : seatable db d u = true) (hv : db.participates d v = true)
    (hconv : ∃ row, (effect db (.join d u)).room d = some row ∧ isConversation row = true) :
    together db d u v = true := by
  obtain ⟨row', hrow', hconv'⟩ := hconv
  have hd : ∃ row, db.room d = some row ∧ isConversation row = true := by
    cases row_effect hrow' with
    | opened h => cases h
    | channel id owner t hnew hrow =>
      subst hrow
      simp [isConversation, templateRow] at hconv'
    | updated _ hreq => cases hreq
    | expired _ hreq => cases hreq
    | reaped _ hreq => cases hreq
    | closed _ hreq => cases hreq
    | counted hold u hreq hrow =>
      subst hrow
      exact ⟨_, hold, hconv'⟩
    | kept hold => exact ⟨row', hold, hconv'⟩
  have hdc : conversation db d = true := by
    unfold conversation
    rw [Option.any_eq_true]
    exact hd
  rcases hk hvis hseat hdc with hu | hnone
  · exact together_iff.2 ⟨hd, hu, hv⟩
  · rw [hnone v hv (Ne.symm huv)] at hb
    cases hb

/-- Two who take part in a room that an update makes a conversation. -/
theorem together_of_updated {db : Db} {d : RoomId} {u v w : UserId} {row : RoomRow} {input input' : UpdateRoom}
    (hk : KeepsApart db (.update d w input)) (huv : u ≠ v) (hb : blockedEitherWay db u v = true) (hold : db.room d = some row)
    (ha : acceptedUpdate db d w input = some input') (hu : db.participates d u = true) (hv : db.participates d v = true)
    (hconv : isConversation (updateRow db.now input' row) = true) : together db d u v = true := by
  obtain ⟨name, _, rfl, _⟩ := acceptedUpdate_some ha
  by_cases hwas : isConversation row
  · exact together_iff.2 ⟨⟨row, hold, hwas⟩, hu, hv⟩
  · obtain ⟨hcat, hcomm⟩ := isConversation_iff.1 hconv
    have hcomm : row.communityId = none := hcomm
    -- it was none before, so the update itself names the category
    have hdm : input.category = some directCategory := by
      have hget : input.category.getD row.category = directCategory := hcat
      rcases hi : input.category with _ | c
      · rw [hi] at hget
        exact absurd (isConversation_iff.2 ⟨hget, hcomm⟩) hwas
      · rw [hi] at hget
        exact congrArg some hget
    rcases hk (by rw [ha]; rfl) (by rw [hold]; simp [hcomm]) hdm with hc | hnb
    · unfold conversation at hc
      rw [hold] at hc
      exact absurd hc hwas
    · rw [hnb u (Db.mem_participants.2 hu) v (Db.mem_participants.2 hv) huv] at hb
      cases hb

theorem keepsApart_brings {db : Db} {req : Request} (hf : NoStray db) (hk : KeepsApart db req) :
    BringsNoneTogether db req := by
  rw [bringsNoneTogether_iff_effect]
  intro d u v huv hb h
  obtain ⟨⟨row', hrow', hconv⟩, hu', hv'⟩ := together_iff.1 h
  -- by how each of the two comes to be there; a newly opened room holds its guests only
  have hopen : ∀ {communityId : Option CommunityId} {w : UserId} {input : CreateRoom} {room : Room},
      Opens db d req communityId w input room → together db d u v = true := by
    intro communityId w input room ho
    have hug := ho.guest hf hu'
    have hvg := ho.guest hf hv'
    have hrow := (room_opened ho.spec).1
    rw [← ho.effect_eq, hrow'] at hrow
    have hcat : room.category = directCategory ∧ room.communityId = none := by
      rw [Option.some.inj hrow] at hconv
      exact isConversation_iff.1 hconv
    cases ho with
    | create hc =>
      have hspec := created_some hc
      have := hk (by rw [hc]; rfl) (hspec.community ▸ hcat.2) (category_dm.1 (hspec.category ▸ hcat.1)) u hug v hvg huv
      rw [this] at hb
      cases hb
    | direct hc =>
      rw [noBlockAmong_direct hc u hug v hvg huv] at hb
      cases hb
  cases entry_effect hu' with
  | opened ho => exact hopen ho
  | joined hreq hvis hseat =>
    subst hreq
    cases entry_effect hv' with
    | opened ho => exact hopen ho
    | joined hreq => exact absurd (by cases hreq; rfl) huv
    | stayed hv => exact together_of_joined hk huv hb hvis hseat hv ⟨row', hrow', hconv⟩
  | stayed hu =>
    cases entry_effect hv' with
    | opened ho => exact hopen ho
    | joined hreq hvis hseat =>
      subst hreq
      rw [together_comm]
      rw [blockedEitherWay_comm] at hb
      exact together_of_joined hk (Ne.symm huv) hb hvis hseat hu ⟨row', hrow', hconv⟩
    | stayed hv =>
      cases row_effect hrow' with
      | opened ho => exact hopen ho
      | channel id owner t hnew hrow =>
        subst hrow
        simp [isConversation, templateRow] at hconv
      | updated hold hreq ha hrow =>
        subst hreq hrow
        exact together_of_updated hk huv hb hold ha hu hv hconv
      | expired hold hreq _ hrow =>
        subst hrow
        exact together_iff.2 ⟨⟨_, hold, hconv⟩, hu, hv⟩
      | reaped hold hreq _ hrow =>
        subst hrow
        exact together_iff.2 ⟨⟨_, hold, hconv⟩, hu, hv⟩
      | closed hold hreq hrow =>
        subst hrow
        exact together_iff.2 ⟨⟨_, hold, hconv⟩, hu, hv⟩
      | counted hold _ hreq hrow =>
        subst hrow
        exact together_iff.2 ⟨⟨_, hold, hconv⟩, hu, hv⟩
      | kept hold => exact together_iff.2 ⟨⟨_, hold, hconv⟩, hu, hv⟩

theorem brings_keepsApart {db : Db} {req : Request} (hbr : BringsNoneTogether db req) : KeepsApart db req := by
  rw [bringsNoneTogether_iff_effect] at hbr
  cases req with
  | create id communityId u input =>
    intro hsome hcomm hdm v hv w hw hvw
    obtain ⟨room, hc⟩ := Option.isSome_iff_exists.1 hsome
    have ho : Opens db id (.create id communityId u input) communityId u input room := .create hc
    have hspec := ho.spec
    rw [Bool.eq_false_iff]
    intro hb
    have htog : together (effect db (.create id communityId u input)) id v w = true := by
      rw [ho.effect_eq]
      refine together_iff.2 ⟨⟨_, (room_opened hspec).1, isConversation_iff.2 ⟨?_, ?_⟩⟩, ?_, ?_⟩
      · exact hspec.category.trans (category_dm.2 hdm)
      · exact hspec.community.trans hcomm
      · exact (participates_opened hspec id v).2 (.inr ⟨rfl, hv⟩)
      · exact (participates_opened hspec id w).2 (.inr ⟨rfl, hw⟩)
    obtain ⟨⟨row, hrow, -⟩, -⟩ := together_iff.1 (hbr id v w hvw hb htog)
    have hnone : db.room id = none := Table.contains_eq_false.1 hspec.fresh
    rw [hnone] at hrow
    cases hrow
  | join r u =>
    intro hvis hseat hconv
    by_cases hu : db.participates r u
    · exact .inl hu
    · refine .inr fun v hv hvu => ?_
      rw [Bool.eq_false_iff]
      intro hb
      have heff : effect db (.join r u) = seated r u (joinRole db r u) db := by simp only [effect, hvis, if_true]
      unfold conversation at hconv
      obtain ⟨row, hrow, hc⟩ := (Option.any_eq_true _ _).1 hconv
      have htog : together (effect db (.join r u)) r u v = true := by
        rw [heff]
        have hrow' : (seated r u (joinRole db r u) db).room r =
            some (recountRow db.now ((seated r u (joinRole db r u) db).participantCount r) row) := by
          rw [room_seated, if_pos ⟨hseat, rfl⟩, hrow, Option.map_some]
        refine together_iff.2 ⟨⟨_, hrow', hc⟩, ?_, ?_⟩
        · rw [participates_seated]
          simp [hseat]
        · rw [participates_seated, hv]
          rfl
      obtain ⟨-, hu', -⟩ := together_iff.1 (hbr r u v (Ne.symm hvu) hb htog)
      exact hu hu'
  | update r u input =>
    intro hsome hcomm hdm
    by_cases hconv : conversation db r
    · exact .inl hconv
    · refine .inr fun v hv w hw hvw => ?_
      rw [Bool.eq_false_iff]
      intro hb
      obtain ⟨input', ha⟩ := Option.isSome_iff_exists.1 hsome
      obtain ⟨name, row, rfl, hrow, -⟩ := acceptedUpdate_some ha
      rw [hrow, Option.any_some, Option.isNone_iff_eq_none] at hcomm
      have htog : together (effect db (.update r u input)) r v w = true := by
        simp only [effect, ha]
        refine together_iff.2 ⟨⟨updateRow db.now { input with name } row, ?_, isConversation_iff.2 ⟨?_, hcomm⟩⟩,
          Db.mem_participants.1 hv, Db.mem_participants.1 hw⟩
        · rw [room_withUpdate, if_pos rfl, hrow, Option.map_some]
        · change input.category.getD row.category = directCategory
          rw [hdm, Option.getD_some]
      obtain ⟨⟨row', hrow', hc⟩, -⟩ := together_iff.1 (hbr r v w hvw hb htog)
      refine hconv ?_
      unfold conversation
      rw [hrow', Option.any_some, hc]
  | _ => trivial

/-! ## Runs -/

/-- Over every run: no step brings two blocked users together and no blocked user is ever let in, exactly
when every step keeps them apart and whoever is blocked from somebody in a conversation is always blocked
from its earliest other participant. -/
theorem blocks_respected_iff (now : Timestamp) (reqs : List Request) :
    (Along step BringsNoneTogether (Db.empty now) reqs ∧ Always step RefusesBlocked (Db.empty now) reqs) ↔
      (Along step KeepsApart (Db.empty now) reqs ∧ Always step EarliestBlocked (Db.empty now) reqs) := by
  have hstep : Along step BringsNoneTogether (Db.empty now) reqs ↔ Along step KeepsApart (Db.empty now) reqs :=
    along_congr noStray_step (fun _ _ hf => ⟨brings_keepsApart, keepsApart_brings hf⟩) (noStray_empty now)
  have hstate : Always step RefusesBlocked (Db.empty now) reqs ↔ Always step EarliestBlocked (Db.empty now) reqs :=
    ⟨fun h => h.mono fun db => (refusesBlocked_iff db).1, fun h => h.mono fun db => (refusesBlocked_iff db).2⟩
  rw [hstep, hstate]

/-- Three accounts, the second and the third of them blocked from each other, and a conversation of all
three created as an ordinary room. -/
def conversationOfBlocked : List Request :=
  [.register (account ⟨1⟩ "ana"), .register (account ⟨2⟩ "ben"), .register (account ⟨3⟩ "cyd"), .block ⟨2⟩ ⟨3⟩,
    .create ⟨10⟩ none ⟨1⟩ { name := "us", category := some "dm", roomType := .text, participantIds := some [⟨2⟩, ⟨3⟩] }]

/-- Creating the conversation brings the blocked two together, and each of them still sees it. -/
theorem blocked_users_together :
    ¬ (Along step BringsNoneTogether (Db.empty 0) conversationOfBlocked ∧
      Always step RefusesBlocked (Db.empty 0) conversationOfBlocked) ∧
    blockedEitherWay (run step (Db.empty 0) conversationOfBlocked) ⟨2⟩ ⟨3⟩ = true ∧
      together (run step (Db.empty 0) conversationOfBlocked) ⟨10⟩ ⟨2⟩ ⟨3⟩ = true ∧
      (visibleAccess (run step (Db.empty 0) conversationOfBlocked) ⟨10⟩ ⟨2⟩).isOk = true ∧
      (visibleAccess (run step (Db.empty 0) conversationOfBlocked) ⟨10⟩ ⟨3⟩).isOk = true := by
  have hb : blockedEitherWay (run step (Db.empty 0) conversationOfBlocked) ⟨2⟩ ⟨3⟩ = true := by decide +kernel
  have ht : together (run step (Db.empty 0) conversationOfBlocked) ⟨10⟩ ⟨2⟩ ⟨3⟩ = true := by decide +kernel
  have hv : (visibleAccess (run step (Db.empty 0) conversationOfBlocked) ⟨10⟩ ⟨2⟩).isOk = true := by decide +kernel
  refine ⟨fun h => ?_, hb, ht, hv, by decide +kernel⟩
  rw [together, Bool.and_eq_true, Bool.and_eq_true] at ht
  have := h.2.last _ _ _ ht.1 (by decide) hb ht.2.2
  rw [this] at hv
  cases hv

end Genzh.Room
