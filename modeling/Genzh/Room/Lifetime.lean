/-
The lifetime of standalone rooms: a playground room ends within a day of its creation, a direct
conversation never. Creation decides between the two by the category, and an update can change the
category afterwards; a creation can also give a conversation a duration, and the expiry job passes over
the rooms that are neither active nor ended. The runs that do none of this are those that keep the law.
-/
import Genzh.Room.Inversion

namespace Genzh.Room

open Genzh.Lib Genzh.Domain Genzh.Infrastructure Genzh.Community Genzh.Social Genzh.Admin

/-- Twenty-four hours. -/
def day : Duration := maxPlaygroundTtlMinutes * 60 * 1000000

/-- The lifetime a standalone room is meant to have: none for a conversation, at most a day for the rest. -/
def LifetimeRight (row : RoomRow) : Prop :=
  if row.category = directCategory then row.expiresAt = none
  else ∃ e, row.expiresAt = some e ∧ row.createdAt < e ∧ e ≤ row.createdAt + day

/-- Every standalone room has the lifetime it is meant to have. -/
def LifetimesRight (db : Db) : Prop :=
  ∀ r row, db.room r = some row → row.communityId = none → LifetimeRight row

def isJob : Request → Bool
  | .expire | .reap _ => true
  | _ => false

/-- A job ends no conversation, and after the expiry job no playground room is left past its deadline. -/
structure JobsRight (db : Db) (req : Request) : Prop where
  spares : isJob req = true → ∀ r row row', db.room r = some row → isConversation row = true → row.status ≠ .ended →
    (step db req).room r = some row' → row'.status ≠ .ended
  sweeps : req = .expire → ∀ r row', (step db req).room r = some row' → row'.toRoom.isPlayground = true →
    row'.isExpired (step db req).now = true → row'.status = .ended

/-- What a request must not do for the law to hold: give a conversation a duration, move a standalone room
between conversations and playground rooms, or leave the expiry job a playground room past its deadline
that is neither active nor ended. -/
def KeepsLifetimes (db : Db) : Request → Prop
  | .create id communityId u input =>
    (created db id communityId u input).isSome = true → communityId = none → input.category = some directCategory →
      input.durationMinutes = none
  | .update r u input =>
    (acceptedUpdate db r u input).isSome = true → ∀ row, db.room r = some row → row.communityId = none →
      ∀ c, input.category = some c → (c = directCategory ↔ row.category = directCategory)
  | .expire =>
    ∀ r row, db.room r = some row → row.toRoom.isPlayground = true → row.isExpired db.now = true →
      row.status = .active ∨ row.status = .ended
  | _ => True

/-! ## The lifetime of a new room -/

theorem roomExpiry_some {now : Timestamp} {minutes : Int} {e : Option Timestamp}
    (h : roomExpiry now (some minutes) = .ok e) : e = some (now + minutes * 60 * 1000000) := by
  simp only [roomExpiry] at h
  split at h
  · rename_i t ht
    obtain ⟨d, hd, hadd⟩ := Option.bind_eq_some_iff.1 ht
    unfold Duration.minutes at hd
    split at hd
    · cases hd
      cases h
      rw [Timestamp.add_eq_some hadd]
    · cases hd
  · cases h

/-- A number of minutes clamped to the ceiling ends after it starts, and within a day. -/
theorem clamped_minutes (now minutes : Int) :
    now < now + max 1 (min minutes maxPlaygroundTtlMinutes) * 60 * 1000000 ∧
      now + max 1 (min minutes maxPlaygroundTtlMinutes) * 60 * 1000000 ≤ now + day := by
  simp only [day, maxPlaygroundTtlMinutes]
  omega

/-- Where a new standalone room is a conversation without a duration or no conversation, its lifetime is right. -/
theorem Created.lifetime {db : Db} {id : RoomId} {u : UserId} {input : CreateRoom} {room : Room}
    (hc : Created db id none u input room) (hd : input.category = some directCategory → input.durationMinutes = none)
    (total : Nat) : LifetimeRight (recountRow db.now total (newRow db.now room)) := by
  have hexp := hc.expiry
  change if room.category = directCategory then room.expiresAt = none else _
  by_cases hdm : room.category = directCategory
  · rw [if_pos hdm]
    have hp : isPlayground none room.category = false := by simp [isPlayground, hdm]
    unfold roomDuration at hexp
    rw [hp, hd (category_dm.1 (hc.category ▸ hdm))] at hexp
    exact (Except.ok.inj hexp).symm
  · rw [if_neg hdm]
    have hp : isPlayground none room.category = true := by simp [isPlayground, hdm]
    unfold roomDuration at hexp
    rw [hp, if_pos rfl] at hexp
    exact ⟨_, roomExpiry_some hexp, clamped_minutes _ _⟩

/-! ## One step -/

/-- A row that keeps its category and its two dates keeps its lifetime. -/
theorem LifetimeRight.of_same {row row' : RoomRow} (h : LifetimeRight row) (hcat : row'.category = row.category)
    (hexp : row'.expiresAt = row.expiresAt) (hcre : row'.createdAt = row.createdAt) : LifetimeRight row' := by
  unfold LifetimeRight
  rw [hcat, hexp, hcre]
  exact h

theorem keepsLifetimes_right {db : Db} {req : Request} (hi : LifetimesRight db) (hk : KeepsLifetimes db req) :
    LifetimesRight (effect db req) := by
  intro r row' h hcomm
  cases row_effect h with
  | opened ho hrow =>
    subst hrow
    have hnone := ho.spec.community.symm.trans hcomm
    subst hnone
    refine ho.spec.lifetime ?_ _
    cases ho with
    | create hc => exact hk (by rw [hc]; rfl) rfl
    | direct hc => exact fun _ => rfl
  | channel id owner t hnew hrow =>
    subst hrow
    cases hcomm
  | updated hold hreq ha hrow =>
    rename_i row u input input'
    subst hreq hrow
    obtain ⟨name, _, rfl, _⟩ := acceptedUpdate_some ha
    have hrow := hi r row hold hcomm
    have hcat : (input.category.getD row.category = directCategory) ↔ row.category = directCategory := by
      rcases hic : input.category with _ | c
      · exact Iff.rfl
      · exact hk (by rw [ha]; rfl) row hold hcomm c hic
    unfold LifetimeRight at hrow ⊢
    change if input.category.getD row.category = directCategory then row.expiresAt = none else _
    by_cases hdm : row.category = directCategory
    · rw [if_pos hdm] at hrow
      rw [if_pos (hcat.2 hdm)]
      exact hrow
    · rw [if_neg hdm] at hrow
      rw [if_neg fun h => hdm (hcat.1 h)]
      exact hrow
  | expired hold _ _ hrow =>
    subst hrow
    exact (hi r _ hold hcomm).of_same rfl rfl rfl
  | reaped hold _ _ hrow =>
    subst hrow
    exact (hi r _ hold hcomm).of_same rfl rfl rfl
  | closed hold _ hrow =>
    subst hrow
    exact (hi r _ hold hcomm).of_same rfl rfl rfl
  | counted hold _ _ hrow =>
    subst hrow
    exact (hi r _ hold hcomm).of_same rfl rfl rfl
  | kept hold => exact hi r row' hold hcomm

/-- A conversation with the right lifetime is never past its deadline. -/
theorem elapsed_conversation {db : Db} (hi : LifetimesRight db) {r : RoomId} {row : RoomRow} (hrow : db.room r = some row)
    (hconv : isConversation row = true) : elapsed db.now row = false := by
  obtain ⟨hcat, hcomm⟩ := isConversation_iff.1 hconv
  have h := hi r row hrow hcomm
  unfold LifetimeRight at h
  rw [if_pos hcat] at h
  unfold elapsed
  rw [h]
  simp

theorem now_expire (db : Db) : (effect db .expire).now = db.now := by
  simp only [effect, expired]
  split <;> rfl

theorem keepsLifetimes_jobs {db : Db} {req : Request} (hi : LifetimesRight db) (hk : KeepsLifetimes db req) :
    JobsRight db req := by
  constructor
  · intro hjob r row row' hold hconv hst h
    rw [room_step] at h
    have hrow : ∀ {p : RoomRow → Bool}, p row = false → (endRooms p db).room r = some row' → row'.status ≠ .ended := by
      intro p hp h
      rw [room_endRooms, hold, Option.map_some, hp] at h
      cases h
      exact hst
    cases req with
    | expire =>
      have he := elapsed_conversation hi hold hconv
      have h' : (expired db).room r = some row' := h
      rw [room_expired, ← room_endRooms] at h'
      exact hrow he h'
    | reap grace =>
      refine hrow ?_ h
      unfold abandoned
      simp [(isConversation_iff.1 hconv).1]
    | _ => cases hjob
  · rintro rfl r row' h hplay hexp
    rw [room_step] at h
    have h' : (expired db).room r = some row' := h
    rw [now_step, now_expire] at hexp
    rw [room_expired] at h'
    obtain ⟨row, hold, hrow⟩ := Option.map_eq_some_iff.1 h'
    by_cases he : elapsed db.now row
    · rw [if_pos he] at hrow
      rw [← hrow]
      rfl
    · rw [if_neg he] at hrow
      subst hrow
      rcases hk r row hold hplay hexp with hst | hst
      · refine absurd ?_ he
        unfold elapsed
        unfold Room.isExpired at hexp
        simp [hst, hexp]
      · exact hst

theorem right_keepsLifetimes {db : Db} {req : Request} (hi : LifetimesRight db) (hjobs : JobsRight db req)
    (hi' : LifetimesRight (effect db req)) : KeepsLifetimes db req := by
  cases req with
  | create id communityId u input =>
    intro hsome hcomm hdm
    obtain ⟨room, hc⟩ := Option.isSome_iff_exists.1 hsome
    subst hcomm
    have ho : Opens db id (.create id none u input) none u input room := .create hc
    have hspec := ho.spec
    have hcat : room.category = directCategory := hspec.category.trans (category_dm.2 hdm)
    have hrow := (room_opened hspec).1
    rw [← ho.effect_eq] at hrow
    have h := hi' id _ hrow hspec.community
    change if room.category = directCategory then room.expiresAt = none else _ at h
    rw [if_pos hcat] at h
    have hp : isPlayground none room.category = false := by simp [isPlayground, hcat]
    have hexp := hspec.expiry
    unfold roomDuration at hexp
    rw [hp] at hexp
    rcases hm : input.durationMinutes with _ | m
    · rfl
    · rw [hm] at hexp
      rw [roomExpiry_some hexp] at h
      cases h
  | update r u input =>
    intro hsome row hrow hcomm c hcat
    obtain ⟨input', ha⟩ := Option.isSome_iff_exists.1 hsome
    obtain ⟨name, _, rfl, _⟩ := acceptedUpdate_some ha
    have hrow' : (effect db (.update r u input)).room r = some (updateRow db.now { input with name } row) := by
      simp only [effect, ha]
      rw [room_withUpdate, if_pos rfl, hrow, Option.map_some]
    -- the deadline stays what it was, so the category can only move where both lifetimes agree
    have hnew := hi' r _ hrow' hcomm
    have hold := hi r row hrow hcomm
    change if input.category.getD row.category = directCategory then row.expiresAt = none
      else ∃ e, row.expiresAt = some e ∧ _ at hnew
    unfold LifetimeRight at hold
    rw [hcat, Option.getD_some] at hnew
    by_cases hc : c = directCategory
    · rw [if_pos hc] at hnew
      refine iff_of_true hc ?_
      by_contra hne
      rw [if_neg hne] at hold
      obtain ⟨e, he, -⟩ := hold
      rw [hnew] at he
      cases he
    · rw [if_neg hc] at hnew
      refine iff_of_false hc fun hd => ?_
      rw [if_pos hd] at hold
      obtain ⟨e, he, -⟩ := hnew
      rw [hold] at he
      cases he
  | expire =>
    intro r row hrow hplay hexp
    by_cases hst : row.status = .active
    · exact .inl hst
    · refine .inr (hjobs.sweeps rfl r row ?_ hplay ?_)
      · rw [room_step]
        change (expired db).room r = some row
        have he : elapsed db.now row = false := by
          unfold elapsed
          simp [hst]
        rw [room_expired, hrow, Option.map_some, he]
        rfl
      · rw [now_step, now_expire]
        exact hexp
  | _ => trivial

theorem lifetimesRight_step (db : Db) (req : Request) : LifetimesRight (step db req) ↔ LifetimesRight (effect db req) := by
  unfold LifetimesRight
  simp only [room_step]

theorem lifetimesRight_empty (now : Timestamp) : LifetimesRight (Db.empty now) := by
  intro r row h
  cases h

/-! ## Runs -/

/-- Over every run: standalone rooms have the right lifetime in every state and the jobs keep to it, exactly
when no step gives a conversation a duration, moves a room between the two kinds or leaves the expiry job a
room in between. -/
theorem lifetimes_right_iff (now : Timestamp) (reqs : List Request) :
    Always step LifetimesRight (Db.empty now) reqs ∧ Along step JobsRight (Db.empty now) reqs ↔
      Along step KeepsLifetimes (Db.empty now) reqs := by
  refine always_along_iff (J := fun _ => True) (fun _ _ _ => trivial) (fun db req _ hi => ?_) trivial
    (lifetimesRight_empty now)
  rw [lifetimesRight_step]
  constructor
  · rintro ⟨hjobs, hi'⟩
    exact right_keepsLifetimes hi hjobs hi'
  · intro hk
    exact ⟨keepsLifetimes_jobs hi hk, keepsLifetimes_right hi hk⟩

/-- A playground room whose owner changes its category to that of direct conversations. -/
def playgroundTurnedConversation : List Request :=
  [.register (account ⟨1⟩ "ana"), .create ⟨10⟩ none ⟨1⟩ { name := "hi", roomType := .text },
    .update ⟨10⟩ ⟨1⟩ { category := some "dm" }]

/-- The conversation keeps the deadline of the playground room it was, and the expiry job ends it. -/
theorem conversation_expires :
    ¬ (Always step LifetimesRight (Db.empty 0) playgroundTurnedConversation ∧
      Along step JobsRight (Db.empty 0) playgroundTurnedConversation) ∧
    ((run step (Db.empty 0) playgroundTurnedConversation).room ⟨10⟩).map
      (fun row => (isConversation row, row.expiresAt)) = some (true, some 21600000000) ∧
    ((run step (Db.empty 0) (playgroundTurnedConversation ++ [.clock 21600000000, .expire])).room ⟨10⟩).map
      (fun row => (isConversation row, row.status)) = some (true, .ended) := by
  have hrow : ((run step (Db.empty 0) playgroundTurnedConversation).room ⟨10⟩).map
      (fun row => (isConversation row, row.expiresAt)) = some (true, some 21600000000) := by decide +kernel
  refine ⟨fun h => ?_, hrow, by decide +kernel⟩
  obtain ⟨row, hr, hcols⟩ := Option.map_eq_some_iff.1 hrow
  obtain ⟨hconv, hexp⟩ := Prod.mk.inj hcols
  obtain ⟨hcat, hcomm⟩ := isConversation_iff.1 hconv
  have := h.1.last ⟨10⟩ row hr hcomm
  unfold LifetimeRight at this
  rw [if_pos hcat, hexp] at this
  cases this

end Genzh.Room
