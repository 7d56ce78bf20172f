/-
What the calls on invites keep to, however they take turns: no invite is used more often than its limit says,
only a link that is neither revoked nor expired has a use claimed, a link that looks usable is one whose use
can be claimed, and what is pruned cannot come back to life.

The last but one has an exception. The count of uses is an `INTEGER`, also where the uses are unlimited: the
claim after the 2147483647th fails, of a link that looks usable. The run that leads there is the one whose
claims bring an unlimited link to that count.
-/
import Genzh.Community.InviteCalls

namespace Genzh.Community

open Genzh.Lib Genzh.Domain Genzh.Infrastructure

/-! ## Claims -/

section Claims

variable {db : Db} {code : String}

/-- Would the redemption of a code claim a use? -/
def Claims (db : Db) (code : String) : Prop := ∃ c, ((claimUse code).exec db).1 = .ok (some c)

theorem exec_claimUse (code : String) (db : Db) : (claimUse code).exec db =
    match (db.communityInvites.find code).filter (claimable db.now) with
    | none => (.ok none, db)
    | some i =>
      if i.uses + 1 ≤ maxInteger then
        (.ok (some i.communityId),
          { db with
            communityInvites := db.communityInvites.update code (fun i => { i with uses := i.uses + 1 }) fun _ => rfl })
      else (.error (.repository .database), db) := by
  unfold claimUse
  rw [Prog.exec_read_bind]
  rcases (db.communityInvites.find code).filter (claimable db.now) with _ | i
  · rfl
  · simp only [SqlM.exec_check_bind, decide_eq_true_eq]
    rfl

theorem claims_iff : Claims db code ↔
    ∃ i, db.communityInvites.find code = some i ∧ claimable db.now i = true ∧ i.uses + 1 ≤ maxInteger := by
  unfold Claims
  rw [exec_claimUse]
  rcases hf : (db.communityInvites.find code).filter (claimable db.now) with _ | i
  · constructor
    · rintro ⟨c, hc⟩
      cases hc
    · rintro ⟨i, hfind, hclaim, -⟩
      rw [hfind, Option.filter_some_pos hclaim] at hf
      cases hf
  · obtain ⟨hfind, hclaim⟩ := Option.filter_eq_some_iff.1 hf
    simp only [hfind, Option.some.injEq, exists_eq_left', hclaim, true_and]
    split
    · rename_i hfits
      exact iff_of_true ⟨_, rfl⟩ hfits
    · rename_i hfits
      exact iff_of_false (by rintro ⟨c, hc⟩; cases hc) hfits

end Claims

/-! ## Statements -/

/-- What a statement of a call does to the invites. -/
inductive Touches (call : InviteCall) (db : Db) : Table Invite → Prop
  | nothing : Touches call db db.communityInvites
  | minted (i : Invite) (hfree : db.communityInvites.contains i.code = false) (huses : i.uses = 0)
      (hmax : ∀ max, i.maxUses = some max → 0 < max ∧ max ≤ maxInteger) : Touches call db (db.communityInvites.insert i)
  | claimed (code : String) (u : UserId) (i : Invite) (hcall : call = .redeeming code u)
      (hfind : db.communityInvites.find code = some i) (hclaim : claimable db.now i = true) (hfits : i.uses + 1 ≤ maxInteger) :
      Touches call db (db.communityInvites.update code (fun i => { i with uses := i.uses + 1 }) fun _ => rfl)
  | revoked (code : String) :
      Touches call db (db.communityInvites.update code (fun i => { i with revokedAt := some db.now }) fun _ => rfl)
  | pruned (hcall : call = .pruning) : Touches call db (db.communityInvites.deleteWhere (isStale db.now))

theorem insertInvite_cases (code : String) (c : CommunityId) (u : UserId) (expiresAt : Option Timestamp)
    (maxUses : Option Int32) (db : Db) :
    ((insertInvite code c u expiresAt maxUses).exec db).2 = db ∨
      ∃ i : Invite, i.code = code ∧ i.uses = 0 ∧ (∀ max, i.maxUses = some max → 0 < max ∧ max ≤ maxInteger) ∧
        db.communityInvites.contains code = false ∧
        ((insertInvite code c u expiresAt maxUses).exec db).2 = { db with communityInvites := db.communityInvites.insert i } := by
  unfold insertInvite
  rw [SqlM.exec_check_bind]
  split
  case isFalse => exact .inl rfl
  rename_i hcolumns
  rw [SqlM.exec_check_bind]
  split
  case isFalse => exact .inl rfl
  rename_i hfree
  rw [SqlM.exec_check_bind]
  split
  case isFalse => exact .inl rfl
  refine .inr ⟨_, ?_, ?_, ?_, by simpa using hfree, rfl⟩
  · rfl
  · rfl
  intro max hmax
  obtain ⟨max, rfl, rfl⟩ := Option.map_eq_some_iff.1 hmax
  rw [Bool.and_eq_true] at hcolumns
  refine ⟨by simpa using hcolumns.2, ?_⟩
  have := Int32.toInt_lt max
  unfold maxInteger
  omega

theorem frames_addMemberRow (c : CommunityId) (u : UserId) :
    Prog.Frames (fun db : Db => (db.now, db.communityInvites)) (addMemberRow c u) := by
  refine Prog.Frames.transaction ?_
  refine (SqlM.frames_check _ _).bind fun _ => (SqlM.frames_check _ _).bind fun _ => ?_
  refine (Prog.Frames.modify ?_).bind fun _ => (Prog.Frames.modify ?_).bind fun _ => Prog.Frames.pure _
  · intro db
    rfl
  · intro db
    rfl

theorem store_redeeming (code : String) (u : UserId) (db : Db) :
    ((InviteCall.redeeming code u).advance db).2 = ((claimUse code).exec db).2 := by
  simp only [InviteCall.advance]
  rcases (claimUse code).exec db with ⟨e | _ | c, db'⟩ <;> rfl

theorem advance_touches (call : InviteCall) (db : Db) :
    (call.advance db).2.now = db.now ∧ Touches call db (call.advance db).2.communityInvites := by
  cases call with
  | creating c u hours maxUses draws r =>
    simp only [InviteCall.advance]
    split <;> exact ⟨rfl, .nothing⟩
  | minting c u expiresAt maxUses draws left n =>
    have hstore : ((InviteCall.minting c u expiresAt maxUses draws left n).advance db).2 =
        ((insertInvite (generateCode (draws n)) c u expiresAt maxUses).exec db).2 := by
      simp only [InviteCall.advance]
      rcases (insertInvite (generateCode (draws n)) c u expiresAt maxUses).exec db with ⟨e | invite, db'⟩
      · rcases hc : isConflict e
        · simp only [hc, Bool.false_eq_true, if_false]
        · simp only [hc, if_true]
          cases left <;> rfl
      · rfl
    rw [hstore]
    rcases insertInvite_cases (generateCode (draws n)) c u expiresAt maxUses db with hsame | ⟨i, hcode, huses, hmax, hfree, hx⟩
    · rw [hsame]
      exact ⟨rfl, .nothing⟩
    · rw [hx]
      exact ⟨rfl, .minted i (by rw [hcode]; exact hfree) huses hmax⟩
  | redeeming code u =>
    rw [store_redeeming, exec_claimUse]
    split
    · exact ⟨rfl, .nothing⟩
    · rename_i i hf
      obtain ⟨hfind, hclaim⟩ := Option.filter_eq_some_iff.1 hf
      split
      · exact ⟨rfl, .claimed code u i rfl hfind hclaim ‹_›⟩
      · exact ⟨rfl, .nothing⟩
  | claimed c u =>
    simp only [InviteCall.advance]
    split <;> exact ⟨rfl, .nothing⟩
  | joining c u =>
    simp only [InviteCall.advance]
    split <;> exact ⟨rfl, .nothing⟩
  | adding c u =>
    have hstore : ((InviteCall.adding c u).advance db).2 = ((addMemberRow c u).exec db).2 := by
      simp only [InviteCall.advance]
      rcases (addMemberRow c u).exec db with ⟨e | member, db'⟩ <;> rfl
    have hframe := frames_addMemberRow c u db
    rw [hstore]
    refine ⟨congrArg Prod.fst hframe, ?_⟩
    rw [show ((addMemberRow c u).exec db).2.communityInvites = db.communityInvites from congrArg Prod.snd hframe]
    exact .nothing
  | revoking code u =>
    simp only [InviteCall.advance]
    split <;> exact ⟨rfl, .nothing⟩
  | asking code c u r =>
    simp only [InviteCall.advance]
    split
    · exact ⟨rfl, .nothing⟩
    · exact ⟨rfl, .nothing⟩
    · split <;> exact ⟨rfl, .nothing⟩
  | closing code => exact ⟨rfl, .revoked code⟩
  | pruning => exact ⟨rfl, .pruned rfl⟩
  | finished outcome => exact ⟨rfl, .nothing⟩

/-! ## What holds in every state, and of every step -/

/-- No more uses than the limit says, no use of a link that is revoked or expired, and looking usable is as good
as being so. -/
structure InvitesRight (db : Db) : Prop where
  limited : ∀ code i, db.communityInvites.find code = some i → ∀ max, i.maxUses = some max → i.uses ≤ max
  live : ∀ code, Claims db code → ∃ i, db.communityInvites.find code = some i ∧ i.revokedAt = none ∧
    ∀ expires, i.expiresAt = some expires → db.now < expires
  agree : ∀ code i, db.communityInvites.find code = some i → (isUsable db.now i = true ↔ Claims db code)

variable {I : Type} [DecidableEq I]

/-- A use is counted only by a redemption that claims it, and only a prune deletes an invite, which no later
redemption could claim. -/
structure StepRight (σ : InviteCall.Invites I) (e : Event I Nat) : Prop where
  counted : ∀ code i i', σ.store.communityInvites.find code = some i →
    (InviteCall.step σ e).store.communityInvites.find code = some i' →
      i'.uses = i.uses ∨ (i'.uses = i.uses + 1 ∧ Claims σ.store code ∧ ∃ k u, e = .turn k ∧ σ.calls k = .redeeming code u)
  gone : ∀ code i, σ.store.communityInvites.find code = some i →
    (InviteCall.step σ e).store.communityInvites.find code = none →
      (∃ k, e = .turn k ∧ σ.calls k = .pruning) ∧
        ∀ db', σ.store.now ≤ db'.now → db'.communityInvites.find code = some i → ¬ Claims db' code

/-- The event claims the last use of an unlimited link that its column can count. -/
def exhausts (σ : InviteCall.Invites I) : Event I Nat → Prop
  | .turn k => ∃ code u i, σ.calls k = .redeeming code u ∧ σ.store.communityInvites.find code = some i ∧
      claimable σ.store.now i = true ∧ i.maxUses = none ∧ i.uses + 1 = maxInteger
  | .outside _ => False

section States

variable {db db' : Db} {call : InviteCall}

/-- The limits fit their column, and none is exceeded. -/
structure InviteColumns (db : Db) : Prop where
  fits : ∀ code i, db.communityInvites.find code = some i → ∀ max, i.maxUses = some max → max ≤ maxInteger
  limited : ∀ code i, db.communityInvites.find code = some i → ∀ max, i.maxUses = some max → i.uses ≤ max

/-- Where a use is to be claimed, there is room for it in the column. -/
def Roomy (db : Db) : Prop :=
  ∀ code i, db.communityInvites.find code = some i → claimable db.now i = true → i.uses + 1 ≤ maxInteger

theorem invitesRight_iff (h : InviteColumns db) : InvitesRight db ↔ Roomy db := by
  constructor
  · intro hr code i hfind hclaim
    obtain ⟨i', hfind', -, hfits⟩ := claims_iff.1 ((hr.agree code i hfind).1 (isUsable_eq_claimable ▸ hclaim))
    rw [hfind] at hfind'
    cases hfind'
    exact hfits
  · intro hr
    refine ⟨h.limited, ?_, ?_⟩
    · intro code hclaims
      obtain ⟨i, hfind, hclaim, -⟩ := claims_iff.1 hclaims
      obtain ⟨hrevoked, hexpires, -⟩ := claimable_iff.1 hclaim
      exact ⟨i, hfind, hrevoked, hexpires⟩
    · intro code i hfind
      rw [isUsable_eq_claimable, claims_iff]
      constructor
      · exact fun hclaim => ⟨i, hfind, hclaim, hr code i hfind hclaim⟩
      · rintro ⟨i', hfind', hclaim, -⟩
        rw [hfind] at hfind'
        cases hfind'
        exact hclaim

/-- What is pruned is past use for good. -/
theorem not_claimable_of_isStale {now now' : Timestamp} {i : Invite} (h : isStale now i = true) (hle : now ≤ now') :
    claimable now' i = false := by
  rw [Bool.eq_false_iff]
  intro hclaim
  obtain ⟨hrevoked, hexpires, hmax⟩ := claimable_iff.1 hclaim
  unfold isStale inviteRetention at h
  simp only [Bool.or_eq_true, Bool.and_eq_true, Option.any_eq_true, decide_eq_true_eq, hrevoked] at h
  rcases h with (⟨expires, he, hlt⟩ | ⟨revoked, hr, -⟩) | ⟨⟨max, hm, hle⟩, -⟩
  · have hpast : ∀ a b c : Int, a < b - 7 * 24 * 3600 * 1000000 → b ≤ c → ¬ c < a := by omega
    exact hpast expires now now' hlt hle (hexpires expires he)
  · cases hr
  · exact absurd (hmax max hm) (not_lt.2 hle)

/-- What a statement does to one invite: nothing, or it makes it, counts a use, revokes it or deletes it. -/
theorem Touches.find {t : Table Invite} (h : Touches call db t) (code : String) :
    (t.find code = db.communityInvites.find code) ∨
      (∃ i, db.communityInvites.find code = none ∧ t.find code = some i ∧ i.uses = 0 ∧
        ∀ max, i.maxUses = some max → 0 < max ∧ max ≤ maxInteger) ∨
      (∃ u i, call = .redeeming code u ∧ db.communityInvites.find code = some i ∧ claimable db.now i = true ∧
        i.uses + 1 ≤ maxInteger ∧ t.find code = some { i with uses := i.uses + 1 }) ∨
      (∃ i, db.communityInvites.find code = some i ∧ t.find code = some { i with revokedAt := some db.now }) ∨
      (∃ i, call = .pruning ∧ db.communityInvites.find code = some i ∧ isStale db.now i = true ∧ t.find code = none) := by
  cases h with
  | nothing => exact .inl rfl
  | minted i hfree huses hmax =>
    rw [Table.find_insert]
    by_cases hc : key i = code
    · have hnone : db.communityInvites.find code = none := by
        rw [← hc]
        exact Table.contains_eq_false.1 hfree
      exact .inr (.inl ⟨i, hnone, by rw [hnone, if_pos hc, Option.none_or], huses, hmax⟩)
    · exact .inl (by rw [if_neg hc, Option.or_none])
  | claimed code' u i hcall hfind hclaim hfits =>
    rw [Table.find_update]
    by_cases hc : code' = code
    · subst hc
      exact .inr (.inr (.inl ⟨u, i, hcall, hfind, hclaim, hfits, by rw [if_pos rfl, hfind]; rfl⟩))
    · exact .inl (if_neg hc)
  | revoked code' =>
    rw [Table.find_update]
    by_cases hc : code' = code
    · subst hc
      rcases hfind : db.communityInvites.find code' with _ | i
      · exact .inl (by rw [if_pos rfl, Option.map_none])
      · exact .inr (.inr (.inr (.inl ⟨i, rfl, by rw [if_pos rfl, Option.map_some]⟩)))
    · exact .inl (if_neg hc)
  | pruned hcall =>
    rw [Table.find_deleteWhere]
    rcases hfind : db.communityInvites.find code with _ | i
    · exact .inl (by rw [Option.filter_none])
    · rcases hs : isStale db.now i
      · exact .inl (by rw [Option.filter_some_pos (by simp [hs])])
      · exact .inr (.inr (.inr (.inr ⟨i, hcall, rfl, hs, by rw [Option.filter_some_neg (by simp [hs])]⟩)))

theorem InviteColumns.touched {t : Table Invite} (h : InviteColumns db) (ht : Touches call db t)
    (hdb : db'.communityInvites = t) : InviteColumns db' := by
  have hboth : ∀ code i, t.find code = some i → ∀ max, i.maxUses = some max → max ≤ maxInteger ∧ i.uses ≤ max := by
    intro code i hfind max hmax
    rcases ht.find code with hsame | ⟨i', -, hnew, huses, hpos⟩ | ⟨u, i', -, hold, hclaim, -, hnew⟩ | ⟨i', hold, hnew⟩ |
      ⟨i', -, -, -, hnone⟩
    · rw [hsame] at hfind
      exact ⟨h.fits code i hfind max hmax, h.limited code i hfind max hmax⟩
    · rw [hnew] at hfind
      cases hfind
      obtain ⟨hlt, hle⟩ := hpos max hmax
      exact ⟨hle, by rw [huses]; exact hlt.le⟩
    · rw [hnew] at hfind
      cases hfind
      exact ⟨h.fits code i' hold max hmax, (claimable_iff.1 hclaim).2.2 max hmax⟩
    · rw [hnew] at hfind
      cases hfind
      exact ⟨h.fits code i' hold max hmax, h.limited code i' hold max hmax⟩
    · rw [hnone] at hfind
      cases hfind
  subst hdb
  exact ⟨fun code i hfind max hmax => (hboth code i hfind max hmax).1, fun code i hfind max hmax => (hboth code i hfind max hmax).2⟩

end States

section Steps

variable {σ : InviteCall.Invites I} {e : Event I Nat}

theorem store_step (σ : InviteCall.Invites I) (e : Event I Nat) :
    (∃ k, e = .turn k ∧ (InviteCall.step σ e).store.now = σ.store.now ∧
      Touches (σ.calls k) σ.store (InviteCall.step σ e).store.communityInvites) ∨
    (∃ elapsed, e = .outside elapsed ∧ (InviteCall.step σ e).store.now = σ.store.now + elapsed ∧
      (InviteCall.step σ e).store.communityInvites = σ.store.communityInvites) := by
  cases e with
  | turn k => exact .inl ⟨k, rfl, advance_touches (σ.calls k) σ.store⟩
  | outside elapsed => exact .inr ⟨elapsed, rfl, rfl, rfl⟩

theorem columns_step (h : InviteColumns σ.store) : InviteColumns (InviteCall.step σ e).store := by
  rcases store_step σ e with ⟨k, -, -, ht⟩ | ⟨elapsed, -, -, hsame⟩
  · exact h.touched ht rfl
  · have hnothing : Touches .pruning σ.store σ.store.communityInvites := .nothing
    exact h.touched hnothing hsame

theorem stepRight (σ : InviteCall.Invites I) (e : Event I Nat) : StepRight σ e := by
  constructor
  · intro code i i' hold hnew
    rcases store_step σ e with ⟨k, rfl, -, ht⟩ | ⟨elapsed, rfl, -, hsame⟩
    · rcases ht.find code with hsame | ⟨_, hnone, -⟩ | ⟨u, j, hcall, hfind, hclaim, hfits, hcounted⟩ | ⟨j, hfind, hrevoked⟩ |
        ⟨_, -, -, -, hgone⟩
      · rw [hsame, hold] at hnew
        cases hnew
        exact .inl rfl
      · rw [hnone] at hold
        cases hold
      · rw [hcounted] at hnew
        cases hnew
        rw [hfind] at hold
        cases hold
        exact .inr ⟨rfl, claims_iff.2 ⟨_, hfind, hclaim, hfits⟩, k, u, rfl, hcall⟩
      · rw [hrevoked] at hnew
        cases hnew
        rw [hfind] at hold
        cases hold
        exact .inl rfl
      · rw [hgone] at hnew
        cases hnew
    · rw [hsame, hold] at hnew
      cases hnew
      exact .inl rfl
  · intro code i hold hgone
    rcases store_step σ e with ⟨k, rfl, -, ht⟩ | ⟨elapsed, rfl, -, hsame⟩
    · rcases ht.find code with hsame | ⟨_, hnone, -⟩ | ⟨_, _, -, -, -, -, hcounted⟩ | ⟨_, -, hrevoked⟩ |
        ⟨j, hcall, hfind, hstale, -⟩
      · rw [hsame, hold] at hgone
        cases hgone
      · rw [hnone] at hold
        cases hold
      · rw [hcounted] at hgone
        cases hgone
      · rw [hrevoked] at hgone
        cases hgone
      · rw [hfind] at hold
        cases hold
        refine ⟨⟨k, rfl, hcall⟩, fun db' hlater hkept hclaims => ?_⟩
        obtain ⟨j, hj, hclaim, -⟩ := claims_iff.1 hclaims
        rw [hkept] at hj
        cases hj
        rw [not_claimable_of_isStale hstale hlater] at hclaim
        cases hclaim
    · rw [hsame, hold] at hgone
      cases hgone

/-- Whether a link can be claimed depends on the instant: it cannot before it could not. -/
theorem claimable_of_later {now now' : Timestamp} {i : Invite} (hle : now ≤ now') (h : claimable now' i = true) :
    claimable now i = true := by
  obtain ⟨hrevoked, hexpires, hmax⟩ := claimable_iff.1 h
  exact claimable_iff.2 ⟨hrevoked, fun expires he => lt_of_le_of_lt hle (hexpires expires he), hmax⟩

/-- There is room for every claim after a step as before, unless the step takes the last of it. -/
theorem roomy_step (hcol : InviteColumns σ.store) (h : Roomy σ.store) :
    Roomy (InviteCall.step σ e).store ↔ ¬ exhausts σ e := by
  constructor
  · intro hroom hex
    cases e with
    | outside elapsed => exact hex
    | turn k =>
      obtain ⟨code, u, i, hcall, hfind, hclaim, hmax, hlast⟩ := hex
      have hstore : (InviteCall.step σ (.turn k)).store = ((claimUse code).exec σ.store).2 := by
        rw [← store_redeeming code u, ← hcall]
        rfl
      rw [exec_claimUse, hfind, Option.filter_some_pos hclaim] at hstore
      simp only [hlast, le_refl, if_true] at hstore
      have hcounted : (InviteCall.step σ (.turn k)).store.communityInvites.find code = some { i with uses := i.uses + 1 } := by
        rw [hstore, Table.find_update, if_pos rfl, hfind]
        rfl
      obtain ⟨hrevoked, hexpires, -⟩ := claimable_iff.1 hclaim
      -- the link looks usable still, and there is no number for the next use
      have hfits := hroom code _ hcounted
        (claimable_iff.2 ⟨hrevoked, by rw [hstore]; exact hexpires, fun max hm => by cases hmax.symm.trans hm⟩)
      have hfits : i.uses + 1 + 1 ≤ maxInteger := hfits
      omega
  · intro hex code i hfind hclaim
    rcases store_step σ e with ⟨k, rfl, hnow, ht⟩ | ⟨elapsed, rfl, hnow, hsame⟩
    · rw [hnow] at hclaim
      rcases ht.find code with hsame | ⟨j, -, hnew, huses, -⟩ | ⟨u, j, hcall, hold, hclaimed, hfits, hcounted⟩ |
        ⟨j, -, hrevoked⟩ | ⟨_, -, -, -, hgone⟩
      · rw [hsame] at hfind
        exact h code i hfind hclaim
      · rw [hnew] at hfind
        cases hfind
        rw [huses]
        decide
      · rw [hcounted] at hfind
        cases hfind
        rcases hmax : j.maxUses with _ | max
        · have hne : j.uses + 1 ≠ maxInteger := fun heq => hex ⟨code, u, j, hcall, hold, hclaimed, hmax, heq⟩
          show j.uses + 1 + 1 ≤ maxInteger
          omega
        · have hlt : j.uses + 1 < max := (claimable_iff.1 hclaim).2.2 max hmax
          have hle := hcol.fits code j hold max hmax
          show j.uses + 1 + 1 ≤ maxInteger
          omega
      · rw [hrevoked] at hfind
        cases hfind
        cases (claimable_iff.1 hclaim).1
      · rw [hgone] at hfind
        cases hfind
    · rw [hsame] at hfind
      refine h code i hfind (claimable_of_later ?_ hclaim)
      rw [hnow]
      exact le_add_of_nonneg_right (Int.natCast_nonneg elapsed)

end Steps

/-- Over every run from a database where the law holds: it holds in every state and of every step, exactly when
no event claims the last use of an unlimited link that the count has room for. -/
theorem invites_right_iff (requests : I → InviteRequest) (db : Db) (es : List (Event I Nat)) (hcol : InviteColumns db)
    (hright : InvitesRight db) :
    Always InviteCall.step (fun σ => InvitesRight σ.store) (InviteCall.begin db requests) es ∧
        Along InviteCall.step StepRight (InviteCall.begin db requests) es ↔
      Along InviteCall.step (fun σ e => ¬ exhausts σ e) (InviteCall.begin db requests) es := by
  refine always_along_iff (J := fun σ => InviteColumns σ.store) (fun σ e h => columns_step h) ?_ hcol hright
  intro σ e hj hi
  rw [invitesRight_iff hj] at hi
  rw [invitesRight_iff (columns_step hj), roomy_step hj hi]
  exact and_iff_right (stepRight σ e)

/-- A database without invites is one where the law holds. -/
theorem columns_of_empty {db : Db} (h : db.communityInvites = .empty) : InviteColumns db ∧ InvitesRight db := by
  have hnone : ∀ code i, db.communityInvites.find code ≠ some i := by
    intro code i hfind
    rw [h] at hfind
    cases hfind
  have hcol : InviteColumns db :=
    ⟨fun code i hfind => absurd hfind (hnone code i), fun code i hfind => absurd hfind (hnone code i)⟩
  exact ⟨hcol, (invitesRight_iff hcol).2 fun code i hfind => absurd hfind (hnone code i)⟩

/-- A community of its owner, and two users who are not in it. -/
def unvisited : Db :=
  { Db.empty 0 with
    users := ((Table.empty.insert { id := ⟨1⟩, handle := "owner", email := "owner@genzh.test", isActive := true }).insert
      { id := ⟨2⟩, handle := "ana", email := "ana@genzh.test", isActive := true }).insert
      { id := ⟨3⟩, handle := "ben", email := "ben@genzh.test", isActive := true }
    communities := Table.empty.insert { id := ⟨1⟩, ownerId := ⟨1⟩ } }

/-- The parties of an invite for one: who makes it, and two who want in. -/
inductive Party where
  | owner
  | ana
  | ben
  deriving DecidableEq

def invitation : Party → InviteRequest
  | .owner => .create ⟨1⟩ ⟨1⟩ none (some 1) fun n => BitVec.ofNat 128 n
  | .ana => .redeem "22222222" ⟨2⟩
  | .ben => .redeem "22222222" ⟨3⟩

theorem invites_right_for_one :
    Always InviteCall.step (fun σ => InvitesRight σ.store) (InviteCall.begin unvisited invitation)
        [.turn .owner, .turn .owner, .turn .ana, .outside 1, .turn .ben, .turn .ana, .turn .ana, .turn .ana] ∧
      Along InviteCall.step StepRight (InviteCall.begin unvisited invitation)
        [.turn .owner, .turn .owner, .turn .ana, .outside 1, .turn .ben, .turn .ana, .turn .ana, .turn .ana] ↔
    Along InviteCall.step (fun σ e => ¬ exhausts σ e) (InviteCall.begin unvisited invitation)
      [.turn .owner, .turn .owner, .turn .ana, .outside 1, .turn .ben, .turn .ana, .turn .ana, .turn .ana] :=
  invites_right_iff invitation unvisited _ (columns_of_empty rfl).1 (columns_of_empty rfl).2

/-! ## An unlimited link wears out -/

/-- The community with an unlimited link. -/
def opened : Db :=
  { unvisited with
    communityInvites := Table.empty.insert
      { code := "22222222", communityId := ⟨1⟩, createdBy := some ⟨1⟩, expiresAt := none, maxUses := none, uses := 0,
        revokedAt := none, createdAt := 0 } }

/-- The link after a number of uses. -/
def usedLink (n : Nat) : Invite :=
  { code := "22222222", communityId := ⟨1⟩, createdBy := some ⟨1⟩, expiresAt := none, maxUses := none, uses := n,
    revokedAt := none, createdAt := 0 }

/-- A visitor redeems the link again and again. -/
def visits : Nat → InviteRequest := fun _ => .redeem "22222222" ⟨2⟩

theorem used_after (n : Nat) (hn : (n : Int) ≤ maxInteger) :
    (run InviteCall.step (InviteCall.begin opened visits) ((List.range n).map .turn)).store.communityInvites.find "22222222" =
        some (usedLink n) ∧
      ∀ k, n ≤ k → (run InviteCall.step (InviteCall.begin opened visits) ((List.range n).map .turn)).calls k =
        .redeeming "22222222" ⟨2⟩ := by
  induction n with
  | zero => exact ⟨by decide +kernel, fun k _ => rfl⟩
  | succ n ih =>
    obtain ⟨hfind, hcalls⟩ := ih (by push_cast at hn; omega)
    rw [List.range_succ, List.map_append, run_append]
    generalize run InviteCall.step (InviteCall.begin opened visits) ((List.range n).map .turn) = σ at hfind hcalls ⊢
    have hclaim : claimable σ.store.now (usedLink n) = true := rfl
    have hfits : (usedLink n).uses + 1 ≤ maxInteger := by
      push_cast at hn
      exact hn
    have hstore : (InviteCall.step σ (.turn n)).store = ((claimUse "22222222").exec σ.store).2 := by
      rw [← store_redeeming "22222222" ⟨2⟩, ← hcalls n le_rfl]
      rfl
    rw [exec_claimUse, hfind, Option.filter_some_pos hclaim] at hstore
    simp only [hfits, if_true] at hstore
    refine ⟨?_, fun k hk => ?_⟩
    · change (InviteCall.step σ (.turn n)).store.communityInvites.find "22222222" = _
      rw [hstore, Table.find_update, if_pos rfl, hfind]
      simp [usedLink]
    · change (InviteCall.step σ (.turn n)).calls k = _
      rw [InviteCall.step, System.calls_turn_of_ne σ n k (by omega)]
      exact hcalls k (by omega)

theorem wears_out_at {n : Nat} (hn : (n : Int) = maxInteger) :
    ¬ Always InviteCall.step (fun σ => InvitesRight σ.store) (InviteCall.begin opened visits) ((List.range n).map .turn) := by
  intro h
  have hright := h.last
  have hfind := (used_after n hn.le).1
  generalize run InviteCall.step (InviteCall.begin opened visits) ((List.range n).map .turn) = σ at hright hfind
  have husable : isUsable σ.store.now (usedLink n) = true := rfl
  obtain ⟨i, hi, -, hfits⟩ := claims_iff.1 ((hright.agree _ _ hfind).1 husable)
  rw [hfind] at hi
  cases hi
  have hfits : (n : Int) + 1 ≤ maxInteger := hfits
  omega

theorem right_opened : InviteColumns opened ∧ InvitesRight opened := by
  have honly : ∀ code i, opened.communityInvites.find code = some i → i = usedLink 0 := by
    intro code i hfind
    exact List.mem_singleton.1 (Table.find_eq_some.1 hfind).1
  have hcol : InviteColumns opened := by
    constructor
    all_goals
      intro code i hfind max hmax
      rw [honly code i hfind] at hmax
      cases hmax
  refine ⟨hcol, (invitesRight_iff hcol).2 fun code i hfind _ => ?_⟩
  rw [honly code i hfind]
  decide

/-- After as many uses as the column counts, the unlimited link looks usable and cannot be claimed. -/
theorem unlimited_link_wears_out :
    InvitesRight opened ∧
      ¬ Always InviteCall.step (fun σ => InvitesRight σ.store) (InviteCall.begin opened visits)
        ((List.range 2147483647).map .turn) :=
  ⟨right_opened.2, wears_out_at (n := 2147483647) rfl⟩

end Genzh.Community
