/-
What a redemption costs. A use is claimed before anything is known about who redeems: where no membership comes of it the
use is gone. Somebody who is a member already is told so by the service with an error of the domain, while the redemption
looks for one of the repository; so the link that did its job fails, and has been spent.
-/
import Genzh.Community.Redemption

namespace Genzh.Community

open Genzh.Lib Genzh.Domain Genzh.Infrastructure

/-- How often the invite of a code has been used. -/
def usesOf (db : Db) (code : String) : Option Int := (db.communityInvites.find code).map (·.uses)

/-- A redemption that makes nobody a member leaves the count of the uses as it was, and a member who redeems a link that
works succeeds without spending one. -/
def SpendsForMembers (db : Db) (code : String) (u : UserId) : Prop :=
  ∀ i, db.communityInvites.find code = some i →
    (¬ (db.communityMembers.contains (i.communityId, u) = false ∧
        ((redeemInvite code u).exec db).2.communityMembers.contains (i.communityId, u) = true) →
      usesOf ((redeemInvite code u).exec db).2 code = usesOf db code) ∧
    (isUsable db.now i = true → db.communityMembers.contains (i.communityId, u) = true →
      ((redeemInvite code u).exec db).1 = .ok i.communityId ∧ usesOf ((redeemInvite code u).exec db).2 code = usesOf db code)

/-- The link does not work, or who redeems it is no member yet, and becomes one if a use can be claimed: the community and
the account are there. -/
def NewHere (db : Db) (code : String) (u : UserId) : Prop :=
  ∀ i, db.communityInvites.find code = some i → isUsable db.now i = true →
    db.communityMembers.contains (i.communityId, u) = false ∧
      (i.uses + 1 ≤ maxInteger → db.communityExists i.communityId = true ∧ db.userExists u = true)

section Redeem

variable {db : Db} {code : String} {u : UserId} {i : Invite}

theorem code_of_use (i : Invite) : ({ i with uses := i.uses + 1 } : Invite).code = i.code := rfl

/-- The database after a use is claimed. -/
def counted (code : String) (db : Db) : Db :=
  { db with communityInvites := db.communityInvites.update code (fun i => { i with uses := i.uses + 1 }) code_of_use }

theorem usesOf_counted (hfind : db.communityInvites.find code = some i) : usesOf (counted code db) code = some (i.uses + 1) := by
  unfold usesOf counted
  rw [Table.find_update, if_pos rfl, hfind]
  rfl

/-- A membership is inserted where there is none, of an account in a community. -/
theorem exec_addMemberRow (c : CommunityId) (hmember : db.communityMembers.contains (c, u) = false) (hc : db.communityExists c = true) :
    (db.userExists u = true ∧ ∃ db', (addMemberRow c u).exec db = (.ok ⟨c, u⟩, db') ∧ db'.communityMembers.contains (c, u) = true) ∨
    (db.userExists u = false ∧ (addMemberRow c u).exec db = (.error (.repository .foreignKey), db)) := by
  unfold addMemberRow
  rw [Prog.exec_transaction, SqlM.exec_check_bind, if_pos (by rw [hmember]; rfl), SqlM.exec_check_bind]
  cases hu : db.userExists u with
  | true =>
    rw [if_pos (by rw [hc]; rfl)]
    refine .inl ⟨rfl, _, rfl, ?_⟩
    change (db.communityMembers.insert ⟨c, u⟩).contains (c, u) = true
    rw [Table.contains_insert, hmember]
    exact decide_eq_true rfl
  | false =>
    rw [if_neg (by rw [hc]; simp)]
    exact .inr ⟨rfl, rfl⟩

/-- Who redeems joins; or is a member already, or fails for want of the community or of an account. -/
theorem addMember_cases (c : CommunityId) (db : Db) (u : UserId) :
    ((db.communityMembers.contains (c, u) = false ∧ db.communityExists c = true ∧ db.userExists u = true) ∧
      ∃ db', (addMember c u u).exec db = (.ok ⟨c, u⟩, db') ∧ db'.communityMembers.contains (c, u) = true) ∨
    ((db.communityMembers.contains (c, u) = true ∨ db.communityExists c = false ∨ db.userExists u = false) ∧
      ∃ e, isConflict e = false ∧ (addMember c u u).exec db = (.error e, db)) := by
  unfold addMember
  rw [Prog.exec_query_bind, if_neg (not_not.2 rfl)]
  cases hc : db.communityExists c with
  | false => exact .inr ⟨.inr (.inl rfl), _, rfl, rfl⟩
  | true =>
    rw [if_pos rfl]
    dsimp only
    rw [Prog.exec_query_bind]
    cases hmember : db.communityMembers.contains (c, u) with
    | true => exact .inr ⟨.inl rfl, _, rfl, rfl⟩
    | false =>
      rw [if_neg Bool.false_ne_true]
      dsimp only
      rcases exec_addMemberRow c hmember hc with ⟨hu, hadded⟩ | ⟨hu, hrefused⟩
      · exact .inl ⟨⟨rfl, rfl, hu⟩, hadded⟩
      · exact .inr ⟨.inr (.inr hu), _, rfl, hrefused⟩

/-- A code of which no use is claimed: nothing happens. -/
theorem redeem_unclaimed (h : ¬ Claims db code) : ∃ e, (redeemInvite code u).exec db = (.error e, db) := by
  unfold redeemInvite
  rcases hclaimed : (claimUse code).exec db with ⟨e | _ | c, db'⟩
  · rw [Prog.exec_bind_error hclaimed]
    obtain rfl : db' = db := by
      rw [exec_claimUse] at hclaimed
      split at hclaimed
      · cases hclaimed
      · split at hclaimed <;> cases hclaimed
        rfl
    exact ⟨e, rfl⟩
  · rw [Prog.exec_bind_ok hclaimed, SqlM.exec_found_bind]
    obtain rfl : db' = db := by
      rw [exec_claimUse] at hclaimed
      split at hclaimed
      · cases hclaimed
        rfl
      · split at hclaimed <;> cases hclaimed
    exact ⟨_, rfl⟩
  · exact absurd ⟨c, by rw [hclaimed]⟩ h

/-- A code of which a use is claimed. -/
theorem redeem_claimed (hfind : db.communityInvites.find code = some i) (hclaim : claimable db.now i = true)
    (hfits : i.uses + 1 ≤ maxInteger) :
    ((db.communityMembers.contains (i.communityId, u) = false ∧ db.communityExists i.communityId = true ∧ db.userExists u = true) ∧
      ∃ db', (redeemInvite code u).exec db = (.ok i.communityId, db') ∧ db'.communityMembers.contains (i.communityId, u) = true) ∨
    ((db.communityMembers.contains (i.communityId, u) = true ∨ db.communityExists i.communityId = false ∨ db.userExists u = false) ∧
      ∃ e, (redeemInvite code u).exec db = (.error e, counted code db)) := by
  have hclaimed : (claimUse code).exec db = (.ok (some i.communityId), counted code db) := by
    rw [exec_claimUse, hfind, Option.filter_some_pos hclaim]
    exact if_pos hfits
  unfold redeemInvite
  rw [Prog.exec_bind_ok hclaimed, SqlM.exec_found_bind]
  dsimp only
  rw [Prog.exec_orElse]
  refine (addMember_cases i.communityId (counted code db) u).imp ?_ ?_
  · rintro ⟨hnew, db', hadded, hmember⟩
    refine ⟨hnew, db', ?_, hmember⟩
    rw [Prog.exec_bind_ok hadded]
    rfl
  · rintro ⟨hwhy, e, hconflict, hrefused⟩
    refine ⟨hwhy, e, ?_⟩
    rw [Prog.exec_bind_error hrefused]
    exact if_neg (by rw [hconflict]; exact Bool.false_ne_true)

/-- The count after a redemption that claimed a use and came to nothing. -/
theorem usesOf_counted_ne (hfind : db.communityInvites.find code = some i) : usesOf (counted code db) code ≠ usesOf db code := by
  rw [usesOf_counted hfind, usesOf, hfind]
  intro h
  have hsame : i.uses + 1 = i.uses := Option.some.inj h
  omega

theorem spendsForMembers_iff : SpendsForMembers db code u ↔ NewHere db code u := by
  refine forall₂_congr fun i hfind => ?_
  by_cases husable : isUsable db.now i = true
  · rw [forall_prop_of_true husable, forall_prop_of_true husable]
    have hclaim : claimable db.now i = true := isUsable_eq_claimable.symm.trans husable
    by_cases hfits : i.uses + 1 ≤ maxInteger
    · rw [forall_prop_of_true hfits]
      rcases redeem_claimed (u := u) hfind hclaim hfits with ⟨⟨hnew, hc, hu⟩, db', hredeemed, hmember⟩ | ⟨hwhy, e, hfailed⟩
      · rw [hredeemed]
        refine iff_of_true ⟨fun hnone => absurd ⟨hnew, hmember⟩ hnone, fun hold => ?_⟩ ⟨hnew, hc, hu⟩
        exact absurd (hnew.symm.trans hold) Bool.false_ne_true
      · rw [hfailed]
        refine iff_of_false ?_ ?_
        · rintro ⟨hkept, -⟩
          -- the use is gone, and nobody has joined
          refine usesOf_counted_ne hfind (hkept ?_)
          rintro ⟨hout, hin⟩
          exact absurd (hout.symm.trans hin) Bool.false_ne_true
        · rintro ⟨hnew, hc, hu⟩
          rcases hwhy with hold | hnone | hnone
          · exact absurd (hnew.symm.trans hold) Bool.false_ne_true
          · exact absurd (hnone.symm.trans hc) Bool.false_ne_true
          · exact absurd (hnone.symm.trans hu) Bool.false_ne_true
    · have hunclaimed : ¬ Claims db code := by
        rw [claims_iff]
        rintro ⟨j, hj, -, hfitsj⟩
        rw [Option.some.inj (hfind.symm.trans hj)] at hfits
        exact hfits hfitsj
      obtain ⟨e, hfailed⟩ := redeem_unclaimed (u := u) hunclaimed
      rw [hfailed]
      constructor
      · rintro ⟨-, hsucceeds⟩
        refine ⟨?_, fun hfits' => absurd hfits' hfits⟩
        rw [Bool.eq_false_iff]
        intro hold
        cases (hsucceeds hold).1
      · rintro ⟨hnew, -⟩
        refine ⟨fun _ => rfl, fun hold => ?_⟩
        exact absurd (hnew.symm.trans hold) Bool.false_ne_true
  · have hunclaimed : ¬ Claims db code := by
      rw [claims_iff]
      rintro ⟨j, hj, hclaim, -⟩
      rw [Option.some.inj (hfind.symm.trans hj), isUsable_eq_claimable] at husable
      exact husable hclaim
    obtain ⟨e, hfailed⟩ := redeem_unclaimed (u := u) hunclaimed
    rw [hfailed]
    refine iff_of_true ⟨fun _ => rfl, fun husable' => absurd husable' husable⟩ fun husable' => absurd husable' husable

end Redeem

/-! ## Every state that is reached -/

/-- In whatever state calls on invites lead to: a redemption keeps to the law exactly if the link does not work, or who
redeems it is new. -/
theorem redeems_for_members_iff {I : Type} [DecidableEq I] (requests : I → InviteRequest) (db : Db) (es : List (Event I Nat))
    (code : String) (u : UserId) :
    SpendsForMembers (run InviteCall.step (InviteCall.begin db requests) es).store code u ↔
      NewHere (run InviteCall.step (InviteCall.begin db requests) es).store code u :=
  spendsForMembers_iff

/-- The owner makes a link for two and a visitor redeems it, and the visitor redeems it again. -/
theorem member_spends_a_use :
    ¬ SpendsForMembers (run InviteCall.step (InviteCall.begin unvisited (fun visitor : Bool =>
        if visitor then .redeem "22222222" ⟨2⟩ else .create ⟨1⟩ ⟨1⟩ none (some 2) fun n => BitVec.ofNat 128 n))
      [.turn false, .turn false, .turn true, .turn true, .turn true, .turn true]).store "22222222" ⟨2⟩ := by
  intro h
  have husable : isUsable 0 { usedLink 1 with maxUses := some 2 } = true := by decide
  obtain ⟨hsucceeds, -⟩ := (h { usedLink 1 with maxUses := some 2 } (by decide +kernel)).2 husable (by decide +kernel)
  revert hsucceeds
  decide +kernel

end Genzh.Community
