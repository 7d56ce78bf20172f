/-
Blocks. A block is stored in one direction and asked about in both: `ensureCanReach` is the gate that
every path of direct contact goes through.
-/
import Genzh.Infrastructure.Db

namespace Genzh.Social

open Genzh.Lib Genzh.Domain Genzh.Infrastructure

/-- Two users who must not be one. -/
def ensureDistinctUsers (a b : UserId) : Except DomainError Unit :=
  if a = b then .error (.invalid "user_id" "cannot target yourself") else .ok ()

/-- Is there a block in either direction? -/
def blockedEitherWay (db : Db) (a b : UserId) : Bool := db.blocks.contains (a, b) || db.blocks.contains (b, a)

/-- Refuse anything that would let two users reach each other across a block. -/
def ensureCanReach (db : Db) (a b : UserId) : Except ServiceError Unit :=
  if a = b then .ok ()
  else if blockedEitherWay db a b then .error (.denied "blocked")
  else .ok ()

/-- Delete a friendship row, whichever of the two asked. -/
def remove (a b : UserId) : SqlM Unit :=
  Prog.modify fun db =>
    { db with friendships := db.friendships.deleteWhere fun f =>
        (f.requesterId = a && f.addresseeId = b) || (f.requesterId = b && f.addresseeId = a) }

/-- Block a user, ending any friendship between them. -/
def block (blockerId blockedId : UserId) : SqlM Unit := do
  Prog.lift (liftDomain (ensureDistinctUsers blockerId blockedId))
  SqlM.check (fun db => db.userExists blockerId && db.userExists blockedId) .foreignKey
  Prog.modify fun db => { db with blocks := db.blocks.insert { blockerId, blockedId, createdAt := db.now } }
  remove blockerId blockedId

/-- Unblock a user. -/
def unblock (blockerId blockedId : UserId) : SqlM Unit := do
  let stands ← Prog.read fun db => db.blocks.contains (blockerId, blockedId)
  Prog.modify fun db => { db with blocks := db.blocks.delete (blockerId, blockedId) }
  Prog.ensure stands (.notFound "block")

/-! ## A block stands in both directions -/

theorem blockedEitherWay_comm (db : Db) (a b : UserId) : blockedEitherWay db a b = blockedEitherWay db b a := by
  unfold blockedEitherWay
  rw [Bool.or_comm]

theorem ensureCanReach_ok {db : Db} {a b : UserId} :
    ensureCanReach db a b = .ok () ↔ a = b ∨ blockedEitherWay db a b = false := by
  unfold ensureCanReach
  by_cases hab : a = b
  · simp [hab]
  · by_cases hb : blockedEitherWay db a b <;> simp [hab, hb]

/-- A block or an unblock that was accepted: the blocks it leaves. -/
theorem block_ok {db db' : Db} {a b : UserId} (h : (block a b).exec db = (.ok (), db')) :
    a ≠ b ∧ db'.blocks = db.blocks.insert { blockerId := a, blockedId := b, createdAt := db.now } := by
  unfold block at h
  rw [Prog.exec_lift_bind] at h
  unfold ensureDistinctUsers at h
  by_cases hab : a = b
  · rw [if_pos hab] at h
    cases h
  · rw [if_neg hab] at h
    simp only [liftDomain, SqlM.exec_check_bind] at h
    split at h
    · cases h
      exact ⟨hab, rfl⟩
    · cases h

/-- After a block that was accepted neither of the two reaches the other. -/
theorem block_refuses {db db' : Db} {a b : UserId} (h : (block a b).exec db = (.ok (), db')) :
    ensureCanReach db' a b = .error (.denied "blocked") := by
  obtain ⟨hab, hb⟩ := block_ok h
  unfold ensureCanReach blockedEitherWay
  rw [hb, Table.contains_insert, if_neg hab, if_pos (by simp [key])]

end Genzh.Social
