/-
The pages of somebody's notifications. A page's cursor is when its last row changed, and nothing else: two rows that
changed at the same instant are told apart nowhere, and a page that ends between them passes over the second.
-/
import Genzh.Notification.Repository
import Genzh.Lib.Crowded
import Genzh.Lib.Keyset

namespace Genzh.Notification

open Genzh.Lib Genzh.Domain Genzh.Infrastructure

/-- A page of notifications, most recently active first. -/
structure NotificationPage where
  notifications : List Notification
  /-- Cursor for the next page, or `none` at the end of the list. -/
  nextBefore : Option Timestamp
  deriving DecidableEq, Repr

/-- `ORDER BY updated_at DESC`. In what order rows of one instant come is up to the query. -/
structure RowOrder where
  sort : Option Timestamp → List Notification → List Notification
  perm : ∀ before rows, (sort before rows).Perm rows
  sorted : ∀ before rows, (sort before rows).Pairwise fun n m => m.updatedAt ≤ n.updatedAt

/-- `user_id = $1 AND ($2::timestamptz IS NULL OR updated_at < $2)` -/
def listed (userId : UserId) (before : Option Timestamp) (n : Notification) : Bool :=
  n.userId = userId && before.all fun t => n.updatedAt < t

/-- One row more than the page holds is fetched, to decide whether there is another. -/
def pageOf (rows : List Notification) (limit : Nat) : NotificationPage :=
  if limit < rows.length then ⟨rows.take limit, (rows.take limit).getLast?.map (·.updatedAt)⟩ else ⟨rows, none⟩

/-- This user's notifications, newest first. -/
def list (order : RowOrder) (userId : UserId) (before : Option Timestamp) (limit : Nat) : NotificationM NotificationPage :=
  Prog.read fun db => pageOf ((order.sort before (db.notifications.select (listed userId before))).take (limit + 1)) limit

/-! ## The service -/

def defaultLimit : Int := 30
def maxLimit : Int := 100

/-- `limit.unwrap_or(DEFAULT_LIMIT).clamp(1, MAX_LIMIT)` -/
def pageLimit (limit : Option Int) : Nat := (min (max (limit.getD defaultLimit) 1) maxLimit).toNat

/-- A page of this user's notifications, newest first. -/
def listPage (order : RowOrder) (userId : UserId) (before : Option Timestamp) (limit : Option Int) :
    NotificationM NotificationPage :=
  list order userId before (pageLimit limit)

theorem pageLimit_pos (limit : Option Int) : 0 < pageLimit limit := by
  unfold pageLimit maxLimit
  omega

/-! ## Following the cursor -/

/-- Ask for page after page, as long as there is a cursor. -/
def follow (order : RowOrder) (db : NotificationDb) (userId : UserId) (limit : Nat) : Nat → Option Timestamp →
    Option (List Notification)
  | 0, _ => none
  | fuel + 1, before =>
    match ((list order userId before limit).exec db).1 with
    | .error _ => none
    | .ok ⟨items, none⟩ => some items
    | .ok ⟨items, some next⟩ => (follow order db userId limit fuel (some next)).map (items ++ ·)

/-- When this user's notifications changed, last first. -/
def changes (db : NotificationDb) (userId : UserId) : List Timestamp :=
  Crowded.descending ((db.notifications.select (listed userId none)).map (·.updatedAt))

section Pages

variable {order : RowOrder} {db : NotificationDb} {userId : UserId} {limit : Nat}

/-- The queries of a listing, as those of a paging by the instant of the last change. -/
def fetched (order : RowOrder) (db : NotificationDb) (userId : UserId) :
    Crowded.Fetched (·.updatedAt) (db.notifications.select (listed userId none)) where
  rows before := order.sort before (db.notifications.select (listed userId before))
  perm before := by
    refine (order.perm before _).trans (List.Perm.of_eq ?_)
    unfold Table.select
    rw [List.filter_filter]
    refine List.filter_congr fun n _ => ?_
    simp [listed, Crowded.past, Bool.and_comm]
  sorted before := order.sorted before _

theorem pageOf_eq (rows : List Notification) : pageOf (rows.take (limit + 1)) limit =
    ⟨(Crowded.page (·.updatedAt) limit rows).1, (Crowded.page (·.updatedAt) limit rows).2⟩ := by
  unfold pageOf Crowded.page
  by_cases hmore : limit < (rows.take (limit + 1)).length
  · simp only [if_pos hmore]
  · simp only [if_neg hmore, List.take_of_length_le (not_lt.1 hmore)]

theorem exec_list (before : Option Timestamp) : ((list order userId before limit).exec db).1 =
    .ok ⟨(Crowded.page (·.updatedAt) limit ((fetched order db userId).rows before)).1,
      (Crowded.page (·.updatedAt) limit ((fetched order db userId).rows before)).2⟩ :=
  congrArg Except.ok (pageOf_eq _)

/-- A page and a cursor for each request, as in the paging. -/
theorem follow_eq (fuel : Nat) (before : Option Timestamp) : follow order db userId limit fuel before =
    Crowded.follow (·.updatedAt) limit (fetched order db userId).rows fuel before := by
  induction fuel generalizing before with
  | zero => rfl
  | succ fuel ih =>
    simp only [follow, Crowded.follow, exec_list]
    rcases hpage : Crowded.page (·.updatedAt) limit ((fetched order db userId).rows before) with ⟨items, _ | next⟩
    · simp only [hpage]
    · simp only [hpage, ih]

/-- Following the cursor visits every notification once, newest first, and ends, exactly if no page ends between two that
changed at the same instant. -/
theorem follow_list_iff (order : RowOrder) (db : NotificationDb) (userId : UserId) (limit : Nat) (hlimit : 0 < limit) :
    (∃ items, follow order db userId limit ((db.notifications.select (listed userId none)).length + 1) none = some items ∧
      items.Perm (db.notifications.select (listed userId none)) ∧ items.Pairwise fun n m => m.updatedAt ≤ n.updatedAt) ↔
      Crowded.Uncut limit (changes db userId) := by
  rw [follow_eq]
  exact Crowded.follow_iff (fetched order db userId) hlimit

end Pages

/-! ## Two friend requests -/

section Sample

/-- Rows of one instant in the order they are found. -/
def stableOrder : RowOrder where
  sort _ rows := rows.insertionSort fun n m => m.updatedAt ≤ n.updatedAt
  perm _ rows := List.perm_insertionSort _ rows
  sorted _ rows := Keyset.pairwise_descending (fun n : Notification => n.updatedAt) rows

def requestOf (actorId : UserId) : NewNotification where
  userId := ⟨1⟩
  kind := .friendRequest
  actorId := some actorId
  roomId := none
  messageId := none
  preview := none

/-- Two people have asked for `⟨1⟩`'s friendship, at these times. -/
def twoRequests (first second : Timestamp) : NotificationDb :=
  { Db.empty 0 with
    notifications := (Table.empty.insert ((requestOf ⟨2⟩).row ⟨1⟩ first)).insert ((requestOf ⟨3⟩).row ⟨2⟩ second) }

/-- At different times, both are on the pages. -/
theorem follow_apart : 0 < 1 ∧ ∃ items, follow stableOrder (twoRequests 1 2) ⟨1⟩ 1 3 none = some items ∧
    items.Perm ((twoRequests 1 2).notifications.select (listed ⟨1⟩ none)) ∧
    items.Pairwise fun n m => m.updatedAt ≤ n.updatedAt := by
  refine ⟨by decide, (follow_list_iff stableOrder (twoRequests 1 2) ⟨1⟩ 1 (by decide)).2 fun k hk hin => ?_⟩
  have hone : k = 1 := by
    change k * 1 < 2 at hin
    omega
  subst hone
  decide

/-- At the same time, a page of one never shows the other. -/
theorem follow_together : ¬ ∃ items, follow stableOrder (twoRequests 1 1) ⟨1⟩ 1 3 none = some items ∧
    items.Perm ((twoRequests 1 1).notifications.select (listed ⟨1⟩ none)) ∧
    items.Pairwise fun n m => m.updatedAt ≤ n.updatedAt := by
  have hone : follow stableOrder (twoRequests 1 1) ⟨1⟩ 1 3 none = some [(requestOf ⟨2⟩).row ⟨1⟩ 1] := by decide
  rintro ⟨items, hitems, hperm, -⟩
  rw [hone, Option.some.injEq] at hitems
  subst hitems
  exact absurd hperm.length_eq (by decide)

end Sample

end Genzh.Notification
