/-
What recording a message a second time does. A row for the message stops it; but the row of a conversation is only for
the message that came last, and a message that others have been folded over is counted again.
-/
import Genzh.Notification.Recording
import Genzh.Lib.Run

namespace Genzh.Notification

open Genzh.Lib Genzh.Domain Genzh.Infrastructure

/-! ## Deliveries -/

/-- That a message is to be told to somebody, for one reason. -/
structure Delivery where
  userId : UserId
  kind : NotificationKind
  messageId : MessageId
  deriving DecidableEq, Repr

/-- What is delivered, where it is about a message. -/
def NewNotification.delivery (new : NewNotification) : Option Delivery :=
  new.messageId.map fun m => ⟨new.userId, new.kind, m⟩

/-- The table, and what has been recorded in it. -/
structure Deliveries where
  db : NotificationDb
  recorded : List Delivery

/-- What happens to the table. -/
inductive Happening where
  | record (id : NotificationId) (new : NewNotification)
  | elsewhere (e : Elsewhere)
  deriving DecidableEq

/-- Was anything written? -/
def wrote : Except RepositoryError Recorded → Bool
  | .ok r => r.notification.isSome
  | .error _ => false

namespace Deliveries

/-- The next thing that happens. -/
def step (s : Deliveries) : Happening → Deliveries
  | .record id new =>
    let (outcome, db) := (record id new).exec s.db
    { db, recorded := if wrote outcome then new.delivery.toList ++ s.recorded else s.recorded }
  | .elsewhere e => { s with db := elsewhere e s.db }

/-- Is this recorded again? -/
def Again (s : Deliveries) : Happening → Prop
  | .record _ new => ∃ d ∈ s.recorded, new.delivery = some d
  | .elsewhere _ => False

end Deliveries

/-- The rows there are, and what each of them counts. -/
def tallies (db : NotificationDb) : List (NotificationId × Nat) := db.notifications.rows.map fun n => (n.id, n.count)

/-- Is there nothing for this to write? No reference of it may dangle, and where a row is in its way it has to have an
open one to go to that can count one more. -/
def NewNotification.idle (id : NotificationId) (new : NewNotification) (db : NotificationDb) : Bool :=
  if conflicts db.notifications (new.row id db.now) then
    new.standsAlone || (db.notifications.select new.foldsInto).isEmpty ||
      (db.notifications.select new.foldsInto).any fun n => maxInteger ≤ n.count
  else !new.referencesExist db.toDb

/-- A row is for this very message still, or there is nothing to write. -/
def Deliveries.Recognised (s : Deliveries) : Happening → Prop
  | .record id new => new.already s.db.notifications = true ∨ new.idle id s.db = true
  | .elsewhere _ => True

/-! ## What a recording leaves as it was -/

section Tallies

variable {db : NotificationDb} {id : NotificationId} {new : NewNotification}

/-- A row for the message is in the way of another. -/
theorem conflicts_of_already (h : new.already db.notifications = true) (now : Timestamp) :
    conflicts db.notifications (new.row id now) = true := by
  obtain ⟨n, hn, habout⟩ := List.any_eq_true.1 h
  obtain ⟨hu, hk, hs, hm⟩ := isAbout_iff.1 habout
  have hsame : sameMessage (new.row id now) n = true := sameMessage_iff.2 ⟨hs, hm.symm, hu.symm, hk.symm⟩
  simp only [conflicts, Bool.or_eq_true, List.any_eq_true]
  exact .inr ⟨n, hn, .inl hsame⟩

theorem insertNotification_dangling (h : conflicts db.notifications (new.row id db.now) = false)
    (href : new.referencesExist db.toDb = false) :
    (insertNotification id new).exec db = (.error .foreignKey, db) := by
  simp [insertNotification, Prog.exec, h, href]

/-- What is tallied grows by the new row. -/
theorem tallies_insert (h : conflicts db.notifications (new.row id db.now) = false) :
    tallies { db with notifications := db.notifications.insert (new.row id db.now) } = tallies db ++ [(id, 1)] := by
  have hfresh : db.notifications.contains id = false := contains_of_not_conflicts h
  unfold tallies
  rw [Table.rows_insert hfresh, List.map_append]
  rfl

/-- Raising some of the rows leaves the tallies alone exactly if there are none of them. -/
theorem tallies_foldRow {matched : List Notification} (hsub : ∀ n ∈ matched, n ∈ db.notifications.rows) :
    (db.notifications.updateWhere (fun n => matched.contains n) (foldRow new db.now) fun _ => rfl).rows.map
      (fun n => (n.id, n.count)) = tallies db ↔ matched = [] := by
  have hmap : (db.notifications.updateWhere (fun n => matched.contains n) (foldRow new db.now) fun _ => rfl).rows.map
      (fun n => (n.id, n.count)) =
      db.notifications.rows.map fun n => (n.id, if matched.contains n = true then n.count + 1 else n.count) := by
    refine List.map_map.trans (List.map_congr_left fun n _ => ?_)
    by_cases hn : n ∈ matched <;> simp [foldRow, hn]
  rw [hmap, tallies, List.map_inj_left]
  constructor
  · intro hsame
    refine List.eq_nil_iff_forall_not_mem.2 fun n hn => ?_
    have hcount := (Prod.mk.inj (hsame n (hsub n hn))).2
    rw [if_pos (by simpa using hn)] at hcount
    omega
  · rintro rfl n -
    simp

/-- A fold leaves the tallies alone exactly if there is nothing it could raise. -/
theorem tallies_foldNotification : tallies ((foldNotification new).exec db).2 = tallies db ↔
    new.already db.notifications = true ∨ (db.notifications.select new.foldsInto).isEmpty = true ∨
      ((db.notifications.select new.foldsInto).any fun n => maxInteger ≤ n.count) = true := by
  rcases halready : new.already db.notifications
  · by_cases hfull : ((db.notifications.select new.foldsInto).any fun n => maxInteger ≤ n.count) = true
    · simp [foldNotification, Prog.exec, halready, hfull]
    · have hfold := @tallies_foldRow db new (db.notifications.select new.foldsInto) fun n hn => (Table.mem_select.1 hn).1
      simp only [foldNotification, Prog.exec, halready, Bool.false_eq_true, if_false, hfull, false_or, or_false,
        List.isEmpty_iff]
      exact hfold
  · have hnone := (@tallies_foldRow db new [] fun n hn => (by cases hn)).2 rfl
    simp only [foldNotification, Prog.exec, halready, if_true, List.any_nil, Bool.false_eq_true, if_false, true_or, iff_true]
    exact hnone

/-- A recording writes no row and counts nothing exactly if a row is for its message, or there is nothing to write. -/
theorem tallies_record (id : NotificationId) (new : NewNotification) (db : NotificationDb) :
    tallies ((record id new).exec db).2 = tallies db ↔ new.already db.notifications = true ∨ new.idle id db = true := by
  unfold record
  rw [Prog.exec_bind]
  rcases hconf : conflicts db.notifications (new.row id db.now)
  · have hnew : new.already db.notifications ≠ true := fun h => by
      rw [conflicts_of_already h] at hconf
      cases hconf
    rcases href : new.referencesExist db.toDb
    · simp [insertNotification_dangling hconf href, NewNotification.idle, hconf, href]
    · -- nothing is in the way, so a row is written
      have hgrown := tallies_insert hconf
      simp only [insertNotification_created hconf href, NewNotification.idle, hconf, href, hnew, Bool.false_eq_true, if_false,
        Bool.not_true, or_self, iff_false]
      refine fun hsame => ?_
      have hlength := congrArg List.length (hgrown.symm.trans hsame)
      simp at hlength
  · rw [insertNotification_conflict hconf]
    rcases hs : new.standsAlone
    · have hfold : tallies ((foldNotification new).exec db).2 = tallies db ↔ _ := tallies_foldNotification
      simp only [Bool.false_eq_true, if_false, Prog.exec_bind, NewNotification.idle, hconf, hs, if_true, Bool.false_or,
        Bool.or_eq_true]
      rw [← hfold]
      rcases (foldNotification new).exec db with ⟨e | _ | n, db'⟩ <;> rfl
    · simp [NewNotification.idle, hconf, hs, Prog.exec]
      rfl

end Tallies

/-! ## Over a run -/

namespace Deliveries

/-- Recorded again, nothing is created and no count changes. -/
def Inert (s : Deliveries) (h : Happening) : Prop := Again s h → tallies (s.step h).db = tallies s.db

theorem inert_iff (s : Deliveries) (h : Happening) : Inert s h ↔ (Again s h → Recognised s h) := by
  cases h with
  | record id new =>
    refine imp_congr_right fun _ => ?_
    exact tallies_record id new s.db
  | elsewhere e => exact iff_of_true (fun hagain => hagain.elim) fun _ => trivial

/-- In a run of recordings, and of what the recipients do meanwhile, what is recorded again creates nothing and changes no
count exactly if, whenever something is recorded again, a row is for its message still, or there is nothing to write. -/
theorem inert_along_iff (s : Deliveries) (hs : List Happening) :
    Along step Inert s hs ↔ Along step (fun s h => Again s h → Recognised s h) s hs :=
  along_congr (J := fun _ => True) (fun _ _ _ => trivial) (fun s h _ => inert_iff s h) trivial

end Deliveries

/-- A message, the next one of the conversation, and the first one again: it is counted three times. -/
theorem redelivery_counted : ¬ Along Deliveries.step Deliveries.Inert ⟨sample, []⟩
    [.record ⟨1⟩ (sampleNew false), .record ⟨2⟩ (sampleNew true), .record ⟨3⟩ (sampleNew false)] := by
  rintro ⟨-, -, hagain, -⟩
  have hraised := hagain ⟨⟨⟨1⟩, .directMessage, ⟨1⟩⟩, by decide, rfl⟩
  revert hraised
  decide

end Genzh.Notification
