/-
The table of notifications and the statements on it. Two unique indexes stand over it, one row for a person,
message and kind, and one unread row for a person, room, actor and kind; a write the indexes would refuse
is not made.
-/
import Genzh.Infrastructure.Db
import Genzh.Domain.Notification

namespace Genzh.Notification

open Genzh.Lib Genzh.Domain Genzh.Infrastructure

instance : HasKey Notification NotificationId := ⟨Notification.id⟩

/-- The database, and its table of notifications. -/
structure NotificationDb extends Db where
  notifications : Table Notification

/-- What a producer hands over. -/
structure NewNotification where
  userId : UserId
  kind : NotificationKind
  actorId : Option UserId
  roomId : Option RoomId
  messageId : Option MessageId
  preview : Option String
  deriving DecidableEq, Repr

/-- What recording a notification did. -/
inductive Recorded where
  /-- A new row. -/
  | created (notification : Notification)
  /-- An open row grew by one. -/
  | folded (notification : Notification)
  /-- Nothing was written. -/
  | known
  deriving DecidableEq, Repr

namespace Recorded

/-- The stored row, when something was written. -/
def notification : Recorded → Option Notification
  | created n | folded n => some n
  | known => none

/-- Is this the first the recipient hears of this conversation? -/
def isNew : Recorded → Bool
  | created _ => true
  | folded _ | known => false

end Recorded

/-! ## The indexes -/

/-- `coalesce(actor_id, '00000000-0000-0000-0000-000000000000')`. -/
def actorOrNil (actorId : Option UserId) : UserId := actorId.getD ⟨0⟩

/-- `notifications_unique_message_kind_idx`. -/
def sameMessage (n m : Notification) : Bool :=
  n.messageId.isSome && n.messageId = m.messageId && n.userId = m.userId && n.kind = m.kind

/-- Is the row one of `notifications_open_group_idx`? -/
def isOpen (n : Notification) : Bool := n.readAt.isNone && n.roomId.isSome

/-- `notifications_open_group_idx`. -/
def sameOpenGroup (n m : Notification) : Bool :=
  isOpen n && isOpen m && n.userId = m.userId && n.roomId = m.roomId && actorOrNil n.actorId = actorOrNil m.actorId &&
    n.kind = m.kind

/-- No two rows that one of the indexes takes for the same. -/
structure Indexed (t : Table Notification) : Prop where
  messages : ∀ n ∈ t.rows, ∀ m ∈ t.rows, sameMessage n m = true → n = m
  openGroups : ∀ n ∈ t.rows, ∀ m ∈ t.rows, sameOpenGroup n m = true → n = m

theorem Indexed.empty : Indexed .empty := ⟨fun _ hn => absurd hn List.not_mem_nil, fun _ hn => absurd hn List.not_mem_nil⟩

/-! ## The statements -/

/-- The largest number an `INTEGER` column holds. -/
def maxInteger : Nat := 2147483647

/-- The row an insert would write. -/
def NewNotification.row (new : NewNotification) (id : NotificationId) (now : Timestamp) : Notification where
  id := id
  userId := new.userId
  kind := new.kind
  actorId := new.actorId
  roomId := new.roomId
  messageId := new.messageId
  preview := new.preview
  count := 1
  readAt := none
  createdAt := now
  updatedAt := now

/-- Is there a row an index takes for the same? -/
def conflicts (t : Table Notification) (row : Notification) : Bool :=
  t.contains row.id || t.rows.any fun n => sameMessage row n || sameOpenGroup row n

/-- The foreign keys of its row. -/
def NewNotification.referencesExist (new : NewNotification) (db : Db) : Bool :=
  db.userExists new.userId && new.actorId.all db.userExists && new.roomId.all db.roomExists &&
    new.messageId.all db.messages.contains

/-- Does an open row stand for the conversation this is about? -/
def NewNotification.foldsInto (new : NewNotification) (n : Notification) : Bool :=
  n.userId = new.userId && n.kind = new.kind && new.roomId.isSome && n.roomId = new.roomId && n.actorId = new.actorId &&
    n.readAt.isNone

/-- Is the row one for this very message? -/
def NewNotification.isAbout (new : NewNotification) (n : Notification) : Bool :=
  n.userId = new.userId && n.kind = new.kind && new.messageId.isSome && n.messageId = new.messageId

/-- Is there already such a row? -/
def NewNotification.already (new : NewNotification) (t : Table Notification) : Bool := t.rows.any new.isAbout

/-- What a fold sets. -/
def foldRow (new : NewNotification) (now : Timestamp) (n : Notification) : Notification :=
  { n with
    count := n.count + 1
    messageId := new.messageId.or n.messageId
    preview := new.preview.or n.preview
    updatedAt := now }

abbrev NotificationM := Prog NotificationDb RepositoryError

/-- `INSERT INTO notifications .. ON CONFLICT DO NOTHING RETURNING ..`. -/
def insertNotification (id : NotificationId) (new : NewNotification) : NotificationM (Option Notification) := fun db =>
  let row := new.row id db.now
  if conflicts db.notifications row then (.ok none, db)
  else if new.referencesExist db.toDb then
    (.ok (some row), { db with notifications := db.notifications.insert row })
  else (.error .foreignKey, db)

/-- `UPDATE notifications SET count = count + 1, .. RETURNING ..`. -/
def foldNotification (new : NewNotification) : NotificationM (Option Notification) := fun db =>
  let matched := if new.already db.notifications then [] else db.notifications.select new.foldsInto
  if matched.any fun n => maxInteger ≤ n.count then (.error .database, db)
  else
    let notifications := db.notifications.updateWhere (fun n => matched.contains n) (foldRow new db.now) fun _ => rfl
    (.ok (matched.head?.map (foldRow new db.now)), { db with notifications })

/-- Nothing to fold into: a second event of this kind, or outside a room, is a second fact. -/
def NewNotification.standsAlone (new : NewNotification) : Bool := new.roomId.isNone || !new.kind.folds

/-- Record one notification, folding it into an open row where there is one. -/
def record (id : NotificationId) (new : NewNotification) : NotificationM Recorded := do
  let created ← insertNotification id new
  match created with
  | some notification => pure (.created notification)
  | none =>
    if new.standsAlone then pure .known
    else do
      let folded ← foldNotification new
      pure (match folded with
        | some notification => .folded notification
        | none => .known)

/-- The row, read. -/
def closeRow (now : Timestamp) (n : Notification) : Notification := { n with readAt := some now }

/-- `UPDATE notifications SET read_at = now() WHERE p AND read_at IS NULL`. -/
def markWhere (p : Notification → Bool) (db : NotificationDb) : NotificationDb :=
  { db with notifications := db.notifications.updateWhere (fun n => p n && n.readAt.isNone) (closeRow db.now) fun _ => rfl }

/-- Mark one notification read. -/
def markRead (userId : UserId) (id : NotificationId) : NotificationM Bool := fun db =>
  let p := fun n : Notification => n.id = id && n.userId = userId
  (.ok (decide (0 < db.notifications.count fun n => p n && n.readAt.isNone)), markWhere p db)

/-- Mark everything read. -/
def markAllRead (userId : UserId) : NotificationM Nat := fun db =>
  let p := fun n : Notification => decide (n.userId = userId)
  (.ok (db.notifications.count fun n => p n && n.readAt.isNone), markWhere p db)

/-! ## What the statements do -/

section Statements

variable {t : Table Notification} {db : NotificationDb} {id : NotificationId} {new new' : NewNotification} {n m : Notification}

theorem isAbout_iff : new.isAbout n = true ↔
    n.userId = new.userId ∧ n.kind = new.kind ∧ new.messageId.isSome = true ∧ n.messageId = new.messageId := by
  simp [NewNotification.isAbout, and_assoc]

theorem already_eq_false : new.already t = false ↔ ∀ n ∈ t.rows, new.isAbout n = false := by
  simp [NewNotification.already]

/-- A row is about what it was about before a fold, or about what was folded in. -/
theorem isAbout_foldRow {now : Timestamp} (hf : new.foldsInto n = true) (h : new'.isAbout (foldRow new now n) = true) :
    new'.isAbout n = true ∨ (new.userId = new'.userId ∧ new.kind = new'.kind ∧ new.messageId = new'.messageId ∧
      new.messageId.isSome = true) := by
  obtain ⟨hu, hk, hs, hm⟩ := isAbout_iff.1 h
  obtain ⟨hnu, hnk, -⟩ : n.userId = new.userId ∧ n.kind = new.kind ∧ _ := by
    simpa [NewNotification.foldsInto, and_assoc] using hf
  change new.messageId.or n.messageId = new'.messageId at hm
  rcases hmsg : new.messageId with _ | x
  · rw [hmsg, Option.none_or] at hm
    exact .inl (isAbout_iff.2 ⟨hu, hk, hs, hm⟩)
  · rw [hmsg, Option.some_or] at hm
    exact .inr ⟨hnu.symm.trans hu, hnk.symm.trans hk, hm, rfl⟩

theorem foldsInto_iff : new.foldsInto n = true ↔ n.userId = new.userId ∧ n.kind = new.kind ∧ new.roomId.isSome = true ∧
    n.roomId = new.roomId ∧ n.actorId = new.actorId ∧ n.readAt = none := by
  simp [NewNotification.foldsInto, and_assoc]

/-- Two open rows of one conversation are one. -/
theorem foldsInto_unique (h : Indexed t) (hn : n ∈ t.rows) (hm : m ∈ t.rows) (hfn : new.foldsInto n = true)
    (hfm : new.foldsInto m = true) : n = m := by
  obtain ⟨hnu, hnk, hroom, hnr, hna, hno⟩ := foldsInto_iff.1 hfn
  obtain ⟨hmu, hmk, -, hmr, hma, hmo⟩ := foldsInto_iff.1 hfm
  refine h.openGroups n hn m hm ?_
  simp [sameOpenGroup, isOpen, hnu, hmu, hnk, hmk, hnr, hmr, hna, hma, hno, hmo, hroom]

theorem insertNotification_conflict (h : conflicts db.notifications (new.row id db.now) = true) :
    (insertNotification id new).exec db = (.ok none, db) := by
  simp [insertNotification, Prog.exec, h]

theorem insertNotification_created (h : conflicts db.notifications (new.row id db.now) = false)
    (href : new.referencesExist db.toDb = true) : (insertNotification id new).exec db =
      (.ok (some (new.row id db.now)), { db with notifications := db.notifications.insert (new.row id db.now) }) := by
  simp [insertNotification, Prog.exec, h, href]

theorem contains_of_not_conflicts (h : conflicts t n = false) : t.contains n.id = false := (Bool.or_eq_false_iff.1 h).1

/-- A fold without an open row, of a message no row is about, does nothing. -/
theorem foldNotification_none (hnew : new.already db.notifications = false)
    (h : ∀ n ∈ db.notifications.rows, new.foldsInto n = false) : (foldNotification new).exec db = (.ok none, db) := by
  have hnone : db.notifications.select new.foldsInto = [] := List.filter_eq_nil_iff.2 fun n hn => by simp [h n hn]
  have hsame : (db.notifications.updateWhere (fun n => ([] : List Notification).contains n) (foldRow new db.now) fun _ => rfl) =
      db.notifications := by
    apply Table.ext
    refine (List.map_congr_left fun n _ => ?_).trans (List.map_id _)
    simp
  simp only [foldNotification, Prog.exec, hnew, Bool.false_eq_true, if_false, hnone, hsame]
  rfl

/-- What a fold does where there is an open row. -/
theorem foldNotification_some (hidx : Indexed db.notifications) (hnew : new.already db.notifications = false)
    (hn : n ∈ db.notifications.rows) (hf : new.foldsInto n = true) : (foldNotification new).exec db =
      if maxInteger ≤ n.count then (.error .database, db)
      else (.ok (some (foldRow new db.now n)),
        { db with notifications := db.notifications.update n.id (foldRow new db.now) fun _ => rfl }) := by
  have hmatched : ∀ m, m ∈ db.notifications.select new.foldsInto ↔ m = n := by
    intro m
    rw [Table.mem_select]
    constructor
    · rintro ⟨hm, hfm⟩
      exact foldsInto_unique hidx hm hn hfm hf
    · rintro rfl
      exact ⟨hn, hf⟩
  have hnodup : (db.notifications.select new.foldsInto).Nodup := (db.notifications.nodup.of_map _).filter _
  have hone : db.notifications.select new.foldsInto = [n] := by
    refine List.perm_singleton.1 ((List.perm_ext_iff_of_nodup hnodup (List.nodup_singleton n)).2 fun m => ?_)
    rw [hmatched, List.mem_singleton]
  have hrow : (db.notifications.updateWhere (fun m => [n].contains m) (foldRow new db.now) fun _ => rfl) =
      db.notifications.update n.id (foldRow new db.now) fun _ => rfl := by
    refine Table.updateWhere_congr fun m hm => ?_
    have hkey : m.id = n.id ↔ m = n :=
      ⟨fun h => List.inj_on_of_nodup_map db.notifications.nodup hm hn h, fun h => by rw [h]⟩
    rw [Bool.eq_iff_iff]
    simp [key, hkey]
  simp only [foldNotification, Prog.exec, hnew, Bool.false_eq_true, if_false, hone, hrow]
  by_cases hc : maxInteger ≤ n.count <;> simp [hc]

/-! ## The indexes hold -/

theorem sameMessage_iff : sameMessage n m = true ↔
    n.messageId.isSome = true ∧ n.messageId = m.messageId ∧ n.userId = m.userId ∧ n.kind = m.kind := by
  simp [sameMessage, and_assoc]

theorem sameMessage_symm (h : sameMessage n m = true) : sameMessage m n = true := by
  obtain ⟨hs, hid, hu, hk⟩ := sameMessage_iff.1 h
  exact sameMessage_iff.2 ⟨hid ▸ hs, hid.symm, hu.symm, hk.symm⟩

theorem sameOpenGroup_symm (h : sameOpenGroup n m = true) : sameOpenGroup m n = true := by
  simp only [sameOpenGroup, Bool.and_eq_true, decide_eq_true_eq] at h ⊢
  obtain ⟨⟨⟨⟨⟨hn, hm⟩, hu⟩, hr⟩, ha⟩, hk⟩ := h
  exact ⟨⟨⟨⟨⟨hm, hn⟩, hu.symm⟩, hr.symm⟩, ha.symm⟩, hk.symm⟩

theorem Indexed.insert (h : Indexed t) (hc : conflicts t n = false) : Indexed (t.insert n) := by
  obtain ⟨hid, hany⟩ := Bool.or_eq_false_iff.1 hc
  have hfree : ∀ m ∈ t.rows, sameMessage n m = false ∧ sameOpenGroup n m = false := fun m hm =>
    Bool.or_eq_false_iff.1 (Bool.eq_false_iff.2 (List.any_eq_false.1 hany m hm))
  constructor
  · intro a ha b hb hab
    rcases Table.mem_insert.1 ha with hat | ⟨rfl, -⟩
    · rcases Table.mem_insert.1 hb with hbt | ⟨rfl, -⟩
      · exact h.messages a hat b hbt hab
      · exact absurd (sameMessage_symm hab) (by simp [(hfree a hat).1])
    · rcases Table.mem_insert.1 hb with hbt | ⟨rfl, -⟩
      · exact absurd hab (by simp [(hfree b hbt).1])
      · rfl
  · intro a ha b hb hab
    rcases Table.mem_insert.1 ha with hat | ⟨rfl, -⟩
    · rcases Table.mem_insert.1 hb with hbt | ⟨rfl, -⟩
      · exact h.openGroups a hat b hbt hab
      · exact absurd (sameOpenGroup_symm hab) (by simp [(hfree a hat).2])
    · rcases Table.mem_insert.1 hb with hbt | ⟨rfl, -⟩
      · exact absurd hab (by simp [(hfree b hbt).2])
      · rfl

theorem mem_markWhere {p : Notification → Bool} : m ∈ (markWhere p db).notifications.rows ↔
    ∃ n ∈ db.notifications.rows, (if (p n && n.readAt.isNone) = true then closeRow db.now n else n) = m := List.mem_map

/-- Closing rows opens no group and changes what no row is about. -/
theorem Indexed.markWhere (h : Indexed db.notifications) (p : Notification → Bool) :
    Indexed (markWhere p db).notifications := by
  have hmessage : ∀ n m : Notification, ∀ c d : Bool, sameMessage (if c then closeRow db.now n else n)
      (if d then closeRow db.now m else m) = sameMessage n m := by
    intro n m c d
    cases c <;> cases d <;> rfl
  have hgroup : ∀ n m : Notification, ∀ c d : Bool, sameOpenGroup (if c then closeRow db.now n else n)
      (if d then closeRow db.now m else m) = true → sameOpenGroup n m = true := by
    intro n m c d h
    cases c <;> cases d <;> simp_all [sameOpenGroup, isOpen, closeRow]
  constructor
  · intro a ha b hb hab
    obtain ⟨n, hn, rfl⟩ := mem_markWhere.1 ha
    obtain ⟨m, hm, rfl⟩ := mem_markWhere.1 hb
    rw [hmessage] at hab
    rw [h.messages n hn m hm hab]
  · intro a ha b hb hab
    obtain ⟨n, hn, rfl⟩ := mem_markWhere.1 ha
    obtain ⟨m, hm, rfl⟩ := mem_markWhere.1 hb
    rw [h.openGroups n hn m hm (hgroup n m _ _ hab)]

/-- A fold gives a row a message that none is about. -/
theorem Indexed.fold (h : Indexed t) (hnew : new.already t = false) (hn : n ∈ t.rows) (hf : new.foldsInto n = true)
    (now : Timestamp) : Indexed (t.update n.id (foldRow new now) fun _ => rfl) := by
  have hid : ∀ m ∈ t.rows, m.id = n.id → m = n := fun m hm he => List.inj_on_of_nodup_map t.nodup hm hn he
  -- whoever else has the message the row has now had it before
  have hmoved : ∀ m ∈ t.rows, sameMessage (foldRow new now n) m = true → sameMessage n m = true := by
    intro m hm hs
    obtain ⟨hsome, hmid, hu, hk⟩ := sameMessage_iff.1 hs
    change (new.messageId.or n.messageId).isSome = true at hsome
    change new.messageId.or n.messageId = m.messageId at hmid
    rcases hmsg : new.messageId with _ | x
    · rw [hmsg, Option.none_or] at hsome hmid
      exact sameMessage_iff.2 ⟨hsome, hmid, hu, hk⟩
    · obtain ⟨hnu, hnk, -⟩ := foldsInto_iff.1 hf
      rw [hmsg, Option.some_or] at hmid
      have habout : new.isAbout m = true :=
        isAbout_iff.2 ⟨hu.symm.trans hnu, hk.symm.trans hnk, by simp [hmsg], hmsg ▸ hmid.symm⟩
      rw [already_eq_false.1 hnew m hm] at habout
      cases habout
  constructor
  · intro a ha b hb hab
    obtain ⟨x, hx, rfl⟩ := Table.mem_updateWhere.1 ha
    obtain ⟨y, hy, rfl⟩ := Table.mem_updateWhere.1 hb
    have hxy : x = y := by
      by_cases hxn : x.id = n.id
      · obtain rfl := hid x hx hxn
        by_cases hyn : y.id = x.id
        · exact (hid y hy hyn).symm
        · simp only [key, decide_true, if_true, hyn, decide_false, Bool.false_eq_true, if_false] at hab
          exact h.messages x hx y hy (hmoved y hy hab)
      · by_cases hyn : y.id = n.id
        · obtain rfl := hid y hy hyn
          simp only [key, decide_true, if_true, hxn, decide_false, Bool.false_eq_true, if_false] at hab
          exact (h.messages y hy x hx (hmoved x hx (sameMessage_symm hab))).symm
        · simp only [key, hxn, hyn, decide_false, Bool.false_eq_true, if_false] at hab
          exact h.messages x hx y hy hab
    rw [hxy]
  · intro a ha b hb hab
    obtain ⟨x, hx, rfl⟩ := Table.mem_updateWhere.1 ha
    obtain ⟨y, hy, rfl⟩ := Table.mem_updateWhere.1 hb
    have hgroup : ∀ x y : Notification, ∀ c d : Bool, sameOpenGroup (if c then foldRow new now x else x)
        (if d then foldRow new now y else y) = sameOpenGroup x y := by
      intro x y c d
      cases c <;> cases d <;> rfl
    rw [hgroup] at hab
    rw [h.openGroups x hx y hy hab]

end Statements

end Genzh.Notification
