/-
Turning a message into notifications. One reason is collected for each person, the strongest of those that apply;
whoever is reading the room is left out, and whoever muted it unless they were named; what remains is recorded.
Nothing on the way asks whether the person can see the room, or is in a block with the author.
-/
import Genzh.Notification.Repository
import Genzh.Infrastructure.Attention
import Genzh.Messaging.Service

namespace Genzh.Notification

open Genzh.Lib Genzh.Domain Genzh.Infrastructure Genzh.Room Genzh.Social Genzh.Messaging

/-! ## The plan -/

/-- How many people an `@everyone` may notify. -/
def everyoneNotificationCap : Nat := 50

/-- What is looked up on the way. A lookup that fails is logged, and done without. -/
inductive Lookup where
  | handles
  | participants
  | attention
  | readState
  deriving DecidableEq, Repr

/-- What surrounds the database: who is reading what, who muted the room, and which lookups fail. -/
structure Surroundings where
  attention : Attention
  /-- The clock of `attention`. -/
  clock : Nat
  muted : UserId → Bool
  fails : Lookup → Bool

/-- How well a kind describes why somebody is being told. -/
def rank : NotificationKind → Nat
  | .mention => 3
  | .everyone => 2
  | .directMessage => 1
  | .friendRequest | .friendAccepted => 0

/-- Does `candidate` describe it better than `held`? -/
def outranks (candidate held : NotificationKind) : Bool := rank held < rank candidate

/-- Resolve a batch of handles to ids. -/
def findIdsByHandles (db : Db) (handles : List String) : List (String × UserId) :=
  (db.users.select fun u => handles.contains u.handle && u.isActive).map fun u => (u.handle, u.id)

/-- Give somebody a reason to be told, if it is the best one so far. -/
def consider (author : UserId) (kind : NotificationKind) (intended : Map UserId NotificationKind) (userId : UserId) :
    Map UserId NotificationKind :=
  if userId = author then intended
  else
    match intended.get userId with
    | some held => if outranks kind held then intended.set userId kind else intended
    | none => intended.set userId kind

/-- Who has a reason to be told, and which. -/
def intendedFor (env : Surroundings) (db : Db) (room : Domain.Room) (message : Message) : Map UserId NotificationKind :=
  let author := message.authorId
  let handles := mentionedHandles message.content
  let resolved := if env.fails .handles then [] else (findIdsByHandles db handles).map (·.2)
  let named := resolved.foldl (consider author .mention) .empty
  let everyone := mentionsEveryone message.content
  let audience := if env.fails .participants then [] else (db.participants room.id).filter (· ≠ author)
  if room.isDirect then audience.foldl (consider author .directMessage) named
  else if everyone && audience.length ≤ everyoneNotificationCap then audience.foldl (consider author .everyone) named
  else named

/-- What is recorded about a message for one person. -/
def newFor (room : Domain.Room) (message : Message) (actor : Option UserId) (userId : UserId) (kind : NotificationKind) :
    NewNotification where
  userId := userId
  kind := kind
  actorId := actor
  roomId := some room.id
  messageId := some message.id
  preview := some (previewOf message.content)

/-- Who is worth telling. -/
def planned (env : Surroundings) (db : Db) (room : Domain.Room) (message : Message) (actor : Option UserId) : List NewNotification :=
  let intended := intendedFor env db room message
  let candidates := intended.rows.map (·.key)
  let reading := if env.fails .attention then [] else env.attention.watching room.id candidates env.clock
  let muted := if env.fails .readState then [] else candidates.filter env.muted
  (intended.rows.filter fun e => !reading.contains e.key && (e.val = .mention || !muted.contains e.key)).map
    fun e => newFor room message actor e.key e.val

/-! ## Recording it -/

/-- Record one notification. Nobody is notified about their own action. -/
def notify (id : NotificationId) (new : NewNotification) : NotificationM Recorded :=
  if new.actorId = some new.userId then pure .known else record id new

/-- Record several at once. One failure does not lose the rest of the batch. -/
def notifyAll (draws : Nat → NotificationId) : Nat → List NewNotification → NotificationDb → List Recorded × NotificationDb
  | _, [], db => ([], db)
  | k, new :: batch, db =>
    let (outcome, db) := (notify (draws k) new).exec db
    let (recorded, db) := notifyAll draws (k + 1) batch db
    match outcome with
    | .ok .known | .error _ => (recorded, db)
    | .ok other => (other :: recorded, db)

/-- Record every notification a new message earns, and say which rows are pushed to their owners. -/
def notifyForMessage (env : Surroundings) (draws : Nat → NotificationId) (room : Domain.Room) (message : Message)
    (actor : Option UserId) (db : NotificationDb) : List (Notification × Bool) × NotificationDb :=
  let (recorded, db) := notifyAll draws 0 (planned env db.toDb room message actor) db
  (recorded.filterMap fun outcome => outcome.notification.map fun n => (n, outcome.isNew), db)

/-! ## Who has a reason to be told -/

section Intended

variable {env : Surroundings} {db : Db} {room : Domain.Room} {message : Message} {u : UserId}

/-- Does the message name this user? -/
def Named (env : Surroundings) (db : Db) (message : Message) (u : UserId) : Prop :=
  env.fails .handles = false ∧ u ≠ message.authorId ∧
    ∃ account ∈ db.users.rows, account.id = u ∧ account.isActive = true ∧ account.handle ∈ mentionedHandles message.content

/-- The other participants of a room. -/
def others (db : Db) (room : Domain.Room) (author : UserId) : List UserId := (db.participants room.id).filter (· ≠ author)

/-- Is the message addressed to this user as to everybody in the room? -/
def Addressed (env : Surroundings) (db : Db) (room : Domain.Room) (message : Message) (u : UserId) : Prop :=
  env.fails .participants = false ∧ u ∈ others db room message.authorId ∧ (room.isDirect = true ∨
    mentionsEveryone message.content = true ∧ (others db room message.authorId).length ≤ everyoneNotificationCap)

/-- The kind of what a participant is told. -/
def addressedKind (room : Domain.Room) : NotificationKind := if room.isDirect then .directMessage else .everyone

theorem get_foldl_consider {author : UserId} {kind : NotificationKind} {ids : List UserId} {m : Map UserId NotificationKind}
    (hm : ∀ v held, m.get v = some held → outranks kind held = false) :
    (ids.foldl (consider author kind) m).get u = (m.get u).or (if u ∈ ids ∧ u ≠ author then some kind else none) := by
  induction ids generalizing m with
  | nil => simp
  | cons v ids ih =>
    have hstep : ∀ w, (consider author kind m v).get w = (m.get w).or (if w = v ∧ w ≠ author then some kind else none) := by
      intro w
      unfold consider
      by_cases hva : v = author
      · have hno : ¬ (w = v ∧ w ≠ author) := fun hw => hw.2 (hw.1.trans hva)
        rw [if_pos hva, if_neg hno, Option.or_none]
      rw [if_neg hva]
      rcases hget : m.get v with _ | held
      · show (m.set v kind).get w = _
        rw [Map.get_set]
        by_cases hvw : v = w
        · subst hvw
          simp [hget, hva]
        · simp [hvw, Ne.symm hvw]
      · show (if outranks kind held then m.set v kind else m).get w = _
        rw [hm v held hget]
        by_cases hwv : w = v
        · subst hwv
          simp [hget]
        · simp [hwv]
    have hnext : ∀ w held, (consider author kind m v).get w = some held → outranks kind held = false := by
      intro w held hw
      rw [hstep] at hw
      rcases Option.or_eq_some_iff.1 hw with hw | ⟨-, hw⟩
      · exact hm w held hw
      · split at hw
        · cases hw
          simp [outranks]
        · cases hw
    rw [List.foldl_cons, ih hnext, hstep, Option.or_assoc]
    congr 1
    by_cases hua : u = author
    · simp [hua]
    · by_cases huv : u = v
      · subst huv
        by_cases hu : u ∈ ids <;> simp [hu, hua]
      · simp [huv]

open Classical in
theorem get_named : ((if env.fails .handles then [] else (findIdsByHandles db (mentionedHandles message.content)).map
    (·.2)).foldl (consider message.authorId .mention) Map.empty).get u = if Named env db message u then some .mention else none := by
  have hresolved : u ∈ (if env.fails .handles then [] else (findIdsByHandles db (mentionedHandles message.content)).map (·.2)) ∧
      u ≠ message.authorId ↔ Named env db message u := by
    rcases hf : env.fails .handles
    · simp only [Bool.false_eq_true, if_false, findIdsByHandles, List.map_map, List.mem_map, Table.mem_select, Named, hf, true_and]
      constructor
      · rintro ⟨⟨account, ⟨hrow, hok⟩, rfl⟩, hne⟩
        obtain ⟨hh, ha⟩ := Bool.and_eq_true_iff.1 hok
        exact ⟨hne, account, hrow, rfl, ha, by simpa using hh⟩
      · rintro ⟨hne, account, hrow, rfl, ha, hh⟩
        exact ⟨⟨account, ⟨hrow, by simp [ha, hh]⟩, rfl⟩, hne⟩
    · simp [Named, hf]
  rw [get_foldl_consider fun v held hv => by simp at hv, Map.get_empty, Option.none_or]
  exact if_congr hresolved rfl rfl

open Classical in
/-- Whoever is named is told so, and whoever else is addressed is told that. -/
theorem get_intendedFor : (intendedFor env db room message).get u = if Named env db message u then some .mention
    else if Addressed env db room message u then some (addressedKind room) else none := by
  -- nothing beats being named
  have hmention : ∀ kind v held, (((if env.fails .handles then [] else (findIdsByHandles db
      (mentionedHandles message.content)).map (·.2)).foldl (consider message.authorId .mention) Map.empty).get v = some held →
      outranks kind held = false) := by
    intro kind v held hv
    rw [get_named] at hv
    split at hv
    · cases hv
      cases kind <;> rfl
    · cases hv
  have hor : ∀ (c : Prop) [Decidable c] (k : NotificationKind), ((if Named env db message u then some .mention else none).or
      (if c then some k else none) : Option NotificationKind) =
        if Named env db message u then some .mention else if c then some k else none := by
    intro c _ k
    by_cases hn : Named env db message u <;> simp [hn]
  have hothers : ∀ ids : List UserId, u ∈ ids.filter (· ≠ message.authorId) → u ≠ message.authorId := fun ids h => by
    simpa using (List.mem_filter.1 h).2
  simp only [intendedFor]
  rcases hf : env.fails .participants
  · simp only [Bool.false_eq_true, if_false]
    rcases hd : room.isDirect
    · simp only [Bool.false_eq_true, if_false]
      by_cases he : mentionsEveryone message.content = true ∧ (others db room message.authorId).length ≤ everyoneNotificationCap
      · rw [if_pos (by simpa [others] using he), get_foldl_consider (hmention _), get_named, hor]
        simp only [addressedKind, hd, Bool.false_eq_true, if_false]
        refine if_congr Iff.rfl rfl (if_congr ?_ rfl rfl)
        simp only [Addressed, hf, hd, others, true_and, Bool.false_eq_true, false_or]
        exact ⟨fun h => ⟨h.1, he⟩, fun h => ⟨h.1, hothers _ h.1⟩⟩
      · rw [if_neg (by simpa [others] using he), get_named]
        refine if_congr Iff.rfl rfl (if_neg fun h => ?_).symm
        rcases h.2.2 with hdirect | hev
        · rw [hd] at hdirect
          cases hdirect
        · exact he hev
    · simp only [if_true]
      rw [get_foldl_consider (hmention _), get_named, hor]
      simp only [addressedKind, hd, if_true]
      refine if_congr Iff.rfl rfl (if_congr ?_ rfl rfl)
      simp only [Addressed, hf, hd, others, true_and, true_or, and_true]
      exact ⟨fun h => h.1, fun h => ⟨h, hothers _ h⟩⟩
  · have hnot : ¬ Addressed env db room message u := fun h => by
      rw [h.1] at hf
      cases hf
    simp only [if_true, List.foldl_nil, ite_self, if_neg hnot]
    exact get_named

end Intended

/-! ## Who is told in the end -/

section Told

variable {db : NotificationDb} {t t' : Table Notification} {id : NotificationId} {new : NewNotification} {m : MessageId} {u : UserId}

/-- Has this user a row for the message? -/
def Notified (t : Table Notification) (m : MessageId) (u : UserId) : Prop :=
  ∃ n ∈ t.rows, n.userId = u ∧ n.messageId = some m

/-- Can it be recorded? No row stands in its way, or the conversation has an open one that can count one more. -/
def recordable (new : NewNotification) (t : Table Notification) : Bool :=
  !(t.rows.any (sameOpenGroup (new.row ⟨0⟩ 0))) || t.rows.any fun n => new.foldsInto n && decide (n.count < maxInteger)

/-- What a recording does to the rows of its user, and that it leaves those of the others. -/
structure Recorder (id : NotificationId) (new : NewNotification) (m : MessageId) (db db' : NotificationDb) : Prop where
  indexed : Indexed db'.notifications
  elsewhere : db'.toDb = db.toDb
  others : ∀ n, n.userId ≠ new.userId → (n ∈ db'.notifications.rows ↔ n ∈ db.notifications.rows)
  fresh : ∀ j, j ≠ id → db.notifications.contains j = false → db'.notifications.contains j = false
  notified : Notified db'.notifications m new.userId ↔ recordable new db.notifications = true

theorem already_of_not_notified (h : ¬ Notified t m new.userId) (hm : new.messageId = some m) : new.already t = false := by
  refine already_eq_false.2 fun n hn => Bool.eq_false_iff.2 fun habout => ?_
  obtain ⟨hu, -, -, hmsg⟩ := isAbout_iff.1 habout
  exact h ⟨n, hn, hu, hmsg.trans hm⟩

theorem Recorder.unchanged (hidx : Indexed db.notifications) (h : ¬ Notified db.notifications m new.userId)
    (hr : recordable new db.notifications = false) : Recorder id new m db db where
  indexed := hidx
  elsewhere := rfl
  others _ _ := Iff.rfl
  fresh _ _ h := h
  notified := iff_of_false h (by simp [hr])

/-- A row of its own. -/
theorem Recorder.inserted (hidx : Indexed db.notifications) (hid : db.notifications.contains id = false)
    (hm : new.messageId = some m) (hconf : conflicts db.notifications (new.row id db.now) = false)
    (hr : recordable new db.notifications = true) :
    Recorder id new m db { db with notifications := db.notifications.insert (new.row id db.now) } where
  indexed := hidx.insert hconf
  elsewhere := rfl
  others n hn := by
    rw [Table.mem_insert]
    exact or_iff_left fun h => hn (by rw [h.1]; rfl)
  fresh j hj hc := by
    have hcontains := Table.contains_insert db.notifications (new.row id db.now) j
    rw [hcontains, hc, Bool.false_or]
    exact decide_eq_false (Ne.symm hj)
  notified := iff_of_true ⟨new.row id db.now, Table.mem_insert.2 (.inr ⟨rfl, hid⟩), rfl, hm⟩ hr

/-- The open row of the conversation. -/
theorem Recorder.folded (hidx : Indexed db.notifications) (hm : new.messageId = some m)
    (hnew : new.already db.notifications = false) {n : Notification} (hn : n ∈ db.notifications.rows)
    (hf : new.foldsInto n = true) (hr : recordable new db.notifications = true) :
    Recorder id new m db
      { db with notifications := db.notifications.update n.id (foldRow new db.now) fun _ => rfl } where
  indexed := hidx.fold hnew hn hf _
  elsewhere := rfl
  others r hr := by
    have hu : n.userId = new.userId := (foldsInto_iff.1 hf).1
    refine (Table.mem_update db.notifications n.id (foldRow new db.now) fun _ => rfl).trans ⟨?_, fun hrow => .inr ⟨hrow, ?_⟩⟩
    · rintro (⟨r', hr', hk, rfl⟩ | ⟨hrow, -⟩)
      · obtain rfl : r' = n := List.inj_on_of_nodup_map db.notifications.nodup hr' hn hk
        exact absurd hu hr
      · exact hrow
    · intro hk
      obtain rfl : r = n := List.inj_on_of_nodup_map db.notifications.nodup hrow hn hk
      exact hr hu
  fresh j _ hj := (Table.contains_updateWhere _ _ (foldRow new db.now) (fun _ => rfl) j).trans hj
  notified := by
    refine iff_of_true ⟨foldRow new db.now n, List.mem_map.2 ⟨n, hn, if_pos (decide_eq_true rfl)⟩, (foldsInto_iff.1 hf).1, ?_⟩ hr
    simp [foldRow, hm]

/-- Recording a message that no row of its user is about. -/
theorem record_recorder (hidx : Indexed db.notifications) (hid : db.notifications.contains id = false)
    (href : new.referencesExist db.toDb = true) (hs : new.standsAlone = false) (hm : new.messageId = some m)
    (hnone : ¬ Notified db.notifications m new.userId) : Recorder id new m db ((record id new).exec db).2 := by
  have hnew := already_of_not_notified hnone hm
  have hmessage : ∀ n ∈ db.notifications.rows, sameMessage (new.row id db.now) n = false := fun n hn =>
    Bool.eq_false_iff.2 fun h => by
      obtain ⟨-, hmsg, hu, -⟩ := sameMessage_iff.1 h
      exact hnone ⟨n, hn, hu.symm, hmsg.symm.trans hm⟩
  have hconf : conflicts db.notifications (new.row id db.now) = db.notifications.rows.any (sameOpenGroup (new.row ⟨0⟩ 0)) := by
    unfold conflicts
    rw [show db.notifications.contains (new.row id db.now).id = false from hid, Bool.false_or]
    rw [Bool.eq_iff_iff, List.any_eq_true, List.any_eq_true]
    refine exists_congr fun n => and_congr_right fun hn => ?_
    rw [hmessage n hn, Bool.false_or]
    exact Iff.rfl
  unfold record
  rcases hopen : db.notifications.rows.any (sameOpenGroup (new.row ⟨0⟩ 0))
  · -- no row stands in the way
    rw [hopen] at hconf
    rw [Prog.exec_bind_ok (insertNotification_created hconf href), Prog.exec_pure]
    exact .inserted hidx hid hm hconf (by rw [recordable, hopen]; rfl)
  · rw [hopen] at hconf
    rw [Prog.exec_bind_ok (insertNotification_conflict hconf)]
    simp only [hs, Bool.false_eq_true, if_false]
    by_cases hfold : ∃ n ∈ db.notifications.rows, new.foldsInto n = true
    · obtain ⟨n, hn, hf⟩ := hfold
      rw [Prog.exec_bind, foldNotification_some hidx hnew hn hf]
      by_cases hc : maxInteger ≤ n.count
      · -- the open row is full
        rw [if_pos hc]
        refine .unchanged hidx hnone (Bool.eq_false_iff.2 fun hr => ?_)
        rw [recordable, hopen, Bool.not_true, Bool.false_or, List.any_eq_true] at hr
        obtain ⟨r, hr, hfr⟩ := hr
        obtain ⟨hfr, hcr⟩ := Bool.and_eq_true_iff.1 hfr
        rw [foldsInto_unique hidx hr hn hfr hf] at hcr
        exact absurd (of_decide_eq_true hcr) (Nat.not_lt.2 hc)
      · -- the message joins the open row
        rw [if_neg hc]
        refine .folded hidx hm hnew hn hf ?_
        rw [recordable, Bool.or_eq_true]
        exact .inr (List.any_eq_true.2 ⟨n, hn, by simp [hf, Nat.lt_of_not_le hc]⟩)
    · -- what stands in the way is no row of the conversation
      have hnofold : ∀ n ∈ db.notifications.rows, new.foldsInto n = false := fun n hn => Bool.eq_false_iff.2 fun hf => hfold ⟨n, hn, hf⟩
      rw [Prog.exec_bind_ok (foldNotification_none hnew hnofold), Prog.exec_pure]
      refine .unchanged hidx hnone (Bool.eq_false_iff.2 fun hr => ?_)
      rw [recordable, hopen, Bool.not_true, Bool.false_or, List.any_eq_true] at hr
      obtain ⟨r, hr, hfr⟩ := hr
      rw [hnofold r hr] at hfr
      cases hfr

/-- Who is told of a message is a matter of their own rows. -/
theorem notified_congr (h : ∀ n : Notification, n.userId = u → (n ∈ t'.rows ↔ n ∈ t.rows)) :
    Notified t' m u ↔ Notified t m u := by
  refine exists_congr fun n => ?_
  constructor
  · rintro ⟨hn, hu, hm⟩
    exact ⟨(h n hu).1 hn, hu, hm⟩
  · rintro ⟨hn, hu, hm⟩
    exact ⟨(h n hu).2 hn, hu, hm⟩

/-- So is whether a recording succeeds. -/
theorem recordable_congr (h : ∀ n : Notification, n.userId = new.userId → (n ∈ t'.rows ↔ n ∈ t.rows)) :
    recordable new t' = recordable new t := by
  have hany : ∀ p : Notification → Bool, (∀ n, p n = true → n.userId = new.userId) → t'.rows.any p = t.rows.any p := by
    intro p hp
    rw [Bool.eq_iff_iff, List.any_eq_true, List.any_eq_true]
    refine exists_congr fun n => ?_
    constructor
    · rintro ⟨hn, hpn⟩
      exact ⟨(h n (hp n hpn)).1 hn, hpn⟩
    · rintro ⟨hn, hpn⟩
      exact ⟨(h n (hp n hpn)).2 hn, hpn⟩
  unfold recordable
  rw [hany _ fun n hn => ?_, hany _ fun n hn => ?_]
  · exact (foldsInto_iff.1 (Bool.and_eq_true_iff.1 hn).1).1
  · simp only [sameOpenGroup, Bool.and_eq_true, decide_eq_true_eq] at hn
    exact hn.1.1.1.2.symm

/-- A batch about one message, which nobody in it has been told of yet. -/
structure Batch (m : MessageId) (news : List NewNotification) (db : NotificationDb) : Prop where
  indexed : Indexed db.notifications
  users : (news.map (·.userId)).Nodup
  about : ∀ new ∈ news, new.messageId = some m ∧ new.standsAlone = false ∧ new.actorId ≠ some new.userId
  posted : ∀ new ∈ news, new.referencesExist db.toDb = true
  untold : ∀ new ∈ news, ¬ Notified db.notifications m new.userId

theorem Batch.tail {news : List NewNotification} {db' : NotificationDb} (h : Batch m (new :: news) db) (hr : Recorder id new m db db') :
    Batch m news db' := by
  have hnd := List.nodup_cons.1 h.users
  have hne : ∀ new' ∈ news, new'.userId ≠ new.userId := fun new' hn he => hnd.1 (List.mem_map.2 ⟨new', hn, he⟩)
  refine ⟨hr.indexed, hnd.2, fun n hn => h.about n (List.mem_cons_of_mem _ hn), fun n hn => ?_, fun n hn => ?_⟩
  · rw [hr.elsewhere]
    exact h.posted n (List.mem_cons_of_mem _ hn)
  · rw [notified_congr fun r hu => hr.others r (hu ▸ hne n hn)]
    exact h.untold n (List.mem_cons_of_mem _ hn)

/-- After a batch, whoever can be is told of the message, and nobody else. -/
theorem notifyAll_notified (draws : Nat → NotificationId) (news : List NewNotification) (k : Nat) (db : NotificationDb)
    (h : Batch m news db) (hdraws : ∀ i j, i < j → j < k + news.length → draws i ≠ draws j)
    (hfresh : ∀ j, k ≤ j → j < k + news.length → db.notifications.contains (draws j) = false) :
    (notifyAll draws k news db).2.toDb = db.toDb ∧ ∀ u, Notified (notifyAll draws k news db).2.notifications m u ↔
      Notified db.notifications m u ∨ ∃ new ∈ news, new.userId = u ∧ recordable new db.notifications = true := by
  induction news generalizing k db with
  | nil => simp [notifyAll]
  | cons new news ih =>
    obtain ⟨hm, hs, hactor⟩ := h.about new List.mem_cons_self
    have hrec : Recorder (draws k) new m db ((notify (draws k) new).exec db).2 := by
      rw [notify, if_neg hactor]
      exact record_recorder h.indexed (hfresh k le_rfl (by simp)) (h.posted new List.mem_cons_self) hs hm
        (h.untold new List.mem_cons_self)
    have hlength : k + (new :: news).length = k + 1 + news.length := by
      rw [List.length_cons]
      omega
    rw [hlength] at hdraws hfresh
    have hfresh' : ∀ j, k + 1 ≤ j → j < k + 1 + news.length →
        ((notify (draws k) new).exec db).2.notifications.contains (draws j) = false := fun j hj hlt =>
      hrec.fresh (draws j) (Ne.symm (hdraws k j hj hlt)) (hfresh j (by omega) hlt)
    obtain ⟨hdb, hiff⟩ := ih (k + 1) _ (h.tail hrec) hdraws hfresh'
    have hstep : (notifyAll draws k (new :: news) db).2 = (notifyAll draws (k + 1) news ((notify (draws k) new).exec db).2).2 := by
      rw [notifyAll]
      rcases (notify (draws k) new).exec db with ⟨_ | _ | _ | _, db'⟩ <;> rfl
    have hne : ∀ new' ∈ news, new'.userId ≠ new.userId := fun new' hn he =>
      (List.nodup_cons.1 h.users).1 (List.mem_map.2 ⟨new', hn, he⟩)
    have hrest : ∀ new' ∈ news, recordable new' ((notify (draws k) new).exec db).2.notifications = recordable new' db.notifications :=
      fun new' hn => recordable_congr fun r hu => hrec.others r (hu ▸ hne new' hn)
    rw [hstep]
    refine ⟨hdb.trans hrec.elsewhere, fun u => (hiff u).trans ?_⟩
    have htail : (∃ new' ∈ news, new'.userId = u ∧ recordable new' ((notify (draws k) new).exec db).2.notifications = true) ↔
        ∃ new' ∈ news, new'.userId = u ∧ recordable new' db.notifications = true := by
      refine exists_congr fun new' => and_congr_right fun hn => ?_
      rw [hrest new' hn]
    rw [htail, List.exists_mem_cons_iff]
    by_cases hu : new.userId = u
    · subst hu
      have hnot := h.untold new List.mem_cons_self
      rw [hrec.notified]
      simp [hnot]
    · rw [notified_congr fun r hr => hrec.others r (by rw [hr]; exact Ne.symm hu)]
      simp [hu]

end Told

/-! ## Who is told of a message, and whether they may be -/

section Dispatch

variable {env : Surroundings} {room : Domain.Room} {message : Message} {actor : Option UserId} {db : NotificationDb} {u : UserId}

/-- A message that has been posted in a room, and that nobody has been told of. -/
structure Posted (room : Domain.Room) (message : Message) (db : NotificationDb) : Prop where
  indexed : Indexed db.notifications
  inRoom : message.roomId = room.id ∧ db.roomExists room.id = true
  stored : db.messages.contains message.id = true
  author : db.userExists message.authorId = true
  participants : ∀ u, db.participates room.id u = true → db.userExists u = true
  untold : ∀ u, ¬ Notified db.notifications message.id u

/-- The first `n` identifiers drawn are new. -/
structure FreshDraws (draws : Nat → NotificationId) (n : Nat) (db : NotificationDb) : Prop where
  distinct : ∀ i j, i < j → j < n → draws i ≠ draws j
  fresh : ∀ k, k < n → db.notifications.contains (draws k) = false

/-- Is this user reading the room, as far as can be told? -/
def isReading (env : Surroundings) (room : Domain.Room) (u : UserId) : Bool :=
  !env.fails .attention && (env.attention.watching room.id [u] env.clock).contains u

/-- Did this user mute the room, as far as can be told? -/
def hasMuted (env : Surroundings) (u : UserId) : Bool := !env.fails .readState && env.muted u

/-- Can the user see the room? -/
def sees (db : Db) (roomId : RoomId) (u : UserId) : Bool := (visibleAccess db roomId u).isOk

/-- Somebody who may be told of what an author posts in a room: they can see it, and no block stands between them. -/
def MayBeTold (db : Db) (message : Message) (u : UserId) : Prop :=
  sees db message.roomId u = true ∧ blockedEitherWay db message.authorId u = false

/-- The text names, and addresses, nobody whom it may not reach: every account it names, and every participant where it
is to everybody, can see the room and is in no block with the author, or is reading the room, or has muted it and is
not named, or cannot be told for the state of their own rows. -/
structure ReachesOnlyThose (env : Surroundings) (db : NotificationDb) (room : Domain.Room) (message : Message)
    (actor : Option UserId) : Prop where
  named : ∀ u, Named env db.toDb message u → isReading env room u = false →
    recordable (newFor room message actor u .mention) db.notifications = true → MayBeTold db.toDb message u
  addressed : ∀ u, Addressed env db.toDb room message u → ¬ Named env db.toDb message u → isReading env room u = false →
    hasMuted env u = false → recordable (newFor room message actor u (addressedKind room)) db.notifications = true →
      MayBeTold db.toDb message u

instance (t : Table Notification) (m : MessageId) (u : UserId) : Decidable (Notified t m u) :=
  inferInstanceAs (Decidable (∃ n ∈ t.rows, n.userId = u ∧ n.messageId = some m))

instance (db : Db) (message : Message) (u : UserId) : Decidable (MayBeTold db message u) := inferInstanceAs (Decidable (_ ∧ _))

theorem mem_watching {roomId : RoomId} {ids : List UserId} {clock : Nat} {inner : Attention} :
    u ∈ inner.watching roomId ids clock ↔ u ∈ ids ∧ u ∈ inner.watching roomId [u] clock := by
  unfold Attention.watching
  rcases inner.byRoom.get roomId with _ | watchers
  · simp
  · simp

theorem contains_reading {ids : List UserId} (h : u ∈ ids) :
    (if env.fails .attention then [] else env.attention.watching room.id ids env.clock).contains u = isReading env room u := by
  unfold isReading
  rcases env.fails .attention
  · rw [Bool.eq_iff_iff]
    simp only [Bool.false_eq_true, if_false, Bool.not_false, Bool.true_and, List.contains_iff_mem]
    rw [mem_watching]
    exact and_iff_right h
  · rfl

theorem contains_muted {ids : List UserId} (h : u ∈ ids) :
    (if env.fails .readState then [] else ids.filter env.muted).contains u = hasMuted env u := by
  unfold hasMuted
  rcases env.fails .readState
  · rw [Bool.eq_iff_iff]
    simp only [Bool.false_eq_true, if_false, Bool.not_false, Bool.true_and, List.contains_iff_mem]
    rw [List.mem_filter]
    exact and_iff_right h
  · rfl

theorem mem_planned {new : NewNotification} : new ∈ planned env db.toDb room message actor ↔
    ∃ u kind, (intendedFor env db.toDb room message).get u = some kind ∧ isReading env room u = false ∧
      (kind = .mention ∨ hasMuted env u = false) ∧ new = newFor room message actor u kind := by
  simp only [planned, List.mem_map, List.mem_filter]
  constructor
  · rintro ⟨e, ⟨he, hkeep⟩, rfl⟩
    have hkey : e.key ∈ (intendedFor env db.toDb room message).rows.map (·.key) := List.mem_map_of_mem he
    rw [contains_reading hkey, contains_muted hkey] at hkeep
    obtain ⟨hr, hk⟩ := Bool.and_eq_true_iff.1 hkeep
    exact ⟨e.key, e.val, Map.mem_rows.1 he, by simpa using hr, by simpa using hk, rfl⟩
  · rintro ⟨u, kind, hget, hr, hk, rfl⟩
    have he : (⟨u, kind⟩ : Entry UserId NotificationKind) ∈ (intendedFor env db.toDb room message).rows := Map.mem_rows.2 hget
    have hkey : u ∈ (intendedFor env db.toDb room message).rows.map (·.key) := List.mem_map_of_mem he
    refine ⟨⟨u, kind⟩, ⟨he, ?_⟩, rfl⟩
    rw [contains_reading hkey, contains_muted hkey]
    simpa [hr] using hk

theorem nodup_planned : ((planned env db.toDb room message actor).map (·.userId)).Nodup := by
  unfold planned
  rw [List.map_map]
  exact (intendedFor env db.toDb room message).nodup.sublist (List.filter_sublist.map _)

/-- Whom the plan names is somebody else than the author, and has an account. -/
theorem intended_other {kind : NotificationKind} (hp : Posted room message db)
    (h : (intendedFor env db.toDb room message).get u = some kind) :
    u ≠ message.authorId ∧ db.userExists u = true ∧ kind.folds = true := by
  rw [get_intendedFor] at h
  split at h
  · rename_i hn
    obtain ⟨-, hne, account, hrow, rfl, -⟩ := hn
    cases h
    exact ⟨hne, Table.contains_iff.2 ⟨account, Table.mem_iff_find.1 hrow⟩, rfl⟩
  · split at h
    · rename_i ha
      obtain ⟨-, hmem, -⟩ := ha
      obtain ⟨hin, hne⟩ := List.mem_filter.1 hmem
      cases h
      refine ⟨by simpa using hne, hp.participants u (Db.mem_participants.1 hin), ?_⟩
      unfold addressedKind
      split <;> rfl
    · cases h

theorem planned_batch (hp : Posted room message db) (hactor : actor = none ∨ actor = some message.authorId) :
    Batch message.id (planned env db.toDb room message actor) db := by
  refine ⟨hp.indexed, nodup_planned, fun new hn => ?_, fun new hn => ?_, fun new _ => hp.untold _⟩
  · obtain ⟨u, kind, hget, -, -, rfl⟩ := mem_planned.1 hn
    obtain ⟨hne, -, hfolds⟩ := intended_other hp hget
    refine ⟨rfl, by simp [newFor, NewNotification.standsAlone, hfolds], ?_⟩
    rcases hactor with rfl | rfl
    · exact nofun
    · exact fun he => hne (Option.some.inj he).symm
  · obtain ⟨u, kind, hget, -, -, rfl⟩ := mem_planned.1 hn
    obtain ⟨-, huser, -⟩ := intended_other hp hget
    have hactor' : actor.all db.userExists = true := by
      rcases hactor with rfl | rfl
      · rfl
      · exact hp.author
    simp [NewNotification.referencesExist, newFor, huser, hactor', hp.inRoom.2, hp.stored]

/-- Exactly those the plan names, and whose recording succeeds, have a row about the message in the end. -/
theorem notified_iff (hp : Posted room message db) (hactor : actor = none ∨ actor = some message.authorId)
    {draws : Nat → NotificationId} (hdraws : FreshDraws draws (planned env db.toDb room message actor).length db) :
    (notifyForMessage env draws room message actor db).2.toDb = db.toDb ∧
      ∀ u, Notified (notifyForMessage env draws room message actor db).2.notifications message.id u ↔
        ∃ kind, (intendedFor env db.toDb room message).get u = some kind ∧ isReading env room u = false ∧
          (kind = .mention ∨ hasMuted env u = false) ∧ recordable (newFor room message actor u kind) db.notifications = true := by
  have hbatch : Batch message.id (planned env db.toDb room message actor) db := planned_batch hp hactor
  obtain ⟨hdb, hiff⟩ := notifyAll_notified draws _ 0 db hbatch
    (fun i j hij hj => hdraws.distinct i j hij (by omega)) fun k _ hk => hdraws.fresh k (by omega)
  refine ⟨hdb, fun u => (hiff u).trans ?_⟩
  rw [or_iff_right (hp.untold u)]
  constructor
  · rintro ⟨new, hn, rfl, hr⟩
    obtain ⟨u, kind, hget, hread, hk, rfl⟩ := mem_planned.1 hn
    exact ⟨kind, hget, hread, hk, hr⟩
  · rintro ⟨kind, hget, hread, hk, hr⟩
    exact ⟨_, mem_planned.2 ⟨u, kind, hget, hread, hk, rfl⟩, rfl, hr⟩

/-- A message that has just been posted is one that nobody has been told of. -/
theorem posted_of_post {id : MessageId} {roomId : RoomId} {author : UserId} {content : String} {isAnonymous : Bool}
    {verdict : Option FloodVerdict} {replyTo : Option MessageId} {after : Db}
    (hpost : (post id roomId author content isAnonymous verdict replyTo).exec db.toDb = (.ok message, after))
    (hidx : Indexed db.notifications) (hroom : room.id = roomId)
    (hmessages : ∀ n ∈ db.notifications.rows, n.messageId.all db.messages.contains = true)
    (hparticipants : ∀ u, db.participates roomId u = true → db.userExists u = true) :
    Posted room message { db with toDb := after } ∧ message.authorId = author := by
  unfold post insertMessage at hpost
  rw [Prog.exec_query_bind] at hpost
  rcases hc : checkPost db.toDb roomId author content verdict replyTo with e | text
  · rw [hc] at hpost
    cases hpost
  rw [hc] at hpost
  simp only [Prog.exec_read_bind, SqlM.exec_check_bind] at hpost
  split at hpost
  · rename_i hfree
    split at hpost
    · rename_i href
      simp only [Prog.exec_modify_bind, Prog.exec_pure, Prod.mk.injEq, Except.ok.injEq] at hpost
      obtain ⟨rfl, rfl⟩ := hpost
      simp only [Bool.and_eq_true] at href
      refine ⟨⟨hidx, ⟨hroom.symm, hroom ▸ href.1.1⟩, ?_, href.1.2, hroom ▸ hparticipants, ?_⟩, rfl⟩
      · exact (Table.contains_insert _ _ _).trans (by simp [key])
      · rintro u ⟨n, hn, -, hm⟩
        have hstored := hmessages n hn
        rw [hm] at hstored
        rw [show db.messages.contains id = true from hstored] at hfree
        cases hfree
    · cases hpost
  · cases hpost

def channelRow : RoomRow where
  id := ⟨5⟩
  communityId := some ⟨7⟩
  ownerId := some ⟨2⟩
  name := "plans"
  topic := none
  category := "random"
  roomType := .text
  visibility := .public
  status := .active
  isAnonymous := false
  position := 0
  maxParticipants := none
  currentParticipants := 0
  startedAt := none
  expiresAt := none
  endedAt := none
  createdAt := 0
  updatedAt := 0
  emptiedAt := none

/-- A community of `ben`, with one channel, of which `eve` is no member. -/
def channel : NotificationDb :=
  { Db.empty 0 with
    users := (Table.empty.insert { id := ⟨2⟩, handle := "ben", email := "ben@example.com", isActive := true }).insert
      { id := ⟨3⟩, handle := "eve", email := "eve@example.com", isActive := true }
    communities := Table.empty.insert { id := ⟨7⟩, ownerId := ⟨2⟩ }
    rooms := Table.empty.insert channelRow
    notifications := .empty }

/-- Nobody reads anything, nobody muted anything, and every lookup succeeds. -/
def quiet : Surroundings where
  attention := .empty
  clock := 0
  muted _ := false
  fails _ := false

/-- What `ben` posts in the channel. -/
def channelMessage (content : String) : Message where
  id := ⟨1⟩
  roomId := ⟨5⟩
  authorId := ⟨2⟩
  content := content
  replyToId := none
  isAnonymous := false
  editedAt := none
  createdAt := 0

def channelRoom : Domain.Room := channelRow.toRoom

/-- The database once it is posted. -/
def channelAfter (content : String) : NotificationDb :=
  { channel with messages := channel.messages.insert (channelMessage content) }

def channelDraw (k : Nat) : NotificationId := ⟨BitVec.ofNat 128 k⟩

theorem post_channel : (post ⟨1⟩ ⟨5⟩ ⟨2⟩ "@eve hi" false none none).exec channel.toDb =
    (.ok (channelMessage "@eve hi"), (channelAfter "@eve hi").toDb) := by
  have hcheck : checkPost channel.toDb ⟨5⟩ ⟨2⟩ "@eve hi" none none = .ok "@eve hi" := by decide +kernel
  unfold post
  rw [Prog.exec_query_bind, hcheck]
  rfl

theorem channel_posted (content : String) : Posted channelRoom (channelMessage content) (channelAfter content) where
  indexed := Indexed.empty
  inRoom := ⟨rfl, rfl⟩
  stored := rfl
  author := rfl
  participants := nofun
  untold := fun _ ⟨_, hn, _⟩ => nomatch hn

end Dispatch

end Genzh.Notification
