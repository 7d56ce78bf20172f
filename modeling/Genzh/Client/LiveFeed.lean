/-
The notification feed of somebody who is looking: what is recorded is stored first and then pushed, and the client lifts what
arrives to the top of the pages it has loaded. With nothing under way the feed is what a reload would show, down to where it
was loaded, and its badge is the server's count; with pushes under way it is once they have arrived.
-/
import Genzh.Client.Inbox
import Genzh.Notification.Dispatch
import Genzh.Notification.Listing

namespace Genzh.Client.LiveFeed

open Genzh.Lib Genzh.Domain Genzh.Infrastructure Genzh.Notification
open Genzh.Client.Inbox (Feed FeedEdit editFeed applyNotificationCreated Target)

/-! ## The server -/

/-- How many are unread. This is the badge. -/
def unreadCount (db : NotificationDb) (userId : UserId) : Nat := db.notifications.count fun n => n.userId = userId && n.readAt.isNone

/-- A page of notifications plus the unread badge. -/
def respond (order : RowOrder) (userId : UserId) (before : Option Timestamp) (limit : Option Int) :
    NotificationM Inbox.NotificationPage := do
  let page ← listPage order userId before limit
  let unread ← Prog.read fun db => unreadCount db userId
  pure { notifications := page.notifications, nextBefore := page.nextBefore, unread }

/-- What is pushed to somebody when a notification is recorded: the row, if it is theirs and was written. -/
def pushed (userId : UserId) : Except RepositoryError Recorded → List (Notification × Bool)
  | .ok outcome => ((outcome.notification.filter fun n => n.userId = userId).map fun n => (n, outcome.isNew)).toList
  | .error _ => []

/-- What a request to mark asks of the server. -/
def marking (userId : UserId) : Target → NotificationDb → NotificationDb
  | .one id, db => ((markRead userId id).exec db).2
  | .all, db => ((markAllRead userId).exec db).2

/-! ## The feed, kept live -/

/-- The server, what is on its way to the client, oldest first, and the feed in the client's cache. -/
structure Live where
  server : NotificationDb
  inFlight : List (Notification × Bool)
  feed : Feed

/-- What happens: the clock goes on, somebody is notified of something, a push arrives, the reader marks what they see, or
loads the next page. -/
inductive Happening where
  | tick (now : Timestamp)
  | notify (id : NotificationId) (new : NewNotification)
  | arrive
  | mark (target : Target) (now : Timestamp)
  | more

/-- The cursor of the last page. -/
def cursor (feed : Feed) : Option Timestamp := feed.pages.getLast?.bind (·.nextBefore)

/-- A push, taken into the cached feed. -/
def arrived (feed : Feed) (push : Notification × Bool) : Feed :=
  (applyNotificationCreated push.1 push.2 (some feed)).getD feed

/-- What a request to mark writes into the cached feed. -/
def marked (target : Target) (now : Timestamp) (feed : Feed) : Feed :=
  (editFeed (target.edit now (some feed)) (some feed)).getD feed

/-- `fetchNextPage`. -/
def loadMore (order : RowOrder) (userId : UserId) (limit : Option Int) (db : NotificationDb) (feed : Feed) : Feed :=
  match cursor feed with
  | none => feed
  | some before =>
    match ((respond order userId (some before) limit).exec db).1 with
    | .ok page => ⟨feed.pages ++ [page]⟩
    | .error _ => feed

variable (order : RowOrder) (userId : UserId) (limit : Option Int)

def Live.step (s : Live) : Happening → Live
  | .tick now => { s with server := { s.server with now } }
  | .notify id new =>
    let (outcome, server) := (Notification.notify id new).exec s.server
    { s with server, inFlight := s.inFlight ++ pushed userId outcome }
  | .arrive =>
    match s.inFlight with
    | [] => s
    | push :: rest => { s with inFlight := rest, feed := arrived s.feed push }
  | .mark target now => { s with server := marking userId target s.server, feed := marked target now s.feed }
  | .more => { s with feed := loadMore order userId limit s.server s.feed }

/-- The first page has loaded, and nothing is on its way. -/
def Live.start (db : NotificationDb) : Live where
  server := db
  inFlight := []
  feed := ⟨((respond order userId none limit).exec db).1.toOption.toList⟩

/-- The feed once everything on its way has arrived. -/
def Live.settled (s : Live) : Feed := s.inFlight.foldl arrived s.feed

/-- A row apart from the moment it was read: the reader's clock puts it there before the server's does. -/
def unstamped (n : Notification) : Notification := { n with readAt := n.readAt.map fun _ => 0 }

/-- The feed is what the server would list, down to the cursor, and the badge what it would count. -/
structure Shows (db : NotificationDb) (feed : Feed) : Prop where
  items : feed.items.map unstamped = ((order.sort none (db.notifications.select (listed userId none))).filter
    (Crowded.reached (·.updatedAt) (cursor feed))).map unstamped
  unread : feed.unread = unreadCount db userId

/-- No two of the user's notifications changed at one instant. -/
def Apart (db : NotificationDb) : Prop := ∀ n ∈ db.notifications.rows, ∀ m ∈ db.notifications.rows,
  n.userId = userId → m.userId = userId → n.updatedAt = m.updatedAt → n = m

/-- The clock has gone on since a row of this user's last changed whenever another is written, and the reader marks what
they are shown, with nothing on its way. -/
def Timely (s : Live) : Happening → Prop
  | .notify _ _ => ∀ n ∈ s.server.notifications.rows, n.userId = userId → n.updatedAt < s.server.now
  | .mark target _ => s.inFlight = [] ∧ ∀ id, target = .one id → ∃ n ∈ s.feed.items, n.id = id
  | _ => True

/-! ## The pages as one list -/

section Pages

variable {feed : Feed} {target : Target} {now : Timestamp}

theorem page_succ (edit : FeedEdit) (index : Nat) : edit.page (index + 1) = edit.page 1 := by
  funext page
  unfold FeedEdit.page
  simp

/-- An edit treats the first page in one way and the others in another. -/
theorem pages_edited {p : Inbox.NotificationPage} {ps : List Inbox.NotificationPage} (edit : FeedEdit) :
    (editFeed edit (some ⟨p :: ps⟩)).getD ⟨p :: ps⟩ = ⟨edit.page 0 p :: ps.map (edit.page 1)⟩ := by
  unfold editFeed
  rw [Option.map_some, Option.getD_some, if_neg (List.cons_ne_nil p ps), List.mapIdx_cons]
  congr 2
  refine List.ext_getElem (by simp) fun n h h' => ?_
  simp [page_succ]

theorem exists_pages (h : feed.pages ≠ []) : ∃ p ps, feed = ⟨p :: ps⟩ := by
  obtain ⟨p, ps, hpages⟩ := List.exists_cons_of_ne_nil h
  cases feed
  exact ⟨p, ps, by simpa using hpages⟩

/-- An edit leaves every page its cursor. -/
theorem cursor_edited {p : Inbox.NotificationPage} {ps : List Inbox.NotificationPage} (edit : FeedEdit) :
    cursor ⟨edit.page 0 p :: ps.map (edit.page 1)⟩ = cursor ⟨p :: ps⟩ := by
  unfold cursor
  rw [List.getLast?_cons, List.getLast?_cons, List.getLast?_map]
  rcases ps.getLast? with _ | last <;> rfl

theorem arrived_eq (h : feed.pages ≠ []) (push : Notification × Bool) : (arrived feed push).pages ≠ [] ∧
    cursor (arrived feed push) = cursor feed ∧
    (arrived feed push).items = Crowded.lift (·.id) push.1 feed.items ∧
    (arrived feed push).unread =
      if push.2 && !(feed.items.any fun item => item.id = push.1.id) && push.1.readAt.isNone then feed.unread + 1 else feed.unread := by
  obtain ⟨p, ps, rfl⟩ := exists_pages h
  unfold arrived applyNotificationCreated
  rw [pages_edited]
  refine ⟨List.cons_ne_nil _ _, cursor_edited _, ?_, rfl⟩
  simp [Feed.items, Crowded.lift, FeedEdit.page, List.flatMap_cons, List.flatMap_map, List.filter_flatMap]

/-- Is the row among what a mark is for? -/
def hits (target : Target) (n : Notification) : Bool := target = .all || target = .one n.id

/-- What a mark does to an item. -/
def patched (target : Target) (now : Timestamp) (item : Notification) : Notification :=
  if hits target item && item.readAt.isNone then { item with readAt := some now } else item

theorem hits_one {id : NotificationId} {n : Notification} : hits (.one id) n = decide (n.id = id) := by
  unfold hits
  rw [Bool.eq_iff_iff]
  simp [eq_comm]

theorem marked_eq (target : Target) (now : Timestamp) (h : feed.pages ≠ []) : (marked target now feed).pages ≠ [] ∧
    cursor (marked target now feed) = cursor feed ∧
    (marked target now feed).items = feed.items.map (patched target now) ∧
    (marked target now feed).unread = (target.edit now (some feed)).unread feed.unread := by
  obtain ⟨p, ps, rfl⟩ := exists_pages h
  unfold marked
  rw [pages_edited]
  refine ⟨List.cons_ne_nil _ _, cursor_edited _, ?_, rfl⟩
  have hpatch : ∀ index page, ((target.edit now (some ⟨p :: ps⟩)).page index page).notifications =
      page.notifications.map (patched target now) := by
    intro index page
    cases target with
    | one id =>
      refine List.map_congr_left fun item _ => ?_
      unfold patched
      rw [hits_one]
    | all =>
      refine List.map_congr_left fun item _ => ?_
      unfold patched
      rcases item.readAt <;> rfl
  simp [Feed.items, List.flatMap_cons, List.flatMap_map, List.map_flatMap, hpatch]

theorem loadMore_eq (order : RowOrder) (userId : UserId) (limit : Option Int) (db : NotificationDb) {before : Timestamp}
    (hcursor : cursor feed = some before) : ∃ page,
      ((respond order userId (some before) limit).exec db).1 = .ok page ∧ loadMore order userId limit db feed = ⟨feed.pages ++ [page]⟩ := by
  unfold loadMore
  rw [hcursor]
  exact ⟨_, rfl, rfl⟩

end Pages

/-! ## What a recording does -/

section Recording

variable {db : NotificationDb} {id : NotificationId} {new : NewNotification}

/-- What a notification does to the rows: nothing; a row is created, unread, or an unread one is written anew. Either is
stamped with the time. -/
inductive Notes (db : NotificationDb) : Except RepositoryError Recorded × NotificationDb → Prop where
  | nothing {outcome : Except RepositoryError Recorded} (h : outcome.toOption.bind Recorded.notification = none) :
      Notes db (outcome, db)
  | created (n : Notification) (hfree : db.notifications.contains n.id = false) (hunread : n.readAt = none)
      (hnow : n.updatedAt = db.now) (hindexed : Indexed (db.notifications.insert n)) :
      Notes db (.ok (.created n), { db with notifications := db.notifications.insert n })
  | folded (n : Notification) (hn : n ∈ db.notifications.rows) (hunread : n.readAt = none) (new : NewNotification)
      (hindexed : Indexed (db.notifications.update n.id (foldRow new db.now) fun _ => rfl)) :
      Notes db (.ok (.folded (foldRow new db.now n)),
        { db with notifications := db.notifications.update n.id (foldRow new db.now) fun _ => rfl })

theorem notes_foldNotification (hidx : Indexed db.notifications) (new : NewNotification) :
    (∃ e, (foldNotification new).exec db = (.error e, db)) ∨ (foldNotification new).exec db = (.ok none, db) ∨
      ∃ n ∈ db.notifications.rows, n.readAt = none ∧
        Indexed (db.notifications.update n.id (foldRow new db.now) fun _ => rfl) ∧
        (foldNotification new).exec db = (.ok (some (foldRow new db.now n)),
          { db with notifications := db.notifications.update n.id (foldRow new db.now) fun _ => rfl }) := by
  rcases halready : new.already db.notifications
  · by_cases hopen : ∃ n ∈ db.notifications.rows, new.foldsInto n = true
    · obtain ⟨n, hn, hf⟩ := hopen
      rw [foldNotification_some hidx halready hn hf]
      split
      · exact .inl ⟨_, rfl⟩
      · exact .inr (.inr ⟨n, hn, (foldsInto_iff.1 hf).2.2.2.2.2, hidx.fold halready hn hf db.now, rfl⟩)
    · push Not at hopen
      exact .inr (.inl (foldNotification_none halready fun n hn => by simpa using hopen n hn))
  · refine .inr (.inl ?_)
    have hsame : (db.notifications.updateWhere (fun n => ([] : List Notification).contains n) (foldRow new db.now) fun _ => rfl) =
        db.notifications := by
      apply Table.ext
      refine (List.map_congr_left fun n _ => ?_).trans (List.map_id _)
      simp
    simp only [foldNotification, Prog.exec, halready, if_true, List.any_nil, Bool.false_eq_true, if_false, hsame]
    rfl

theorem notes_notify (hidx : Indexed db.notifications) (id : NotificationId) (new : NewNotification) :
    Notes db ((Notification.notify id new).exec db) := by
  unfold Notification.notify
  split
  · exact .nothing rfl
  unfold record
  rw [Prog.exec_bind]
  rcases hconf : conflicts db.notifications (new.row id db.now)
  · rcases href : new.referencesExist db.toDb
    · have herror : (insertNotification id new).exec db = (.error .foreignKey, db) := by
        simp [insertNotification, Prog.exec, hconf, href]
      rw [herror]
      exact .nothing rfl
    · rw [insertNotification_created hconf href]
      exact .created _ (contains_of_not_conflicts hconf) rfl rfl (hidx.insert hconf)
  · rw [insertNotification_conflict hconf]
    dsimp only
    split
    · exact .nothing rfl
    rw [Prog.exec_bind]
    rcases notes_foldNotification hidx new with ⟨e, h⟩ | h | ⟨n, hn, hunread, hindexed, h⟩ <;> rw [h]
    · exact .nothing rfl
    · exact .nothing rfl
    · exact .folded n hn hunread new hindexed

theorem Notes.indexed {r : Except RepositoryError Recorded × NotificationDb} (h : Notes db r) (hidx : Indexed db.notifications) :
    Indexed r.2.notifications := by
  cases h with
  | nothing _ => exact hidx
  | created _ _ _ _ hindexed => exact hindexed
  | folded _ _ _ _ hindexed => exact hindexed

end Recording

/-! ## In step -/

/-- What this user is listed, apart from when it was read. -/
def content (db : NotificationDb) (userId : UserId) : List Notification :=
  (db.notifications.select (listed userId none)).map unstamped

/-- The feed is in step with the server. -/
structure Faithful (userId : UserId) (db : NotificationDb) (feed : Feed) : Prop where
  pages : feed.pages ≠ []
  indexed : Indexed db.notifications
  apart : Apart userId db
  mirrors : Crowded.Mirrors (·.updatedAt) (content db userId) (cursor feed) (feed.items.map unstamped)
  /-- The cursor is no later than some change. -/
  floor : ∀ t, cursor feed = some t → ∃ n ∈ db.notifications.rows, n.userId = userId ∧ t ≤ n.updatedAt
  unread : feed.unread = unreadCount db userId

section Faithful

variable {userId : UserId} {db : NotificationDb} {feed : Feed} {order : RowOrder} {limit : Option Int}

theorem mem_content {x : Notification} : x ∈ content db userId ↔
    ∃ n ∈ db.notifications.rows, n.userId = userId ∧ unstamped n = x := by
  simp [content, Table.mem_select, listed, and_assoc]

theorem unstamped_of_unread {n : Notification} (h : n.readAt = none) : unstamped n = n := by
  cases n
  simp_all [unstamped]

theorem id_of_unstamped {n m : Notification} (h : unstamped n = unstamped m) : n.id = m.id := by
  have hid : (unstamped n).id = (unstamped m).id := by rw [h]
  exact hid

theorem eq_of_id {n m : Notification} (hn : n ∈ db.notifications.rows) (hm : m ∈ db.notifications.rows) (hid : m.id = n.id) :
    m = n :=
  List.inj_on_of_nodup_map db.notifications.nodup hm hn hid

theorem apart_rows (h : Faithful userId db feed) : ∀ n ∈ db.notifications.select (listed userId none),
    ∀ m ∈ db.notifications.select (listed userId none), n.updatedAt = m.updatedAt → n = m := by
  intro n hn m hm heq
  obtain ⟨hn, hnu⟩ := Table.mem_select.1 hn
  obtain ⟨hm, hmu⟩ := Table.mem_select.1 hm
  exact h.apart n hn m hm (by simpa [listed] using hnu) (by simpa [listed] using hmu) heq

theorem nodup_listed : (db.notifications.select (listed userId none)).Nodup := (db.notifications.nodup.of_map _).filter _

/-- A held item is a row of the user's, up to when it was read. -/
theorem Faithful.row (h : Faithful userId db feed) {item : Notification} (hitem : item ∈ feed.items) :
    ∃ m ∈ db.notifications.rows, m.userId = userId ∧ unstamped m = unstamped item :=
  mem_content.1 ((h.mirrors.mem (unstamped item)).1 (List.mem_map_of_mem hitem)).1

/-- In step, the feed is what a reload would list. -/
theorem Faithful.shows (h : Faithful userId db feed) (order : RowOrder) : Shows order userId db feed := by
  refine ⟨h.mirrors.eq ⟨fun x => ?_, ?_⟩, h.unread⟩
  · simp only [List.mem_map, List.mem_filter, (order.perm none _).mem_iff, Table.mem_select, mem_content]
    constructor
    · rintro ⟨n, ⟨⟨hn, hu⟩, hr⟩, rfl⟩
      exact ⟨⟨n, hn, by simpa [listed] using hu, rfl⟩, hr⟩
    · rintro ⟨⟨n, hn, hu, rfl⟩, hr⟩
      exact ⟨n, ⟨⟨hn, by simpa [listed] using hu⟩, hr⟩, rfl⟩
  · rw [List.pairwise_map]
    exact ((fetched order db userId).strict nodup_listed (apart_rows h) none).sublist List.filter_sublist

/-- A row put on top, newer than all there were. -/
theorem Faithful.put {db' : NotificationDb} {n : Notification} {isNew : Bool} (h : Faithful userId db feed)
    (hidx : Indexed db'.notifications) (hmine : n.userId = userId) (hunread : n.readAt = none)
    (hnewest : ∀ m ∈ db.notifications.rows, m.userId = userId → m.updatedAt < n.updatedAt)
    (hrows : ∀ m, m ∈ db'.notifications.rows ↔ m = n ∨ m ∈ db.notifications.rows ∧ m.id ≠ n.id)
    (hnew : isNew = true ↔ db.notifications.contains n.id = false)
    (hcount : unreadCount db' userId = if isNew then unreadCount db userId + 1 else unreadCount db userId) :
    Faithful userId db' (arrived feed (n, isNew)) := by
  obtain ⟨hpages, hcursor, hitems, hcounted⟩ := arrived_eq h.pages (n, isNew)
  have hcontent : ∀ x ∈ content db userId, x.updatedAt < n.updatedAt := by
    intro x hx
    obtain ⟨m, hm, hu, rfl⟩ := mem_content.1 hx
    exact hnewest m hm hu
  refine ⟨hpages, hidx, ?_, ?_, ?_, ?_⟩
  · intro a ha b hb hau hbu heq
    rcases (hrows a).1 ha with rfl | ⟨ha, -⟩
    · rcases (hrows b).1 hb with rfl | ⟨hb, -⟩
      · rfl
      · exact absurd heq (hnewest b hb hbu).ne'
    · rcases (hrows b).1 hb with rfl | ⟨hb, -⟩
      · exact absurd heq (hnewest a ha hau).ne
      · exact h.apart a ha b hb hau hbu heq
  · have hmap : (Crowded.lift (·.id) n feed.items).map unstamped = Crowded.lift (·.id) n (feed.items.map unstamped) := by
      unfold Crowded.lift
      rw [List.map_cons, unstamped_of_unread hunread, List.filter_map]
      rfl
    rw [hcursor, hitems, hmap]
    refine h.mirrors.lift hcontent ?_ fun x => ?_
    · rcases hc : cursor feed with _ | t
      · rfl
      · obtain ⟨m, hm, hu, hle⟩ := h.floor t hc
        simpa [Crowded.reached] using hle.trans (hnewest m hm hu).le
    · rw [mem_content, mem_content]
      constructor
      · rintro ⟨m, hm, hu, rfl⟩
        rcases (hrows m).1 hm with rfl | ⟨hm, hid⟩
        · exact .inl (unstamped_of_unread hunread)
        · exact .inr ⟨⟨m, hm, hu, rfl⟩, hid⟩
      · rintro (rfl | ⟨⟨m, hm, hu, rfl⟩, hid⟩)
        · exact ⟨x, (hrows x).2 (.inl rfl), hmine, unstamped_of_unread hunread⟩
        · exact ⟨m, (hrows m).2 (.inr ⟨hm, hid⟩), hu, rfl⟩
  · intro t ht
    rw [hcursor] at ht
    obtain ⟨m, hm, hu, hle⟩ := h.floor t ht
    exact ⟨n, (hrows n).2 (.inl rfl), hmine, hle.trans (hnewest m hm hu).le⟩
  · rw [hcounted, hcount, h.unread]
    cases isNew with
    | false => simp
    | true =>
      -- what the server has not seen before is not held either
      have hheld : (feed.items.any fun item => item.id = n.id) = false := by
        rw [List.any_eq_false]
        intro item hitem
        obtain ⟨m, hm, -, heq⟩ := h.row hitem
        simp only [decide_eq_true_eq]
        intro hsame
        have hcontains : db.notifications.contains n.id = true :=
          Table.contains_iff.2 ⟨m, Table.find_eq_some.2 ⟨hm, (id_of_unstamped heq).trans hsame⟩⟩
        exact Bool.false_ne_true ((hnew.1 rfl).symm.trans hcontains)
      simp [hheld, hunread]

/-- Rows of others are no part of the feed. -/
theorem Faithful.elsewhere {db' : NotificationDb} {n : Notification} (h : Faithful userId db feed)
    (hidx : Indexed db'.notifications) (hother : n.userId ≠ userId)
    (hrows : ∀ m, m ∈ db'.notifications.rows ↔ m = n ∨ m ∈ db.notifications.rows ∧ m.id ≠ n.id)
    (hwas : ∀ m ∈ db.notifications.rows, m.id = n.id → m.userId ≠ userId)
    (hcount : unreadCount db' userId = unreadCount db userId) : Faithful userId db' feed := by
  have hmine : ∀ m, m.userId = userId → (m ∈ db'.notifications.rows ↔ m ∈ db.notifications.rows) := by
    intro m hu
    rw [hrows]
    constructor
    · rintro (rfl | ⟨hm, -⟩)
      · exact absurd hu hother
      · exact hm
    · exact fun hm => .inr ⟨hm, fun hid => hwas m hm hid hu⟩
  refine ⟨h.pages, hidx, ?_, h.mirrors.congr fun x => ?_, ?_, h.unread.trans (congrArg _ hcount.symm)⟩
  · exact fun a ha b hb hau hbu => h.apart a ((hmine a hau).1 ha) b ((hmine b hbu).1 hb) hau hbu
  · rw [mem_content, mem_content]
    exact exists_congr fun m => ⟨fun ⟨hm, hu, hx⟩ => ⟨(hmine m hu).1 hm, hu, hx⟩, fun ⟨hm, hu, hx⟩ => ⟨(hmine m hu).2 hm, hu, hx⟩⟩
  · intro t ht
    obtain ⟨m, hm, hu, hle⟩ := h.floor t ht
    exact ⟨m, (hmine m hu).2 hm, hu, hle⟩

/-- After a notification the feed is in step once what was pushed has arrived. -/
theorem Faithful.notified {r : Except RepositoryError Recorded × NotificationDb} (h : Faithful userId db feed) (hr : Notes db r)
    (htimely : ∀ n ∈ db.notifications.rows, n.userId = userId → n.updatedAt < db.now) :
    Faithful userId r.2 ((pushed userId r.1).foldl arrived feed) := by
  have hidx := hr.indexed h.indexed
  cases hr with
  | @nothing outcome hnone =>
    have hpushed : pushed userId outcome = [] := by
      rcases outcome with e | outcome
      · rfl
      · have hnone : outcome.notification = none := hnone
        simp [pushed, hnone]
    rw [hpushed]
    exact h
  | created n hfree hunread hnow hindexed =>
    have hrows : ∀ m, m ∈ (db.notifications.insert n).rows ↔ m = n ∨ m ∈ db.notifications.rows ∧ m.id ≠ n.id := by
      intro m
      rw [Table.rows_insert hfree, List.mem_append, List.mem_singleton, or_comm]
      refine or_congr_right (and_iff_left_of_imp fun hm hid => ?_).symm
      have hcontains : db.notifications.contains n.id = true := Table.contains_iff.2 ⟨m, Table.find_eq_some.2 ⟨hm, hid⟩⟩
      exact Bool.false_ne_true (hfree.symm.trans hcontains)
    have hcount : unreadCount { db with notifications := db.notifications.insert n } userId =
        unreadCount db userId + if n.userId = userId then 1 else 0 := by
      unfold unreadCount
      rw [Table.count_insert]
      simp [show db.notifications.contains (key n) = false from hfree, hunread]
    by_cases hmine : n.userId = userId
    · have hpushed : pushed userId (.ok (.created n)) = [(n, true)] := by simp [pushed, Recorded.notification, hmine, Recorded.isNew]
      rw [hpushed]
      refine h.put hidx hmine hunread (fun m hm hu => hnow ▸ htimely m hm hu) hrows (iff_of_true rfl hfree) ?_
      rw [hcount, if_pos hmine]
      rfl
    · have hpushed : pushed userId (.ok (.created n)) = [] := by simp [pushed, Recorded.notification, hmine]
      rw [hpushed]
      refine h.elsewhere hidx hmine hrows (fun m hm hid => ?_) (by rw [hcount, if_neg hmine]; rfl)
      have hcontains : db.notifications.contains n.id = true := Table.contains_iff.2 ⟨m, Table.find_eq_some.2 ⟨hm, hid⟩⟩
      exact absurd (hfree.symm.trans hcontains) Bool.false_ne_true
  | folded n hn hunread new hindexed =>
    have hrows : ∀ m, m ∈ (db.notifications.update n.id (foldRow new db.now) fun _ => rfl).rows ↔
        m = foldRow new db.now n ∨ m ∈ db.notifications.rows ∧ m.id ≠ (foldRow new db.now n).id := by
      intro m
      refine (Table.mem_update db.notifications n.id (foldRow new db.now) fun _ => rfl).trans (or_congr_left ?_)
      constructor
      · rintro ⟨a, ha, hid, rfl⟩
        rw [eq_of_id hn ha hid]
      · rintro rfl
        exact ⟨n, hn, rfl, rfl⟩
    have hcount : unreadCount { db with notifications := db.notifications.update n.id (foldRow new db.now) fun _ => rfl } userId =
        unreadCount db userId :=
      Table.count_updateWhere db.notifications _ _ (foldRow new db.now) (fun _ => rfl) fun _ => rfl
    by_cases hmine : n.userId = userId
    · have hpushed : pushed userId (.ok (.folded (foldRow new db.now n))) = [(foldRow new db.now n, false)] := by
        simp [pushed, Recorded.notification, Recorded.isNew, foldRow, hmine]
      rw [hpushed]
      refine h.put hidx hmine hunread htimely hrows ?_ hcount
      refine iff_of_false Bool.false_ne_true fun hfree => ?_
      have hcontains : db.notifications.contains n.id = true := Table.contains_iff.2 ⟨n, Table.mem_iff_find.1 hn⟩
      exact Bool.false_ne_true (hfree.symm.trans hcontains)
    · have hpushed : pushed userId (.ok (.folded (foldRow new db.now n))) = [] := by
        simp [pushed, Recorded.notification, foldRow, hmine]
      rw [hpushed]
      exact h.elsewhere (n := foldRow new db.now n) hidx hmine hrows (fun m hm hid => eq_of_id hn hm hid ▸ hmine) hcount

/-- A request to mark, as a write to the rows of a kind. -/
theorem marking_eq (target : Target) : marking userId target db =
    markWhere (fun n => hits target n && n.userId = userId) db := by
  cases target with
  | one id =>
    have hsame : (fun n : Notification => hits (.one id) n && n.userId = userId) = fun n => n.id = id && n.userId = userId :=
      funext fun n => by rw [hits_one]
    rw [hsame]
    rfl
  | all => rfl

/-- The item, read. -/
def closed (target : Target) (x : Notification) : Notification :=
  if hits target x && x.readAt.isNone then { x with readAt := some 0 } else x

theorem unstamped_patched (target : Target) (now : Timestamp) (n : Notification) :
    unstamped (patched target now n) = closed target (unstamped n) := by
  have hhits : hits target (unstamped n) = hits target n := rfl
  unfold patched closed
  rw [hhits]
  rcases hn : n.readAt with _ | t
  · rcases hits target n <;> simp [unstamped, hn]
  · simp [unstamped, hn]

/-- The rows after a mark. -/
theorem mem_marked {target : Target} {m : Notification} : m ∈ (marking userId target db).notifications.rows ↔
    ∃ n ∈ db.notifications.rows, (if n.userId = userId then patched target db.now n else n) = m := by
  rw [marking_eq, mem_markWhere]
  refine exists_congr fun n => and_congr_right fun _ => ?_
  unfold patched
  by_cases hmine : n.userId = userId <;> simp [hmine, closeRow]

theorem patched_key (target : Target) (now : Timestamp) (n : Notification) :
    (patched target now n).id = n.id ∧ (patched target now n).userId = n.userId ∧ (patched target now n).updatedAt = n.updatedAt := by
  unfold patched
  split <;> exact ⟨rfl, rfl, rfl⟩


/-- How many notifications a mark takes from the unread ones. -/
def cleared (target : Target) (db : NotificationDb) (userId : UserId) : Nat :=
  db.notifications.count fun n => (n.userId = userId && n.readAt.isNone) && (hits target n && n.userId = userId && n.readAt.isNone)

theorem unread_marking (userId : UserId) (db : NotificationDb) (target : Target) :
    unreadCount (marking userId target db) userId + cleared target db userId = unreadCount db userId := by
  rw [marking_eq]
  exact Table.count_updateWhere_out db.notifications _ _ (closeRow db.now) (fun _ => rfl) fun n => by simp [closeRow]

/-- Marking one that is held takes it from the unread ones if it is unread where it is held. -/
theorem Faithful.cleared_one (h : Faithful userId db feed) {item : Notification} (hitem : item ∈ feed.items) :
    cleared (.one item.id) db userId = if feed.items.any fun i => i.id = item.id && i.readAt.isNone then 1 else 0 := by
  obtain ⟨m, hm, hmine, heq⟩ := h.row hitem
  have hid := id_of_unstamped heq
  -- whatever is held under this id is this row
  have hread : ∀ i ∈ feed.items, i.id = item.id → i.readAt.isNone = m.readAt.isNone := by
    intro i hi hsame
    obtain ⟨m', hm', -, heq'⟩ := h.row hi
    have hone : m' = m := eq_of_id hm hm' (((id_of_unstamped heq').trans hsame).trans hid.symm)
    have hstamp : (unstamped m).readAt = (unstamped i).readAt := by rw [← hone, heq']
    simpa [unstamped] using (congrArg Option.isNone hstamp).symm
  have hany : (feed.items.any fun i => i.id = item.id && i.readAt.isNone) = m.readAt.isNone := by
    rw [Bool.eq_iff_iff, List.any_eq_true]
    constructor
    · rintro ⟨i, hi, hboth⟩
      rw [Bool.and_eq_true, decide_eq_true_eq] at hboth
      exact (hread i hi hboth.1).symm.trans hboth.2
    · intro hunread
      exact ⟨item, hitem, by simpa using (hread item hitem rfl).trans hunread⟩
  rw [hany]
  unfold cleared
  rcases hunread : m.readAt.isNone
  · refine Table.count_eq_zero.2 fun n hn => ?_
    rw [hits_one]
    by_cases hsame : n.id = item.id
    · rw [eq_of_id hm hn (hsame.trans hid.symm), hunread]
      simp
    · simp [hsame]
  · have hselect : db.notifications.select (fun n => (n.userId = userId && n.readAt.isNone) &&
        (hits (.one item.id) n && n.userId = userId && n.readAt.isNone)) = [m] := by
      refine Table.select_eq_singleton hm fun n hn => ?_
      rw [hits_one]
      constructor
      · intro hall
        simp only [Bool.and_eq_true, decide_eq_true_eq] at hall
        exact eq_of_id hm hn (hall.2.1.1.trans hid.symm)
      · rintro rfl
        simp [hid, hmine, hunread]
    exact (List.countP_eq_length_filter ..).trans (congrArg List.length hselect)

/-- Marking what is held, or all, with nothing on its way. -/
theorem Faithful.marked (h : Faithful userId db feed) (target : Target) (now : Timestamp)
    (hheld : ∀ id, target = .one id → ∃ n ∈ feed.items, n.id = id) :
    Faithful userId (marking userId target db) (LiveFeed.marked target now feed) := by
  obtain ⟨hpages, hcursor, hitems, hcounted⟩ := marked_eq target now h.pages
  refine ⟨hpages, ?_, ?_, ?_, ?_, ?_⟩
  · rw [marking_eq]
    exact h.indexed.markWhere _
  · intro a ha b hb hau hbu heq
    obtain ⟨n, hn, rfl⟩ := mem_marked.1 ha
    obtain ⟨m, hm, rfl⟩ := mem_marked.1 hb
    have hkeys : ∀ n : Notification, (if n.userId = userId then patched target db.now n else n).userId = n.userId ∧
        (if n.userId = userId then patched target db.now n else n).updatedAt = n.updatedAt := by
      intro n
      split
      · exact (patched_key target db.now n).2
      · exact ⟨rfl, rfl⟩
    rw [(hkeys n).1] at hau
    rw [(hkeys m).1] at hbu
    rw [(hkeys n).2, (hkeys m).2] at heq
    rw [h.apart n hn m hm hau hbu heq]
  · have hmap : (feed.items.map (patched target now)).map unstamped = (feed.items.map unstamped).map (closed target) := by
      rw [List.map_map, List.map_map]
      exact List.map_congr_left fun n _ => unstamped_patched target now n
    rw [hcursor, hitems, hmap]
    refine (h.mirrors.map fun x => ?_).congr fun x => ?_
    · unfold closed
      split <;> rfl
    · rw [mem_content, List.mem_map]
      constructor
      · rintro ⟨m, hm, hu, rfl⟩
        obtain ⟨n, hn, rfl⟩ := mem_marked.1 hm
        by_cases hmine : n.userId = userId
        · rw [if_pos hmine] at hu ⊢
          exact ⟨unstamped n, mem_content.2 ⟨n, hn, hmine, rfl⟩, (unstamped_patched target db.now n).symm⟩
        · rw [if_neg hmine] at hu
          exact absurd hu hmine
      · rintro ⟨y, hy, rfl⟩
        obtain ⟨n, hn, hmine, rfl⟩ := mem_content.1 hy
        refine ⟨patched target db.now n, mem_marked.2 ⟨n, hn, if_pos hmine⟩, ?_, unstamped_patched target db.now n⟩
        exact (patched_key target db.now n).2.1.trans hmine
  · intro t ht
    rw [hcursor] at ht
    obtain ⟨n, hn, hmine, hle⟩ := h.floor t ht
    obtain ⟨-, hu, hat⟩ := patched_key target db.now n
    exact ⟨patched target db.now n, mem_marked.2 ⟨n, hn, if_pos hmine⟩, hu.trans hmine, hle.trans hat.ge⟩
  · have hcount := unread_marking userId db target
    rw [hcounted, h.unread]
    cases target with
    | all =>
      have hall : cleared .all db userId = unreadCount db userId := by
        unfold cleared unreadCount Table.count
        refine List.countP_congr fun n _ => ?_
        simp [hits]
      change (0 : Int) = _
      omega
    | one id =>
      obtain ⟨item, hitem, rfl⟩ := hheld id rfl
      rw [h.cleared_one hitem] at hcount
      change (if (feed.items.any fun i => i.id = item.id && i.readAt.isNone) then max 0 ((unreadCount db userId : Int) - 1)
        else (unreadCount db userId : Int)) = _
      split at hcount <;> rename_i hany
      · rw [if_pos hany]
        omega
      · rw [if_neg hany]
        omega

/-- What is fetched for this user, apart from when it was read. -/
def fetchedContent (order : RowOrder) (db : NotificationDb) (userId : UserId) :
    Crowded.Fetched (fun n : Notification => n.updatedAt) (content db userId) :=
  (fetched order db userId).map unstamped fun _ => rfl

theorem nodup_content : (content db userId).Nodup := by
  have hids : ((content db userId).map fun n => n.id).Nodup := by
    unfold content
    rw [List.map_map]
    exact (db.notifications.nodup.sublist (List.filter_sublist.map key))
  exact hids.of_map _

theorem apart_content (h : Apart userId db) : ∀ x ∈ content db userId, ∀ y ∈ content db userId,
    x.updatedAt = y.updatedAt → x = y := by
  intro x hx y hy heq
  obtain ⟨n, hn, hu, rfl⟩ := mem_content.1 hx
  obtain ⟨m, hm, hv, rfl⟩ := mem_content.1 hy
  rw [h n hn m hm hu hv heq]

/-- What a request for a page is answered. -/
theorem respond_ok (order : RowOrder) (userId : UserId) (limit : Option Int) (db : NotificationDb) (before : Option Timestamp) : ∃ page : Inbox.NotificationPage,
    ((respond order userId before limit).exec db).1 = .ok page ∧ page.unread = unreadCount db userId ∧
      page.nextBefore = (Crowded.page (fun n : Notification => n.updatedAt) (pageLimit limit)
        ((fetchedContent order db userId).rows before)).2 ∧
      page.notifications.map unstamped = (Crowded.page (fun n : Notification => n.updatedAt) (pageLimit limit)
        ((fetchedContent order db userId).rows before)).1 := by
  have hpage : Crowded.page (fun n : Notification => n.updatedAt) (pageLimit limit) ((fetchedContent order db userId).rows before) =
      ((Crowded.page (·.updatedAt) (pageLimit limit) ((fetched order db userId).rows before)).1.map unstamped,
        (Crowded.page (·.updatedAt) (pageLimit limit) ((fetched order db userId).rows before)).2) :=
    Crowded.page_map unstamped (fun _ => rfl) _
  have hlist : (listPage order userId before limit).exec db = (.ok ⟨(Crowded.page (·.updatedAt) (pageLimit limit)
      ((fetched order db userId).rows before)).1, (Crowded.page (·.updatedAt) (pageLimit limit)
      ((fetched order db userId).rows before)).2⟩, db) := Prod.ext (exec_list before) rfl
  refine ⟨⟨_, _, (unreadCount db userId : Nat)⟩, ?_, rfl, (congrArg Prod.snd hpage).symm, (congrArg Prod.fst hpage).symm⟩
  unfold respond
  rw [Prog.exec_bind, hlist]
  rfl

/-- A page below another feed's. -/
def below (feed : Feed) (page : Inbox.NotificationPage) : Feed := ⟨feed.pages ++ [page]⟩

theorem below_eq (h : feed.pages ≠ []) (page : Inbox.NotificationPage) : (below feed page).pages ≠ [] ∧
    cursor (below feed page) = page.nextBefore ∧ (below feed page).items = feed.items ++ page.notifications ∧
    (below feed page).unread = feed.unread := by
  obtain ⟨p, ps, rfl⟩ := exists_pages h
  refine ⟨by simp [below], ?_, ?_, rfl⟩
  · simp only [cursor, below, List.getLast?_append, List.getLast?_singleton, Option.some_or, Option.bind_some]
  · simp [below, Feed.items]

/-- The first page is in step. -/
theorem faithful_start (order : RowOrder) (limit : Option Int) (hidx : Indexed db.notifications)
    (hapart : Apart userId db) : Faithful userId db (Live.start order userId limit db).feed := by
  obtain ⟨page, hok, hunread, hnext, hrows⟩ := respond_ok order userId limit db none
  have hfeed : (Live.start order userId limit db).feed = ⟨[page]⟩ := by
    unfold Live.start
    rw [hok]
    rfl
  have hcursor : cursor ⟨[page]⟩ = page.nextBefore := by simp [cursor]
  rw [hfeed]
  refine ⟨List.cons_ne_nil _ _, hidx, hapart, ?_, fun t ht => ?_, hunread⟩
  · have hitems : Feed.items ⟨[page]⟩ = page.notifications := by simp [Feed.items]
    rw [hcursor, hitems, hnext, hrows]
    exact (fetchedContent order db userId).mirrors_first (pageLimit_pos limit) nodup_content (apart_content hapart)
  · rw [hcursor, hnext] at ht
    obtain ⟨x, hx, rfl⟩ := (fetchedContent order db userId).next_mem ht
    obtain ⟨n, hn, hu, rfl⟩ := mem_content.1 hx
    exact ⟨n, hn, hu, le_rfl⟩

/-- A page loaded below a feed in step. -/
theorem Faithful.below {before : Timestamp} {page : Inbox.NotificationPage} (h : Faithful userId db feed)
    (hcursor : cursor feed = some before) (hok : ((respond order userId (some before) limit).exec db).1 = .ok page) :
    Faithful userId db (LiveFeed.below feed page) ∧
      ∀ item ∈ page.notifications, ∀ held ∈ feed.items, item.id ≠ held.id := by
  obtain ⟨page', hok', -, hnext, hrows⟩ := respond_ok order userId limit db (some before)
  obtain rfl : page' = page := Except.ok.inj (hok'.symm.trans hok)
  obtain ⟨hpages, hlast, hitems, hunread⟩ := below_eq h.pages page'
  have hmirrors := h.mirrors
  rw [hcursor] at hmirrors
  refine ⟨⟨hpages, h.indexed, h.apart, ?_, fun t ht => ?_, hunread.trans h.unread⟩, fun item hitem held hheld hsame => ?_⟩
  · rw [hlast, hitems, List.map_append, hnext, hrows]
    exact (fetchedContent order db userId).mirrors_next (pageLimit_pos limit) nodup_content (apart_content h.apart) hmirrors
  · rw [hlast, hnext] at ht
    obtain ⟨x, hx, rfl⟩ := (fetchedContent order db userId).next_mem ht
    obtain ⟨n, hn, hu, rfl⟩ := mem_content.1 hx
    exact ⟨n, hn, hu, le_rfl⟩
  · -- what the page lists is past the cursor, and what is held is not
    have hin : unstamped item ∈ page'.notifications.map unstamped := List.mem_map_of_mem hitem
    rw [hrows] at hin
    obtain ⟨hmem, hpast, -⟩ :=
      ((fetchedContent order db userId).mem_page (pageLimit_pos limit) nodup_content (apart_content h.apart) (some before)).1 hin
    obtain ⟨hmem', hreached⟩ := (hmirrors.mem (unstamped held)).1 (List.mem_map_of_mem hheld)
    obtain ⟨n, hn, -, hnx⟩ := mem_content.1 hmem
    obtain ⟨m, hm, -, hmx⟩ := mem_content.1 hmem'
    have hone : m = n := eq_of_id hn hm (((id_of_unstamped hmx).trans hsame.symm).trans (id_of_unstamped hnx).symm)
    rw [← hnx] at hpast
    rw [← hmx, hone] at hreached
    simp only [Crowded.past, Crowded.reached, Option.all_some, decide_eq_true_eq] at hpast hreached
    exact absurd hreached (not_le.2 hpast)

end Faithful

/-! ## With pushes under way -/

section Underway

variable {userId : UserId} {order : RowOrder} {limit : Option Int} {σ : Live} {feed feed' : Feed} {l : Happening}

theorem pages_foldl (pushes : List (Notification × Bool)) (h : feed.pages ≠ []) : (pushes.foldl arrived feed).pages ≠ [] ∧
    cursor (pushes.foldl arrived feed) = cursor feed := by
  induction pushes generalizing feed with
  | nil => exact ⟨h, rfl⟩
  | cons push pushes ih =>
    obtain ⟨hpages, hcursor, -⟩ := arrived_eq h push
    exact ⟨(ih hpages).1, (ih hpages).2.trans hcursor⟩

/-- What has arrived is held, whatever arrives after it. -/
theorem held_foldl (pushes : List (Notification × Bool)) (h : feed.pages ≠ []) {id : NotificationId}
    (hid : (∃ item ∈ feed.items, item.id = id) ∨ ∃ push ∈ pushes, push.1.id = id) :
    ∃ item ∈ (pushes.foldl arrived feed).items, item.id = id := by
  induction pushes generalizing feed with
  | nil => simpa using hid
  | cons push pushes ih =>
    obtain ⟨hpages, -, hitems, -⟩ := arrived_eq h push
    refine ih hpages ?_
    rw [hitems]
    by_cases hpush : push.1.id = id
    · exact .inl ⟨push.1, List.mem_cons_self, hpush⟩
    · rcases hid with ⟨item, hitem, rfl⟩ | ⟨other, hother, hid⟩
      · exact .inl ⟨item, List.mem_cons_of_mem _ (List.mem_filter.2 ⟨hitem, by simpa using Ne.symm hpush⟩), rfl⟩
      · rcases List.mem_cons.1 hother with rfl | hother
        · exact absurd hid hpush
        · exact .inr ⟨other, hother, hid⟩

/-- Two feeds with pages, of which one holds these items below the other's and shows the same count. -/
structure Longer (items : List Notification) (feed feed' : Feed) : Prop where
  pages : feed.pages ≠ []
  pages' : feed'.pages ≠ []
  items : feed'.items = feed.items ++ items
  unread : feed'.unread = feed.unread

/-- What arrives is none of what lies below: it changes the rest as it does without. -/
theorem Longer.push {items : List Notification} {push : Notification × Bool} (h : Longer items feed feed')
    (hother : ∀ item ∈ items, item.id ≠ push.1.id) : Longer items (arrived feed push) (arrived feed' push) := by
  obtain ⟨hpages, -, hitems, hunread⟩ := arrived_eq h.pages push
  obtain ⟨hpages', -, hitems', hunread'⟩ := arrived_eq h.pages' push
  refine ⟨hpages, hpages', ?_, ?_⟩
  · have hkept : items.filter (fun item => item.id ≠ push.1.id) = items :=
      List.filter_eq_self.2 fun item hitem => decide_eq_true (hother item hitem)
    rw [hitems, hitems', h.items]
    unfold Crowded.lift
    rw [List.filter_append, hkept, List.cons_append]
  · have hnone : (items.any fun item => item.id = push.1.id) = false :=
      List.any_eq_false.2 fun item hitem => by simpa using hother item hitem
    rw [hunread, hunread', h.items, h.unread, List.any_append, hnone, Bool.or_false]

theorem Longer.foldl {items : List Notification} (pushes : List (Notification × Bool)) (h : Longer items feed feed')
    (hother : ∀ push ∈ pushes, ∀ item ∈ items, item.id ≠ push.1.id) :
    Longer items (pushes.foldl arrived feed) (pushes.foldl arrived feed') := by
  induction pushes generalizing feed feed' with
  | nil => exact h
  | cons push pushes ih =>
    exact ih (h.push (hother push List.mem_cons_self)) fun other hmem => hother other (List.mem_cons_of_mem _ hmem)

/-- The feed has loaded, and is in step once everything has arrived. -/
structure InStep (userId : UserId) (σ : Live) : Prop where
  pages : σ.feed.pages ≠ []
  faithful : Faithful userId σ.server σ.settled

/-- Another page, loaded while pushes are under way: the same as if it were loaded after them. -/
theorem InStep.more (h : InStep userId σ) : InStep userId (σ.step order userId limit .more) := by
  rcases hcursor : cursor σ.feed with _ | before
  · have hsame : loadMore order userId limit σ.server σ.feed = σ.feed := by
      unfold loadMore
      rw [hcursor]
    have hstep : σ.step order userId limit .more = σ := by
      unfold Live.step
      dsimp only
      rw [hsame]
    rw [hstep]
    exact h
  · obtain ⟨page, hok, hmore⟩ := loadMore_eq order userId limit σ.server hcursor
    have hsettled : cursor σ.settled = some before := (pages_foldl σ.inFlight h.pages).2.trans hcursor
    obtain ⟨hfaithful, hapart⟩ := h.faithful.below hsettled hok
    obtain ⟨hpages, hlast, hitems, hunread⟩ := below_eq h.pages page
    obtain ⟨hpages', hlast', hitems', hunread'⟩ := below_eq h.faithful.pages page
    -- what is under way will be held above the page, so it is none of it
    have hother : ∀ push ∈ σ.inFlight, ∀ item ∈ page.notifications, item.id ≠ push.1.id := by
      intro push hpush item hitem hsame
      obtain ⟨held, hheld, hid⟩ := held_foldl σ.inFlight h.pages (.inr ⟨push, hpush, rfl⟩)
      exact hapart item hitem held hheld (hsame.trans hid.symm)
    have hlonger := Longer.foldl σ.inFlight ⟨h.pages, hpages, hitems, hunread⟩ hother
    have hcursor' : cursor (σ.inFlight.foldl arrived (below σ.feed page)) = cursor (below σ.settled page) :=
      (pages_foldl σ.inFlight hpages).2.trans (hlast.trans hlast'.symm)
    have hstep : σ.step order userId limit .more = { σ with feed := below σ.feed page } := by
      unfold Live.step
      dsimp only
      rw [hmore]
      rfl
    rw [hstep]
    refine ⟨hpages, ⟨hlonger.pages', hfaithful.indexed, hfaithful.apart, ?_, fun t ht => ?_, ?_⟩⟩
    · have hmirrors := hfaithful.mirrors
      rw [hitems'] at hmirrors
      show Crowded.Mirrors _ _ (cursor (σ.inFlight.foldl arrived (below σ.feed page)))
        ((σ.inFlight.foldl arrived (below σ.feed page)).items.map unstamped)
      rw [hcursor', hlonger.items]
      exact hmirrors
    · exact hfaithful.floor t (hcursor'.symm.trans ht)
    · exact hlonger.unread.trans (hunread'.symm.trans hfaithful.unread)

theorem InStep.step (h : InStep userId σ) (hl : Timely userId σ l) : InStep userId (σ.step order userId limit l) := by
  cases l with
  | tick now =>
    exact ⟨h.pages, h.faithful.pages, h.faithful.indexed, h.faithful.apart, h.faithful.mirrors, h.faithful.floor, h.faithful.unread⟩
  | notify id new =>
    refine ⟨h.pages, ?_⟩
    show Faithful userId _ ((σ.inFlight ++ pushed userId _).foldl arrived σ.feed)
    rw [List.foldl_append]
    exact h.faithful.notified (notes_notify h.faithful.indexed id new) hl
  | arrive =>
    rcases hqueue : σ.inFlight with _ | ⟨push, rest⟩
    · have hstep : σ.step order userId limit .arrive = σ := by simp [Live.step, hqueue]
      rw [hstep]
      exact h
    · have hstep : σ.step order userId limit .arrive = { σ with inFlight := rest, feed := arrived σ.feed push } := by
        simp [Live.step, hqueue]
      rw [hstep]
      refine ⟨(arrived_eq h.pages push).1, ?_⟩
      have hfaithful := h.faithful
      unfold Live.settled at hfaithful
      rw [hqueue] at hfaithful
      exact hfaithful
  | mark target now =>
    obtain ⟨hidle, hheld⟩ := hl
    have hfaithful := h.faithful
    unfold Live.settled at hfaithful
    rw [hidle] at hfaithful
    refine ⟨(marked_eq target now h.pages).1, ?_⟩
    show Faithful userId _ (σ.inFlight.foldl arrived (marked target now σ.feed))
    rw [hidle]
    exact hfaithful.marked target now hheld
  | more => exact h.more

/-- Whatever is recorded, pushed, marked and loaded, in whatever order: once what is under way has arrived the feed is what a
reload would list down to its cursor, and its badge is the server's count. -/
theorem feed_shows (order : RowOrder) (userId : UserId) (limit : Option Int) (db : NotificationDb) (ls : List Happening)
    (hidx : Indexed db.notifications) (hapart : Apart userId db)
    (hls : Along (fun σ l => Live.step order userId limit σ l) (Timely userId) (Live.start order userId limit db) ls) :
    Always (fun σ l => Live.step order userId limit σ l) (fun σ => Shows order userId σ.server σ.settled)
      (Live.start order userId limit db) ls := by
  have hstart : Faithful userId db (Live.start order userId limit db).feed := faithful_start order limit hidx hapart
  exact Always.mono (fun σ (hσ : InStep userId σ) => hσ.faithful.shows order)
    (always_of_along (fun σ l hσ hl => hσ.step hl) ⟨hstart.pages, hstart⟩ hls)

/-- Two who may ask for `⟨1⟩`'s friendship, and have not. -/
def unasked : NotificationDb :=
  { Db.empty 1 with
    users := ((Table.empty.insert { id := ⟨1⟩, handle := "ann", email := "ann@example.com", isActive := true }).insert
      { id := ⟨2⟩, handle := "ben", email := "ben@example.com", isActive := true }).insert
      { id := ⟨3⟩, handle := "eve", email := "eve@example.com", isActive := true }
    notifications := .empty }

/-- One asks and `⟨1⟩` sees it and marks all; then the other asks, and more is loaded before that has arrived. -/
def asking : List Happening :=
  [.notify ⟨9⟩ (requestOf ⟨2⟩), .arrive, .mark .all 5, .tick 2, .notify ⟨10⟩ (requestOf ⟨3⟩), .more]

/-- The state after each of these. -/
def asked (k : Nat) : Live :=
  run (fun σ l => Live.step stableOrder ⟨1⟩ none σ l) (Live.start stableOrder ⟨1⟩ none unasked) (asking.take k)

theorem asked_shows : Shows stableOrder ⟨1⟩ (asked 6).server (asked 6).settled ∧ (asked 6).feed.items.length = 1 ∧
    (asked 6).settled.items.length = 2 := by
  refine ⟨(feed_shows stableOrder ⟨1⟩ none unasked asking Indexed.empty (fun _ hn => absurd hn List.not_mem_nil)
    ⟨fun _ hn => absurd hn List.not_mem_nil, trivial, ⟨rfl, fun _ h => by cases h⟩, trivial, ?_, trivial, trivial⟩).last,
    by decide +kernel, by decide +kernel⟩
  have htimely : ∀ n ∈ (asked 4).server.notifications.rows, n.userId = ⟨1⟩ → n.updatedAt < (asked 4).server.now := by
    decide +kernel
  exact htimely

end Underway

end Genzh.Client.LiveFeed
