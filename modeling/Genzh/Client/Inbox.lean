/-
The notification feed in a client's cache: pages that load, notifications that arrive while one looks, and requests to
mark as read. A request writes its result before it is answered and keeps the feed as it found it, which it puts back
when it fails. So what came in between stays exactly when it comes to nothing.
-/
import Genzh.Domain.Notification
import Genzh.Lib.Run

namespace Genzh.Client.Inbox

open Genzh.Lib Genzh.Domain

/-! ## The feed -/

structure NotificationPage where
  notifications : List Notification
  nextBefore : Option Timestamp
  /-- The server's own count. Only the first page's is shown. -/
  unread : Int
  deriving DecidableEq

structure Feed where
  pages : List NotificationPage
  deriving DecidableEq

def Feed.items (f : Feed) : List Notification := f.pages.flatMap (·.notifications)

/-- The count shown. -/
def Feed.unread (f : Feed) : Int := (f.pages.head?.map (·.unread)).getD 0

structure FeedEdit where
  patch : Option (Notification → Notification)
  prepend : Option Notification
  unread : Int → Int

def FeedEdit.page (edit : FeedEdit) (index : Nat) (page : NotificationPage) : NotificationPage :=
  let items := edit.patch.elim page.notifications page.notifications.map
  let items := edit.prepend.elim items fun prepend =>
    -- dropped from every page, since the row may be pages down
    let others := items.filter fun item => item.id ≠ prepend.id
    if index = 0 then prepend :: others else others
  { page with notifications := items, unread := edit.unread page.unread }

/-- Rewrite the cached feed. -/
def editFeed (edit : FeedEdit) (cached : Option Feed) : Option Feed :=
  cached.map fun feed => if feed.pages = [] then feed else ⟨feed.pages.mapIdx edit.page⟩

/-- A notification arrived. It counts if it is new, not held already and not read. -/
def applyNotificationCreated (notification : Notification) (isNew : Bool) (cached : Option Feed) : Option Feed :=
  let alreadyHeld := (cached.map fun feed => feed.items.any fun item => item.id = notification.id).getD false
  let counts := isNew && !alreadyHeld && notification.readAt.isNone
  editFeed { patch := none, prepend := some notification, unread := fun count => if counts then count + 1 else count } cached

/-! ## Requests -/

/-- What a request marks as read. -/
inductive Target where
  | one (id : NotificationId)
  | all
  deriving DecidableEq

/-- What a request writes before it is answered. -/
def Target.edit (target : Target) (now : Timestamp) (previous : Option Feed) : FeedEdit :=
  match target with
  | .one id =>
    let wasUnread := (previous.map fun feed => feed.items.any fun item => item.id = id && item.readAt.isNone).getD false
    { patch := some fun item => if item.id = id && item.readAt.isNone then { item with readAt := some now } else item
      prepend := none
      unread := fun count => if wasUnread then max 0 (count - 1) else count }
  | .all =>
    { patch := some fun item => if item.readAt.isSome then item else { item with readAt := some now }
      prepend := none
      unread := fun _ => 0 }

/-! ## The cache -/

/-- The cache, the fetch in flight with the feed it began with, and what each request keeps until it is answered. -/
structure Cache where
  feed : Option Feed
  fetching : Option (Option Feed)
  contexts : Nat → Option (Option Feed)

def Cache.start : Cache := ⟨none, none, fun _ => none⟩

/-- What happens to the cache. What a fetch makes of the feed it began with and of the one it finds is the query
library's. -/
inductive Event where
  | fetch
  | loaded (pages : Option Feed → Option Feed → Feed)
  | fetchFailed
  | arrived (notification : Notification) (isNew : Bool)
  | mark (request : Nat) (target : Target) (now : Timestamp)
  | succeeded (request : Nat)
  | failed (request : Nat)

/-- The request that an event is about. -/
def Event.request : Event → Option Nat
  | .mark request _ _ | .succeeded request | .failed request => some request
  | _ => none

/-- The fetch in flight is done. Pages of one that was cancelled are dropped. -/
def Cache.land (pages : Option Feed → Option Feed → Feed) (s : Cache) : Cache :=
  { s with feed := (s.fetching.map fun began => pages began s.feed).or s.feed, fetching := none }

def Cache.step (s : Cache) : Event → Cache
  | .fetch => { s with fetching := some s.feed }
  | .loaded pages => s.land pages
  | .fetchFailed => { s with fetching := none }
  | .arrived notification isNew => { s with feed := applyNotificationCreated notification isNew s.feed }
  | .mark request target now =>
    -- `onMutate`: the fetch in flight is cancelled, the feed kept and rewritten
    { feed := editFeed (target.edit now s.feed) s.feed
      fetching := none
      contexts := Function.update s.contexts request (some s.feed) }
  | .succeeded request => { s with contexts := Function.update s.contexts request none }
  | .failed request =>
    -- `onError`: what was kept is put back, if there was anything
    { s with
      feed := ((s.contexts request).bind fun previous => previous).or s.feed
      contexts := Function.update s.contexts request none }

def Cache.runs (s : Cache) (es : List Event) : Cache := run Cache.step s es

/-- Without the fetch in flight. -/
def Cache.cancelled (s : Cache) : Cache := { s with fetching := none }

/-- A request that fails after these events leaves the feed that they leave without it. -/
def LeavesNoTrace (before during : List Event) (request : Nat) (target : Target) (now : Timestamp) : Prop :=
  (Cache.start.runs (before ++ .mark request target now :: (during ++ [.failed request]))).feed =
    (Cache.start.runs (before ++ during)).feed

/-- What happens while a request is under way comes to nothing: a feed the request has found is left as it was; where it
has found none, the fetch that it cancels would have made no difference. -/
def ComesToNothing (before during : List Event) : Prop :=
  match (Cache.start.runs before).feed with
  | some found => (Cache.start.runs (before ++ during)).feed = some found
  | none => ((Cache.start.runs before).cancelled.runs during).feed = (Cache.start.runs (before ++ during)).feed

variable {s t : Cache} {e : Event} {es before during : List Event} {request : Nat} {target : Target} {now : Timestamp}

/-! ## What a request keeps -/

/-- Only the events of a request touch what it keeps. -/
theorem step_contexts (h : e.request ≠ some request) : (s.step e).contexts request = s.contexts request := by
  have hother : ∀ r context, Event.request e = some r → Function.update s.contexts r context request = s.contexts request := by
    intro r context hr
    refine Function.update_of_ne ?_ _ _
    rintro rfl
    exact h hr
  cases e with
  | fetch => rfl
  | loaded pages => rfl
  | fetchFailed => rfl
  | arrived notification isNew => rfl
  | mark r target now => exact hother r _ rfl
  | succeeded r => exact hother r _ rfl
  | failed r => exact hother r _ rfl

theorem runs_contexts (h : ∀ e ∈ es, Event.request e ≠ some request) : (s.runs es).contexts request = s.contexts request := by
  induction es generalizing s with
  | nil => rfl
  | cons e es ih =>
    obtain ⟨he, hes⟩ := List.forall_mem_cons.1 h
    exact (ih hes).trans (step_contexts he)

/-- Two caches that differ in what one request keeps, at most. -/
structure SameBut (request : Nat) (s t : Cache) : Prop where
  feed : s.feed = t.feed
  fetching : s.fetching = t.fetching
  contexts : ∀ r, r ≠ request → s.contexts r = t.contexts r

theorem SameBut.update {r : Nat} (h : SameBut request s t) (context : Option (Option Feed)) :
    ∀ q, q ≠ request → Function.update s.contexts r context q = Function.update t.contexts r context q := by
  intro q hq
  rw [Function.update_apply, Function.update_apply, h.contexts q hq]

/-- What the request keeps makes no difference to what is not about it. -/
theorem SameBut.step (h : SameBut request s t) (he : e.request ≠ some request) : SameBut request (s.step e) (t.step e) := by
  obtain ⟨hfeed, hfetching, hcontexts⟩ := id h
  cases e with
  | fetch => exact ⟨hfeed, congrArg some hfeed, hcontexts⟩
  | loaded pages =>
    refine ⟨?_, rfl, hcontexts⟩
    change (s.fetching.map _).or _ = (t.fetching.map _).or _
    rw [hfeed, hfetching]
  | fetchFailed => exact ⟨hfeed, rfl, hcontexts⟩
  | arrived notification isNew => exact ⟨congrArg (applyNotificationCreated notification isNew) hfeed, hfetching, hcontexts⟩
  | mark r target now =>
    refine ⟨?_, rfl, ?_⟩
    · change editFeed (target.edit now s.feed) s.feed = editFeed (target.edit now t.feed) t.feed
      rw [hfeed]
    · change ∀ q, q ≠ request → Function.update s.contexts r (some s.feed) q = Function.update t.contexts r (some t.feed) q
      rw [hfeed]
      exact h.update _
  | succeeded r => exact ⟨hfeed, hfetching, h.update none⟩
  | failed r =>
    have hr : r ≠ request := fun heq => he (congrArg some heq)
    refine ⟨?_, hfetching, h.update none⟩
    change ((s.contexts r).bind _).or s.feed = ((t.contexts r).bind _).or t.feed
    rw [hfeed, hcontexts r hr]

theorem SameBut.runs (h : SameBut request s t) (hes : ∀ e ∈ es, Event.request e ≠ some request) :
    SameBut request (s.runs es) (t.runs es) := by
  induction es generalizing s t with
  | nil => exact h
  | cons e es ih =>
    obtain ⟨he, hes⟩ := List.forall_mem_cons.1 hes
    exact ih (h.step he) hes

theorem sameBut_mark (h : s.feed = none) : SameBut request (s.step (.mark request target now)) s.cancelled := by
  refine ⟨?_, rfl, fun r hr => Function.update_of_ne hr _ _⟩
  change editFeed (target.edit now s.feed) s.feed = s.feed
  rw [h]
  rfl

/-! ## A request that fails -/

theorem feed_failed (hduring : ∀ e ∈ during, Event.request e ≠ some request) :
    (s.runs (.mark request target now :: (during ++ [.failed request]))).feed =
      s.feed.or ((s.step (.mark request target now)).runs during).feed := by
  have hkept : ((s.step (.mark request target now)).runs during).contexts request = some s.feed :=
    (runs_contexts hduring).trans (Function.update_self request _ _)
  have hruns : s.runs (.mark request target now :: (during ++ [.failed request])) =
      ((s.step (.mark request target now)).runs during).step (.failed request) := run_append _ during [.failed request]
  rw [hruns]
  change ((((s.step (.mark request target now)).runs during).contexts request).bind _).or _ = _
  rw [hkept]
  rfl

/-- A request that fails leaves no trace exactly where what happens while it is under way comes to nothing. -/
theorem leavesNoTrace_iff (hduring : ∀ e ∈ during, Event.request e ≠ some request) :
    LeavesNoTrace before during request target now ↔ ComesToNothing before during := by
  have happend : ∀ es, Cache.start.runs (before ++ es) = (Cache.start.runs before).runs es := run_append _ before
  unfold LeavesNoTrace ComesToNothing
  rw [happend, feed_failed hduring]
  rcases hfeed : (Cache.start.runs before).feed with _ | found
  · rw [Option.none_or, ((sameBut_mark hfeed).runs hduring).feed]
  · rw [Option.some_or]
    exact eq_comm

/-! ## A notification that arrives in between -/

/-- A message that nobody has read. -/
def notice (id : Uuid) (time : Timestamp) : Notification where
  id := ⟨id⟩
  userId := ⟨1⟩
  kind := .directMessage
  actorId := some ⟨2⟩
  roomId := some ⟨id⟩
  messageId := some ⟨id⟩
  preview := some "hello"
  count := 1
  readAt := none
  createdAt := time
  updatedAt := time

/-- A feed of one notification, fetched. -/
def fetched : List Event := [.fetch, .loaded fun _ _ => ⟨[⟨[notice 1 10], none, 1⟩]⟩]

/-- While the first notification is being marked, a second one arrives: the failure takes it away, and the count shown is
one where two are unread. -/
theorem mark_failed_loses_arrival :
    ¬LeavesNoTrace fetched [.arrived (notice 2 20) true] 0 (.one ⟨1⟩) 30 ∧
      ((Cache.start.runs (fetched ++ [.mark 0 (.one ⟨1⟩) 30, .arrived (notice 2 20) true, .failed 0])).feed.map fun feed =>
        (feed.items, feed.unread)) = some ([notice 1 10], 1) ∧
      ((Cache.start.runs (fetched ++ [.arrived (notice 2 20) true])).feed.map fun feed => (feed.items, feed.unread)) =
        some ([notice 2 20, notice 1 10], 2) := by
  unfold LeavesNoTrace
  decide

/-- Another request that begins later and fails before. -/
theorem leavesNoTrace_nested : LeavesNoTrace fetched [.mark 1 .all 31, .failed 1] 0 (.one ⟨1⟩) 30 := by
  refine (leavesNoTrace_iff ?_).2 ?_
  · exact List.forall_mem_cons.2 ⟨by decide, List.forall_mem_singleton.2 (by decide)⟩
  · change (Cache.start.runs (fetched ++ [.mark 1 .all 31, .failed 1])).feed = some _
    decide

end Genzh.Client.Inbox
