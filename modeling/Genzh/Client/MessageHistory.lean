/-
The messages of the room a screen shows: the latest page first, older ones as the reader goes back, and what the socket
tells meanwhile. Two fetches and the socket write one list and one cursor. Neither is reset when the screen changes to
another room, a page that is on its way is only given up if it is the first, and the first page replaces the list.

`history_whole`: a run in which the room changes only while nothing is held, and the first page has what was delivered
before it, keeps the list to its room, drops nothing that was delivered, and ends its paging with every message once.
-/
import Genzh.Api.Authorship
import Genzh.Client.Cache
import Genzh.Messaging.History

namespace Genzh.Client.History

open Genzh.Lib Genzh.Room Genzh.Messaging Genzh.Client.Cache
open Genzh.Domain hiding Message
open Genzh.Api.Messages (ChatDb MessageView HistoryResponse)

/-! ## The hook -/

/-- Where the next page starts. -/
structure Cursor where
  before : Timestamp
  beforeId : Option MessageId
  deriving DecidableEq

/-- A fetch of an older page, of the room and from the cursor it was called with. -/
structure Older where
  roomId : RoomId
  current : Cursor
  deriving DecidableEq

/-- The hook's state and refs, and the fetches it waits for. -/
structure MessageHistory where
  /-- The room it is rendered with. -/
  roomId : RoomId
  /-- The room its effects were last run for: they run some time after it is rendered. -/
  mounted : Option RoomId
  items : List Message
  loading : Bool
  loadingOlder : Bool
  error : Option String
  cursor : Option Cursor
  /-- The cursor as it was last rendered. -/
  cursorRef : Option Cursor
  exhausted : Bool
  /-- The fetch of the first page for `mounted` has not ended. That of a room left is given up. -/
  first : Bool
  older : Option Older

namespace MessageHistory

/-- Rendered for the first time. -/
def new (roomId : RoomId) : MessageHistory where
  roomId
  mounted := none
  items := []
  loading := true
  loadingOlder := false
  error := none
  cursor := none
  cursorRef := none
  exhausted := false
  first := false
  older := none

/-- Set from the call of `loadOlder` on until its fetch has ended. -/
def fetchingOlder (s : MessageHistory) : Bool := s.older.isSome

/-- More pages are to be had. -/
def hasMore (s : MessageHistory) : Bool := s.cursor.isSome

/-- The effect on the room, which runs where the room has changed. -/
def effects (s : MessageHistory) : MessageHistory :=
  if s.mounted = some s.roomId then s
  else { s with mounted := some s.roomId, loading := true, error := none, exhausted := false, first := true }

/-- Rendered, once the effects of the rendering before have run. -/
def render (roomId : RoomId) (s : MessageHistory) : MessageHistory :=
  { s.effects with roomId, cursorRef := s.effects.cursor }

def cursorOf (page : HistoryResponse) : Option Cursor := page.nextBefore.map fun before => ⟨before, page.nextBeforeId⟩

def ofView (v : MessageView) : Message := { v.message with reactions := some v.reactions, anonymousAuthor := v.anonymousAuthor }

/-- A page, oldest first. -/
def reversed (page : HistoryResponse) : List Message := (page.messages.map ofView).reverse

/-- The fetch of the first page ends. -/
def firstEnds (answer : Except (Option String) HistoryResponse) (s : MessageHistory) : MessageHistory :=
  if !s.first then s
  else match answer with
    | .ok page => { s with
      items := reversed page, cursor := cursorOf page, exhausted := page.nextBefore.isNone, loading := false, first := false }
    | .error message => { s with error := some (message.getD "Could not load messages"), loading := false, first := false }

def loadOlder (s : MessageHistory) : MessageHistory :=
  if s.fetchingOlder || s.exhausted then s
  else match s.cursorRef with
    | none => s
    | some current => { s with older := some ⟨s.roomId, current⟩, loadingOlder := true }

/-- The fetch of an older page ends. A page that fails is asked for again by scrolling. -/
def olderEnds (c : Collation) (answer : Except (Option String) HistoryResponse) (s : MessageHistory) : MessageHistory :=
  match answer with
  | .ok page => { s with
    items := mergeMessages c s.items (reversed page), cursor := cursorOf page, exhausted := page.nextBefore.isNone
    older := none, loadingOlder := false }
  | .error _ => { s with older := none, loadingOlder := false }

end MessageHistory

/-! ## What the socket tells -/

/-- The frames that edit the list. The server names the room of the message. -/
inductive Edit where
  | created (message : Message) (reactions : Option (List ReactionSummary)) (anonymousAuthor : Option RoomAnonymousIdentity)
  | updated (message : Message) (reactions : Option (List ReactionSummary))
  | deleted (roomId : RoomId) (messageId : MessageId)
  | reactionsUpdated (roomId : RoomId) (messageId : MessageId) (reactions : Option (List ReactionSummary))

namespace Edit

def roomId : Edit → RoomId
  | created message .. | updated message _ => message.roomId
  | deleted roomId _ | reactionsUpdated roomId .. => roomId

/-- The message a frame brings. -/
def brings : Edit → Option Message
  | created message .. | updated message _ => some message
  | _ => none

/-- The handlers of the frames. -/
def apply (c : Collation) (items : List Message) : Edit → List Message
  | created message reactions anonymousAuthor => mergeMessages c items [{ message with
      reactions := some (reactions.getD [])
      anonymousAuthor := anonymousAuthor.or message.anonymousAuthor }]
  | updated message reactions => mergeMessages c items [{ message with reactions := some (reactions.getD []) }]
  | deleted _ messageId => items.filter fun message => message.id ≠ messageId
  | reactionsUpdated _ messageId reactions => items.map fun message =>
    if message.id ≠ messageId then message
    else { message with reactions := some (remark (ownIn (message.reactions.getD [])) (reactions.getD [])) }

/-- The messages delivered and not deleted since. -/
def deliver (ids : List MessageId) : Edit → List MessageId
  | created message .. | updated message _ => message.id :: ids
  | deleted _ messageId => ids.filter (· ≠ messageId)
  | reactionsUpdated .. => ids

/-- The messages not deleted. -/
def spare (owed : List Genzh.Domain.Message) : Edit → List Genzh.Domain.Message
  | deleted _ messageId => owed.filter fun m => m.id ≠ messageId
  | _ => owed

end Edit

/-! ## Runs -/

/-- What becomes of a request: it is served from the tables, or fails. -/
inductive Outcome where
  | served (db : ChatDb)
  | failed (message : Option String)

inductive Event where
  | render (roomId : RoomId)
  | effects
  | firstEnds (outcome : Outcome)
  | loadOlder
  | olderEnds (outcome : Outcome)
  | edit (e : Edit)

/-- Who reads, how the client compares strings, and what it is told when the server refuses. -/
structure Setting where
  viewer : UserId
  collation : Collation
  refusal : ServiceError → String

/-- `messagesApi.history` -/
def Setting.answer (σ : Setting) (roomId : RoomId) (cursor : Option Cursor) : Outcome → Except (Option String) HistoryResponse
  | .served db => (Api.Messages.list db roomId σ.viewer (cursor.map (·.before)) (cursor.bind (·.beforeId)) (some 50)).mapError
    fun e => some (σ.refusal e)
  | .failed message => .error message

namespace MessageHistory

variable (σ : Setting)

def step (s : MessageHistory) : Event → MessageHistory
  | .render roomId => s.render roomId
  | .effects => s.effects
  | .firstEnds outcome => s.mounted.elim s fun roomId => s.firstEnds (σ.answer roomId none outcome)
  | .loadOlder => s.loadOlder
  | .olderEnds outcome => s.older.elim s fun o => s.olderEnds σ.collation (σ.answer o.roomId (some o.current) outcome)
  | .edit e => if s.mounted = some e.roomId then { s with items := e.apply σ.collation s.items } else s

end MessageHistory

/-- The hook, and what it owes its reader: the messages delivered since the room was opened, and those of the room that
every page was read beside. -/
structure Watched where
  hook : MessageHistory
  live : List MessageId
  owed : List Genzh.Domain.Message

namespace Watched

variable (σ : Setting)

def new (roomId : RoomId) : Watched := ⟨.new roomId, [], []⟩

def liveAfter (w : Watched) : Event → List MessageId
  | .render _ | .effects => if w.hook.mounted = some w.hook.roomId then w.live else []
  | .edit e => if w.hook.mounted = some e.roomId then e.deliver w.live else w.live
  | _ => w.live

/-- What is owed after a page was asked for: where it was served, what `f` makes of the room's messages then. -/
def afterPage (owed : List Genzh.Domain.Message) (f : List Genzh.Domain.Message → List Genzh.Domain.Message) (roomId : RoomId)
    (cursor : Option Cursor) : Outcome → List Genzh.Domain.Message
  | .served db => if (σ.answer roomId cursor (.served db)).isOk then f (roomMessages db.toDb roomId) else owed
  | .failed _ => owed

def owedAfter (w : Watched) : Event → List Genzh.Domain.Message
  | .render _ | .effects => if w.hook.mounted = some w.hook.roomId then w.owed else []
  | .firstEnds outcome =>
    if w.hook.first then w.hook.mounted.elim w.owed fun roomId => afterPage σ w.owed (fun content => content) roomId none outcome
    else w.owed
  | .olderEnds outcome =>
    w.hook.older.elim w.owed fun o =>
      afterPage σ w.owed (fun content => w.owed.filter fun m => content.any fun m' => keyOf m' = keyOf m) o.roomId (some o.current) outcome
  | .edit e => if w.hook.mounted = some e.roomId then e.spare w.owed else w.owed
  | .loadOlder => w.owed

def step (w : Watched) (e : Event) : Watched := ⟨w.hook.step σ e, w.liveAfter e, w.owedAfter σ e⟩

/-- The list is that of the room, and has each message once; it has every message delivered live; and when there is no
more to page, it has every message the pages were read beside. -/
structure Whole (w : Watched) : Prop where
  belongs : ∀ m ∈ w.hook.items, m.roomId = w.hook.roomId
  once : (w.hook.items.map (·.id)).Nodup
  kept : ∀ id ∈ w.live, id ∈ w.hook.items.map (·.id)
  complete : w.hook.hasMore = false → ∀ m ∈ w.owed, m.id ∈ w.hook.items.map (·.id)

end Watched

/-- The room changes only while nothing is held of it and no page is to be had; a first page is for the room that is shown,
and has every message that was delivered before it; and so are the frames that bring a message. -/
def Orderly (σ : Setting) (s : MessageHistory) : Event → Prop
  | .render roomId => roomId = s.roomId ∨ (s.items = [] ∧ s.hasMore = false)
  | .firstEnds outcome => s.first = true → ∀ roomId, s.mounted = some roomId → ∀ page, σ.answer roomId none outcome = .ok page →
    roomId = s.roomId ∧ ∀ m ∈ s.items, m.id ∈ page.messages.map (·.message.id)
  | .edit e => ∀ message, e.brings = some message → s.mounted = some message.roomId → message.roomId = s.roomId
  | _ => True

/-! ## Pages -/

section Pages

variable {σ : Setting} {roomId : RoomId} {cursor : Option Cursor} {outcome : Outcome} {page : HistoryResponse}

/-- A message older than the cursor. -/
def Cursor.past (c : Cursor) (m : Genzh.Domain.Message) : Bool := beforeCursor (some c.before) c.beforeId m

/-- What a page has of the messages of its room. -/
structure PageOf (content : List Genzh.Domain.Message) (cursor : Option Cursor) (page : HistoryResponse) : Prop where
  mem : ∀ v ∈ page.messages, v.message ∈ content
  nodup : (page.messages.map (·.message.id)).Nodup
  covers : ∀ m ∈ content, cursor.all (·.past m) = true →
    m.id ∈ page.messages.map (·.message.id) ∨ ∃ c, MessageHistory.cursorOf page = some c ∧ c.past m = true

theorem beforeCursor_eq (cursor : Option Cursor) (m : Genzh.Domain.Message) :
    beforeCursor (cursor.map (·.before)) (cursor.bind (·.beforeId)) m = cursor.all (·.past m) := by cases cursor <;> rfl

theorem answer_served (σ : Setting) (roomId : RoomId) (cursor : Option Cursor) (db : ChatDb) :
    σ.answer roomId cursor (.served db) =
      (Api.Messages.list db roomId σ.viewer (cursor.map (·.before)) (cursor.bind (·.beforeId)) (some 50)).mapError
        fun e => some (σ.refusal e) := rfl

theorem answer_ok (h : σ.answer roomId cursor outcome = .ok page) :
    ∃ db, outcome = .served db ∧ PageOf (roomMessages db.toDb roomId) cursor page := by
  cases outcome with
  | failed message => cases h
  | served db =>
    refine ⟨db, rfl, ?_⟩
    rw [answer_served, Api.Messages.list_eq] at h
    rcases hvisible : visibleAccess db.toDb roomId σ.viewer with e | a <;> rw [hvisible] at h
    · cases h
    · have hlimit : (clampPageSize (some 50)).toNat = 50 := rfl
      have hpage := Except.ok.inj h
      rw [hlimit] at hpage
      have hmessages : page.messages.map (·.message) =
          (listMessages db.toDb roomId (cursor.map (·.before)) (cursor.bind (·.beforeId)) 50).messages := by
        rw [← hpage]
        simp only [Api.Messages.historyResponse, List.map_map]
        exact List.map_id' _
      have hids : page.messages.map (·.message.id) =
          (listMessages db.toDb roomId (cursor.map (·.before)) (cursor.bind (·.beforeId)) 50).messages.map (·.id) := by
        rw [← hmessages, List.map_map]
        rfl
      refine ⟨fun v hv => ?_, ?_, fun m hm hpast => ?_⟩
      · have hmem : v.message ∈ (listMessages db.toDb roomId (cursor.map (·.before)) (cursor.bind (·.beforeId)) 50).messages := by
          rw [← hmessages]
          exact List.mem_map_of_mem hv
        exact mem_room_of_mem_page hmem
      · exact hids ▸ nodup_ids_page db.toDb roomId _ _ 50
      · rw [← beforeCursor_eq] at hpast
        rcases mem_page_or_before (show 0 < 50 by decide) hm hpast with hmem | ⟨t, i, ht, hi, hbefore⟩
        · exact .inl (hids ▸ List.mem_map_of_mem hmem)
        · refine .inr ⟨⟨t, some i⟩, ?_, hbefore⟩
          rw [← hpage]
          unfold MessageHistory.cursorOf Api.Messages.historyResponse
          simp only [ht, hi, Option.map_some]

end Pages

/-! ## Edits -/

section Edits

variable {c : Collation} {items : List Message} {e : Edit} {roomId : RoomId} {id : MessageId}

theorem map_id_edited (items : List Message) (f : Message → Message) (hf : ∀ m, (f m).id = m.id) :
    (items.map f).map (·.id) = items.map (·.id) := by
  rw [List.map_map]
  exact List.map_congr_left fun m _ => hf m

theorem roomId_of_brings {message : Message} (h : e.brings = some message) : e.roomId = message.roomId := by
  cases e <;> cases h <;> rfl

/-- A frame that brings nothing adds nothing. -/
theorem apply_nil_of_brings (h : e.brings = none) : e.apply c [] = [] := by
  cases e with
  | created message reactions anonymousAuthor => cases h
  | updated message reactions => cases h
  | _ => rfl

theorem belongs_merge {incoming : List Message} (h : ∀ m ∈ items ++ incoming, m.roomId = roomId) :
    ∀ m ∈ mergeMessages c items incoming, m.roomId = roomId := by
  intro m hm
  obtain ⟨-, x, hx, heq⟩ := of_byId (mem_merge.1 hm)
  rw [← heq]
  exact h x hx

theorem apply_belongs (h : ∀ m ∈ items, m.roomId = roomId)
    (he : ∀ message, e.brings = some message → message.roomId = roomId) : ∀ m ∈ e.apply c items, m.roomId = roomId := by
  cases e with
  | created message reactions anonymousAuthor =>
    refine belongs_merge fun m hm => ?_
    rcases List.mem_append.1 hm with hm | hm
    · exact h m hm
    · rw [List.mem_singleton.1 hm]
      exact he message rfl
  | updated message reactions =>
    refine belongs_merge fun m hm => ?_
    rcases List.mem_append.1 hm with hm | hm
    · exact h m hm
    · rw [List.mem_singleton.1 hm]
      exact he message rfl
  | deleted r messageId => exact fun m hm => h m (List.mem_of_mem_filter hm)
  | reactionsUpdated r messageId reactions =>
    intro m hm
    obtain ⟨x, hx, rfl⟩ := List.mem_map.1 hm
    have hroom := h x hx
    split <;> exact hroom

theorem apply_once (h : (items.map (·.id)).Nodup) : ((e.apply c items).map (·.id)).Nodup := by
  cases e with
  | created message reactions anonymousAuthor => exact nodup_merge c _ _
  | updated message reactions => exact nodup_merge c _ _
  | deleted r messageId => exact h.sublist (List.filter_sublist.map _)
  | reactionsUpdated r messageId reactions =>
    unfold Edit.apply
    rw [map_id_edited _ _ fun m => by split <;> rfl]
    exact h

/-- An edit drops the message that was deleted, and no other. -/
theorem mem_ids_apply (hid : id ∈ items.map (·.id)) (he : ∀ r, e ≠ .deleted r id) : id ∈ (e.apply c items).map (·.id) := by
  obtain ⟨m, hm, rfl⟩ := List.mem_map.1 hid
  cases e with
  | created message reactions anonymousAuthor => exact mem_ids_merge.2 ⟨m, List.mem_append_left _ hm, rfl⟩
  | updated message reactions => exact mem_ids_merge.2 ⟨m, List.mem_append_left _ hm, rfl⟩
  | deleted r messageId =>
    refine List.mem_map.2 ⟨m, List.mem_filter.2 ⟨hm, decide_eq_true ?_⟩, rfl⟩
    rintro rfl
    exact he r rfl
  | reactionsUpdated r messageId reactions =>
    unfold Edit.apply
    rw [map_id_edited _ _ fun m => by split <;> rfl]
    exact hid

theorem mem_ids_deliver {live : List MessageId} (h : ∀ id ∈ live, id ∈ items.map (·.id)) :
    ∀ id ∈ e.deliver live, id ∈ (e.apply c items).map (·.id) := by
  intro id hid
  cases e with
  | created message reactions anonymousAuthor =>
    rcases List.mem_cons.1 hid with rfl | hid
    · exact mem_ids_merge.2 ⟨_, List.mem_append_right _ List.mem_cons_self, rfl⟩
    · exact mem_ids_apply (h id hid) fun r hr => (by cases hr)
  | updated message reactions =>
    rcases List.mem_cons.1 hid with rfl | hid
    · exact mem_ids_merge.2 ⟨_, List.mem_append_right _ List.mem_cons_self, rfl⟩
    · exact mem_ids_apply (h id hid) fun r hr => (by cases hr)
  | deleted r messageId =>
    obtain ⟨hlive, hne⟩ := List.mem_filter.1 hid
    refine mem_ids_apply (h id hlive) ?_
    rintro r' ⟨⟩
    exact of_decide_eq_true hne rfl
  | reactionsUpdated r messageId reactions => exact mem_ids_apply (h id hid) fun r hr => (by cases hr)

theorem mem_spare {owed : List Genzh.Domain.Message} {m : Genzh.Domain.Message} (h : m ∈ e.spare owed) :
    m ∈ owed ∧ ∀ r, e ≠ .deleted r m.id := by
  cases e with
  | deleted r messageId =>
    obtain ⟨hm, hne⟩ := List.mem_filter.1 h
    refine ⟨hm, ?_⟩
    rintro r' ⟨⟩
    exact of_decide_eq_true hne rfl
  | _ => exact ⟨h, fun r hr => (by cases hr)⟩

end Edits

/-! ## The invariant -/

namespace Watched

variable {σ : Setting} {w : Watched} {e : Event}

/-- A cursor from which an older page may be fetched, or is being. -/
def Holds (w : Watched) (c : Cursor) : Prop :=
  w.hook.cursor = some c ∨ w.hook.cursorRef = some c ∨ ∃ o, w.hook.older = some o ∧ o.current = c

/-- Beside what is promised: what is owed and not older than a cursor is held; an older page is fetched for the room that
is shown, and where there is one to be had; and between a change of rooms and its effects nothing is held. -/
structure Sound (w : Watched) : Prop extends Whole w where
  covered : ∀ c, w.Holds c → ∀ m ∈ w.owed, c.past m = false → m.id ∈ w.hook.items.map (·.id)
  older : ∀ o, w.hook.older = some o → o.roomId = w.hook.roomId ∧ w.hook.cursor ≠ none
  gap : w.hook.mounted ≠ some w.hook.roomId → w.hook.items = [] ∧ w.hook.cursor = none ∧ w.hook.cursorRef = none
  ended : w.hook.cursor = none → w.hook.cursorRef = none ∨ w.hook.exhausted = true
  waiting : w.hook.first = true → w.hook.cursor = none ∧ w.hook.cursorRef = none

theorem Sound.new (roomId : RoomId) : (Watched.new roomId).Sound where
  belongs m hm := (by cases hm)
  once := List.nodup_nil
  kept id hid := (by cases hid)
  complete _ m hm := (by cases hm)
  covered c _ m hm := (by cases hm)
  older o ho := (by cases ho)
  gap _ := ⟨rfl, rfl, rfl⟩
  ended _ := .inl rfl
  waiting h := (by cases h)

theorem hasMore_eq_false {s : MessageHistory} : s.hasMore = false ↔ s.cursor = none := Option.isSome_eq_false_iff.trans Option.isNone_iff_eq_none

theorem Sound.older_eq_none (h : w.Sound) (hcursor : w.hook.cursor = none) : w.hook.older = none := by
  rcases ho : w.hook.older with _ | o
  · rfl
  · exact absurd hcursor (h.older o ho).2

/-- Where no cursor is held, there is nothing to cover. -/
theorem not_holds {w : Watched} (hcursor : w.hook.cursor = none) (href : w.hook.cursorRef = none) (holder : w.hook.older = none)
    (c : Cursor) : ¬ w.Holds c := by
  rintro (h | h | ⟨o, h, -⟩)
  · rw [hcursor] at h
    cases h
  · rw [href] at h
    cases h
  · rw [holder] at h
    cases h

theorem Sound.effects (h : w.Sound) : (w.step σ .effects).Sound := by
  by_cases hmounted : w.hook.mounted = some w.hook.roomId
  · have hsame : w.step σ .effects = w := by
      simp only [step, MessageHistory.step, MessageHistory.effects, liveAfter, owedAfter, if_pos hmounted]
    rw [hsame]
    exact h
  · obtain ⟨hitems, hcursor, href⟩ := h.gap hmounted
    have hstep : w.step σ .effects = ⟨{ w.hook with
        mounted := some w.hook.roomId, loading := true, error := none, exhausted := false, first := true }, [], []⟩ := by
      simp only [step, MessageHistory.step, MessageHistory.effects, liveAfter, owedAfter, if_neg hmounted]
    rw [hstep]
    exact {
      belongs := h.belongs
      once := h.once
      kept := fun id hid => (by cases hid)
      complete := fun _ m hm => (by cases hm)
      covered := fun c _ m hm => (by cases hm)
      older := h.older
      gap := fun hgap => absurd rfl hgap
      ended := fun _ => .inl href
      waiting := fun _ => ⟨hcursor, href⟩ }

theorem mounted_effects (s : MessageHistory) : s.effects.mounted = some s.effects.roomId := by
  unfold MessageHistory.effects
  split
  · assumption
  · rfl

theorem effects_frame (s : MessageHistory) : s.effects.items = s.items ∧ s.effects.cursor = s.cursor ∧ s.effects.roomId = s.roomId := by
  unfold MessageHistory.effects
  split <;> exact ⟨rfl, rfl, rfl⟩

theorem Sound.render {roomId : RoomId} (h : w.Sound) (he : Orderly σ w.hook (.render roomId)) : (w.step σ (.render roomId)).Sound := by
  have hflushed : (w.step σ .effects).Sound := h.effects
  have hmounted : (w.step σ .effects).hook.mounted = some (w.step σ .effects).hook.roomId := mounted_effects w.hook
  obtain ⟨hitems, hcursor, hroom⟩ : (w.step σ .effects).hook.items = w.hook.items ∧
    (w.step σ .effects).hook.cursor = w.hook.cursor ∧ (w.step σ .effects).hook.roomId = w.hook.roomId := effects_frame w.hook
  have hstep : w.step σ (.render roomId) = { w.step σ .effects with
    hook := { (w.step σ .effects).hook with roomId, cursorRef := (w.step σ .effects).hook.cursor } } := rfl
  have he : roomId = (w.step σ .effects).hook.roomId ∨
      ((w.step σ .effects).hook.items = [] ∧ (w.step σ .effects).hook.cursor = none) := by
    rw [hitems, hcursor, hroom]
    exact he.imp_right fun hnone => ⟨hnone.1, hasMore_eq_false.1 hnone.2⟩
  rw [hstep]
  generalize w.step σ .effects = v at hflushed hmounted he
  rcases he with rfl | ⟨hnil, hnone⟩
  · exact {
      belongs := hflushed.belongs
      once := hflushed.once
      kept := hflushed.kept
      complete := hflushed.complete
      covered := by
        rintro c (hc | hc | hc)
        · exact hflushed.covered c (.inl hc)
        · exact hflushed.covered c (.inl hc)
        · exact hflushed.covered c (.inr (.inr hc))
      older := hflushed.older
      gap := fun hgap => absurd hmounted hgap
      ended := fun hcursor => .inl hcursor
      waiting := fun hfirst => ⟨(hflushed.waiting hfirst).1, (hflushed.waiting hfirst).1⟩ }
  · have holder := hflushed.older_eq_none hnone
    exact {
      belongs := fun m hm => absurd (hnil ▸ hm) List.not_mem_nil
      once := hflushed.once
      kept := hflushed.kept
      complete := hflushed.complete
      covered := fun c hc => absurd hc (not_holds (by exact hnone) (by exact hnone) (by exact holder) c)
      older := fun o ho => absurd (holder.symm.trans ho) (by simp)
      gap := fun _ => ⟨hnil, hnone, hnone⟩
      ended := fun hcursor => .inl hcursor
      waiting := fun _ => ⟨hnone, hnone⟩ }

theorem Sound.loadOlder (h : w.Sound) : (w.step σ .loadOlder).Sound := by
  have hstep : w.step σ .loadOlder = { w with hook := w.hook.loadOlder } := rfl
  rw [hstep]
  unfold MessageHistory.loadOlder
  split
  · exact h
  · rename_i hidle
    rw [Bool.or_eq_true, not_or] at hidle
    rcases href : w.hook.cursorRef with _ | current
    · exact h
    · have hcursor : w.hook.cursor ≠ none := by
        intro hnone
        rcases h.ended hnone with href' | hexhausted
        · rw [href] at href'
          cases href'
        · exact hidle.2 hexhausted
      exact {
        belongs := h.belongs
        once := h.once
        kept := h.kept
        complete := h.complete
        covered := by
          rintro c (hc | hc | ⟨o, ho, rfl⟩)
          · exact h.covered c (.inl hc)
          · exact h.covered c (.inr (.inl (href.trans hc)))
          · cases ho
            exact h.covered current (.inr (.inl href))
        older := by
          rintro o ⟨⟩
          exact ⟨rfl, hcursor⟩
        gap := fun hgap => absurd (h.gap hgap).2.1 hcursor
        ended := fun hnone => absurd hnone hcursor
        waiting := fun hfirst => absurd (h.waiting hfirst).1 hcursor }

theorem Sound.edit {x : Edit} (h : w.Sound) (he : Orderly σ w.hook (.edit x)) : (w.step σ (.edit x)).Sound := by
  by_cases hmounted : w.hook.mounted = some x.roomId
  · have hstep : w.step σ (.edit x) = ⟨{ w.hook with items := x.apply σ.collation w.hook.items }, x.deliver w.live, x.spare w.owed⟩ := by
      simp only [step, MessageHistory.step, liveAfter, owedAfter, if_pos hmounted]
    rw [hstep]
    exact {
      belongs := apply_belongs h.belongs fun message hbrings => he message hbrings (hmounted.trans (congrArg some (roomId_of_brings hbrings)))
      once := apply_once h.once
      kept := mem_ids_deliver h.kept
      complete := fun hmore m hm => by
        obtain ⟨howed, hspared⟩ := mem_spare hm
        exact mem_ids_apply (h.complete hmore m howed) hspared
      covered := fun c hc m hm hpast => by
        obtain ⟨howed, hspared⟩ := mem_spare hm
        exact mem_ids_apply (h.covered c hc m howed hpast) hspared
      older := h.older
      gap := fun hgap => by
        obtain ⟨hnil, hcursor, href⟩ := h.gap hgap
        have hbrings : x.brings = none := by
          rcases hx : x.brings with _ | message
          · rfl
          · have hroom := hmounted.trans (congrArg some (roomId_of_brings hx))
            exact absurd (hroom.trans (congrArg some (he message hx hroom))) hgap
        refine ⟨?_, hcursor, href⟩
        simp only [hnil]
        exact apply_nil_of_brings hbrings
      ended := h.ended
      waiting := h.waiting }
  · have hstep : w.step σ (.edit x) = w := by
      simp only [step, MessageHistory.step, liveAfter, owedAfter, if_neg hmounted]
    rw [hstep]
    exact h

theorem afterPage_ok {owed : List Genzh.Domain.Message} {f : List Genzh.Domain.Message → List Genzh.Domain.Message} {roomId : RoomId}
    {cursor : Option Cursor} {db : ChatDb} {page : HistoryResponse} (h : σ.answer roomId cursor (.served db) = .ok page) :
    afterPage σ owed f roomId cursor (.served db) = f (roomMessages db.toDb roomId) := by
  refine if_pos ?_
  rw [h]
  rfl

theorem afterPage_error {owed : List Genzh.Domain.Message} {f : List Genzh.Domain.Message → List Genzh.Domain.Message} {roomId : RoomId}
    {cursor : Option Cursor} {outcome : Outcome} {message : Option String} (h : σ.answer roomId cursor outcome = .error message) :
    afterPage σ owed f roomId cursor outcome = owed := by
  cases outcome with
  | failed message => rfl
  | served db =>
    refine if_neg ?_
    rw [h]
    exact Bool.false_ne_true

theorem id_of_keyOf {m m' : Genzh.Domain.Message} (h : keyOf m' = keyOf m) : m'.id = m.id ∧ m'.createdAt = m.createdAt := by
  obtain ⟨htime, hid⟩ := Prod.mk.inj (toLex.injective h)
  exact ⟨congrArg MessageId.mk (BitVec.eq_of_toNat_eq hid), htime⟩

theorem past_of_keyOf {m m' : Genzh.Domain.Message} (h : keyOf m' = keyOf m) (c : Cursor) : c.past m' = c.past m := by
  obtain ⟨hid, htime⟩ := id_of_keyOf h
  unfold Cursor.past beforeCursor
  rw [hid, htime]

theorem ids_reversed (page : HistoryResponse) :
    (MessageHistory.reversed page).map (·.id) = (page.messages.map (·.message.id)).reverse := by
  unfold MessageHistory.reversed
  rw [List.map_reverse, List.map_map]
  rfl

theorem mem_ids_reversed {page : HistoryResponse} {id : MessageId} :
    id ∈ (MessageHistory.reversed page).map (·.id) ↔ id ∈ page.messages.map (·.message.id) := by
  rw [ids_reversed, List.mem_reverse]

theorem belongs_reversed {content : List Genzh.Domain.Message} {cursor : Option Cursor} {page : HistoryResponse} {roomId : RoomId}
    (h : PageOf content cursor page) (hcontent : ∀ m ∈ content, m.roomId = roomId) :
    ∀ m ∈ MessageHistory.reversed page, m.roomId = roomId := by
  intro m hm
  obtain ⟨v, hv, rfl⟩ := List.mem_map.1 (List.mem_reverse.1 hm)
  exact hcontent v.message (h.mem v hv)

theorem Sound.firstEnds {outcome : Outcome} (h : w.Sound) (he : Orderly σ w.hook (.firstEnds outcome)) :
    (w.step σ (.firstEnds outcome)).Sound := by
  rcases hmounted : w.hook.mounted with _ | roomId
  · have hstep : w.step σ (.firstEnds outcome) = w := by
      simp [step, MessageHistory.step, liveAfter, owedAfter, hmounted]
    rw [hstep]
    exact h
  rcases hfirst : w.hook.first with _ | _
  · have hstep : w.step σ (.firstEnds outcome) = w := by
      simp [step, MessageHistory.step, MessageHistory.firstEnds, liveAfter, owedAfter, hmounted, hfirst]
    rw [hstep]
    exact h
  obtain ⟨hcursor, href⟩ := h.waiting hfirst
  rcases hanswer : σ.answer roomId none outcome with message | page
  · have hstep : w.step σ (.firstEnds outcome) = { w with hook := { w.hook with
        error := some (message.getD "Could not load messages"), loading := false, first := false } } := by
      simp [step, MessageHistory.step, MessageHistory.firstEnds, liveAfter, owedAfter, hmounted, hfirst, hanswer, afterPage_error hanswer]
    rw [hstep]
    exact { h with covered := h.covered, older := h.older, gap := h.gap, ended := h.ended, waiting := fun hf => (by cases hf) }
  · obtain ⟨db, rfl, hpage⟩ := answer_ok hanswer
    obtain ⟨rfl, hheld⟩ := he hfirst roomId hmounted page hanswer
    have holder := h.older_eq_none hcursor
    have hstep : w.step σ (.firstEnds (.served db)) = ⟨{ w.hook with
        items := MessageHistory.reversed page, cursor := MessageHistory.cursorOf page, exhausted := page.nextBefore.isNone
        loading := false, first := false }, w.live, roomMessages db.toDb w.hook.roomId⟩ := by
      simp [step, MessageHistory.step, MessageHistory.firstEnds, liveAfter, owedAfter, hmounted, hfirst, hanswer, afterPage_ok hanswer]
    rw [hstep]
    exact {
      belongs := belongs_reversed hpage fun m hm => (mem_roomMessages.1 hm).2
      once := by
        simp only [ids_reversed]
        exact List.nodup_reverse.2 hpage.nodup
      kept := fun id hid => by
        obtain ⟨m, hm, rfl⟩ := List.mem_map.1 (h.kept id hid)
        exact mem_ids_reversed.2 (hheld m hm)
      complete := fun hmore m hm => by
        rcases hpage.covers m hm rfl with hid | ⟨c, hc, -⟩
        · exact mem_ids_reversed.2 hid
        · rw [hasMore_eq_false] at hmore
          exact absurd (hmore.symm.trans hc) (by simp)
      covered := by
        rintro c (hc | hc | ⟨o, ho, -⟩) m hm hpast
        · rcases hpage.covers m hm rfl with hid | ⟨c', hc', hpast'⟩
          · exact mem_ids_reversed.2 hid
          · rw [Option.some.inj (hc.symm.trans hc')] at hpast
            exact absurd (hpast.symm.trans hpast') (by simp)
        · exact absurd (href.symm.trans hc) (by simp)
        · exact absurd (holder.symm.trans ho) (by simp)
      older := fun o ho => absurd (holder.symm.trans ho) (by simp)
      gap := fun hgap => absurd hmounted hgap
      ended := fun _ => .inl href
      waiting := fun hf => (by cases hf) }

theorem Sound.olderEnds {outcome : Outcome} (h : w.Sound) : (w.step σ (.olderEnds outcome)).Sound := by
  rcases holder : w.hook.older with _ | o
  · have hstep : w.step σ (.olderEnds outcome) = w := by
      simp [step, MessageHistory.step, liveAfter, owedAfter, holder]
    rw [hstep]
    exact h
  obtain ⟨hroom, hcursor⟩ := h.older o holder
  rcases hanswer : σ.answer o.roomId (some o.current) outcome with message | page
  · -- the fetch has failed, and only the promise of its page goes
    have hstep : w.step σ (.olderEnds outcome) = { w with hook := { w.hook with older := none, loadingOlder := false } } := by
      simp [step, MessageHistory.step, MessageHistory.olderEnds, liveAfter, owedAfter, holder, hanswer, afterPage_error hanswer]
    rw [hstep]
    exact { h with
      covered := by
        rintro c (hc | hc | ⟨o', ho', -⟩)
        · exact h.covered c (.inl hc)
        · exact h.covered c (.inr (.inl hc))
        · cases ho'
      older := fun o' ho' => (by cases ho')
      gap := h.gap
      ended := h.ended
      waiting := h.waiting }
  · obtain ⟨db, rfl, hpage⟩ := answer_ok hanswer
    have hstep : w.step σ (.olderEnds (.served db)) = ⟨{ w.hook with
        items := mergeMessages σ.collation w.hook.items (MessageHistory.reversed page), cursor := MessageHistory.cursorOf page
        exhausted := page.nextBefore.isNone, older := none, loadingOlder := false }, w.live,
        w.owed.filter fun m => (roomMessages db.toDb o.roomId).any fun m' => keyOf m' = keyOf m⟩ := by
      simp [step, MessageHistory.step, MessageHistory.olderEnds, liveAfter, owedAfter, holder, hanswer, afterPage_ok hanswer]
    rw [hstep]
    have hkept : ∀ id ∈ w.hook.items.map (·.id),
        id ∈ (mergeMessages σ.collation w.hook.items (MessageHistory.reversed page)).map (·.id) := by
      intro id hid
      obtain ⟨m, hm, rfl⟩ := List.mem_map.1 hid
      exact mem_ids_merge.2 ⟨m, List.mem_append_left _ hm, rfl⟩
    -- what is owed was held before, or is on the page, or is older than the page
    have hcovers : ∀ m ∈ w.owed.filter (fun m => (roomMessages db.toDb o.roomId).any fun m' => keyOf m' = keyOf m),
        m.id ∈ (mergeMessages σ.collation w.hook.items (MessageHistory.reversed page)).map (·.id) ∨
          ∃ c, MessageHistory.cursorOf page = some c ∧ c.past m = true := by
      intro m hm
      obtain ⟨howed, hany⟩ := List.mem_filter.1 hm
      obtain ⟨m', hm', hkey⟩ := List.any_eq_true.1 hany
      have hkey := of_decide_eq_true hkey
      rcases hpast : o.current.past m with _ | _
      · exact .inl (hkept _ (h.covered o.current (.inr (.inr ⟨o, holder, rfl⟩)) m howed hpast))
      · rcases hpage.covers m' hm' ((past_of_keyOf hkey o.current).trans hpast) with hid | ⟨c, hc, hpast'⟩
        · obtain ⟨x, hx, hxid⟩ := List.mem_map.1 (mem_ids_reversed.2 hid)
          exact .inl (mem_ids_merge.2 ⟨x, List.mem_append_right _ hx, hxid.trans (id_of_keyOf hkey).1⟩)
        · exact .inr ⟨c, hc, (past_of_keyOf hkey c).symm.trans hpast'⟩
    exact {
      belongs := belongs_merge fun m hm => by
        rcases List.mem_append.1 hm with hm | hm
        · exact h.belongs m hm
        · exact belongs_reversed hpage (fun m hm => ((mem_roomMessages.1 hm).2).trans hroom) m hm
      once := nodup_merge σ.collation _ _
      kept := fun id hid => hkept id (h.kept id hid)
      complete := fun hmore m hm => by
        rcases hcovers m hm with hid | ⟨c, hc, -⟩
        · exact hid
        · rw [hasMore_eq_false] at hmore
          exact absurd (hmore.symm.trans hc) (by simp)
      covered := by
        rintro c (hc | hc | ⟨o', ho', -⟩) m hm hpast
        · rcases hcovers m hm with hid | ⟨c', hc', hpast'⟩
          · exact hid
          · rw [Option.some.inj (hc.symm.trans hc')] at hpast
            exact absurd (hpast.symm.trans hpast') (by simp)
        · exact hkept _ (h.covered c (.inr (.inl hc)) m (List.mem_of_mem_filter hm) hpast)
        · cases ho'
      older := fun o' ho' => (by cases ho')
      gap := fun hgap => absurd (h.gap hgap).2.1 hcursor
      ended := fun hnone => .inr (by
        unfold MessageHistory.cursorOf at hnone
        rw [Option.isNone_iff_eq_none]
        exact Option.map_eq_none_iff.1 hnone)
      waiting := fun hf => absurd (h.waiting hf).1 hcursor }

theorem Sound.step (h : w.Sound) (he : Orderly σ w.hook e) : (w.step σ e).Sound := by
  cases e with
  | render roomId => exact h.render he
  | effects => exact h.effects
  | firstEnds outcome => exact h.firstEnds he
  | loadOlder => exact h.loadOlder
  | olderEnds outcome => exact h.olderEnds
  | edit x => exact h.edit he

/-- In every orderly run, whatever order its fetches end in: the list is that of the room shown, and has no message twice;
nothing delivered since the room was opened is missing from it; and when no more is to be had, it has every message of the
room that the pages were read beside. -/
theorem history_whole (σ : Setting) (roomId : RoomId) (es : List Event)
    (h : Along (step σ) (fun w e => Orderly σ w.hook e) (Watched.new roomId) es) :
    Always (step σ) Whole (Watched.new roomId) es :=
  (always_of_along (fun _ _ hw he => hw.step he) (Sound.new roomId) h).mono fun _ hw => hw.toWhole

/-! ### The den, while `ben` writes again -/

def ana : Setting := ⟨⟨1⟩, byCodePoint, fun _ => "refused"⟩

/-- The den is opened, and its page is of when `ben` had written once. -/
theorem den_whole : Always (step ana) Whole (Watched.new ⟨10⟩) [.effects, .firstEnds (.served den), .edit (.created later none none)] := by
  refine history_whole ana ⟨10⟩ _ ⟨trivial, ?_, ?_, trivial⟩
  · rintro - roomId ⟨⟩ page -
    exact ⟨rfl, fun m hm => (by cases hm)⟩
  · rintro message ⟨⟩ -
    rfl

/-- A screen that goes from the den to another room still shows the den; and what `ben` wrote again is dropped by a page
from before it. -/
theorem den_mixed :
    (¬ ∀ (σ : Setting) (roomId : RoomId) (es : List Event),
      Always (step σ) (fun w => ∀ m ∈ w.hook.items, m.roomId = w.hook.roomId) (Watched.new roomId) es) ∧
    ¬ ∀ (σ : Setting) (roomId : RoomId) (es : List Event),
      Always (step σ) (fun w => ∀ id ∈ w.live, id ∈ w.hook.items.map (·.id)) (Watched.new roomId) es := by
  constructor
  · intro h
    have hrun := (h ana ⟨10⟩ [.effects, .firstEnds (.served den), .render ⟨11⟩]).last
    exact absurd hrun (by decide +kernel)
  · intro h
    have hrun := (h ana ⟨10⟩ [.effects, .edit (.created later none none), .firstEnds (.served den)]).last
    exact absurd hrun (by decide +kernel)

end Watched

end Genzh.Client.History
