/-
The transcript a client keeps of a room, and the frames that change it. It is kept in the pages it was fetched in, the
newest first; the list shown is the merge of them all, in which the copy of the last page that has a message stands.

A deletion and a tally are written to every page, a new message and an edit only to the first. So `shown_newest` asks
that no older page has the message.
-/
import Genzh.Api.Messages
import Genzh.Lib.Run

namespace Genzh.Client.Cache

open Genzh.Lib Genzh.Domain Genzh.Room Genzh.Messaging Genzh.Api
open Genzh.Api.Messages (uuidText)

/-! ## Messages -/

/-- A message as the client has it. An API older than inline tallies leaves `reactions` out. -/
structure Message extends Genzh.Domain.Message where
  reactions : Option (List ReactionSummary)
  anonymousAuthor : Option RoomAnonymousIdentity
  deriving DecidableEq

structure MessagePage where
  messages : List Message
  nextBefore : Option Timestamp
  nextBeforeId : Option MessageId
  deriving DecidableEq

/-- The pages fetched so far, the newest first. -/
structure Transcript where
  pages : List MessagePage
  deriving DecidableEq

/-- How strings compare, and how a timestamp is written. -/
structure Collation where
  localeCompare : String → String → Int
  timestampText : Timestamp → String

/-- By time, and then by id. -/
def Collation.compare (c : Collation) (a b : Message) : Int :=
  let byTime := c.localeCompare (c.timestampText a.createdAt) (c.timestampText b.createdAt)
  if byTime ≠ 0 then byTime else c.localeCompare (uuidText a.id.uuid) (uuidText b.id.uuid)

/-- `incoming` over what is known of the same message. -/
def absorb (previous : Option Message) (message : Message) : Message :=
  { message with reactions := some ((message.reactions.or (previous.bind (·.reactions))).getD []) }

def byId (existing incoming : List Message) : Map MessageId Message :=
  incoming.foldl (fun known message => known.set message.id (absorb (known.get message.id) message))
    (existing.foldl (fun known message => known.set message.id message) .empty)

/-- Combine two lists, ordered by time. -/
def mergeMessages (c : Collation) (existing incoming : List Message) : List Message :=
  (byId existing incoming).values.mergeSort fun a b => c.compare a b ≤ 0

namespace Transcript

/-- The messages of all pages, page after page. -/
def messages (t : Transcript) : List Message := t.pages.flatMap (·.messages)

/-- The messages of all pages but the newest. -/
def olderMessages (t : Transcript) : List Message := t.pages.tail.flatMap (·.messages)

/-- The list shown. -/
def items (c : Collation) (t : Transcript) : List Message := mergeMessages c [] t.messages

/-- What is shown of a message. -/
def shown (t : Transcript) (id : MessageId) : Option Message := (byId [] t.messages).get id

end Transcript

/-! ## The cache -/

/-- The transcripts in the query cache, by room. -/
abbrev QueryClient := RoomId → Option Transcript

def setQueryData (q : QueryClient) (roomId : RoomId) (update : Transcript → Transcript) : QueryClient :=
  Function.update q roomId ((q roomId).map update)

/-- Write to the newest page, without disturbing the paging. -/
def editTranscript (edit : List Message → List Message) (t : Transcript) : Transcript :=
  match t.pages with
  | [] => t
  | newest :: older => ⟨{ newest with messages := edit newest.messages } :: older⟩

/-- Write to every page. -/
def editPages (edit : List Message → List Message) (t : Transcript) : Transcript :=
  ⟨t.pages.map fun page => { page with messages := edit page.messages }⟩

/-- A message arrived. -/
def applyMessageCreated (q : QueryClient) (roomId : RoomId) (message : Message) (reactions : Option (List ReactionSummary))
    (anonymousAuthor : Option RoomAnonymousIdentity) : QueryClient :=
  setQueryData q roomId <| editTranscript fun messages =>
    { message with
      reactions := message.reactions.or (some (reactions.getD []))
      anonymousAuthor := message.anonymousAuthor.or anonymousAuthor } :: messages.filter fun existing => existing.id ≠ message.id

/-- A message was edited. -/
def applyMessageUpdated (q : QueryClient) (roomId : RoomId) (message : Message) (reactions : Option (List ReactionSummary))
    (anonymousAuthor : Option RoomAnonymousIdentity) : QueryClient :=
  setQueryData q roomId <| editTranscript fun messages => messages.map fun existing =>
    if existing.id = message.id then
      { message with
        -- `reactions` is never absent, so those of the existing copy are not fallen back to
        reactions := (message.reactions.or (some (reactions.getD []))).or existing.reactions
        anonymousAuthor := (message.anonymousAuthor.or anonymousAuthor).or existing.anonymousAuthor }
    else existing

/-- A message was deleted: dropped from every page. Also what was removed. -/
def applyMessageDeleted (q : QueryClient) (roomId : RoomId) (messageId : MessageId) : QueryClient × Option Message :=
  (setQueryData q roomId <| editPages fun messages => messages.filter fun message => message.id ≠ messageId,
    (q roomId).bind fun t => (t.messages.filter fun message => message.id = messageId).getLast?)

/-- The reactions marked as one's own. -/
def ownIn (reactions : List ReactionSummary) : List String := (reactions.filter (·.me)).map (·.reaction)

/-- Tallies with these marked as one's own. -/
def remark (mine : List String) (reactions : List ReactionSummary) : List ReactionSummary :=
  reactions.map fun entry => { entry with me := decide (entry.reaction ∈ mine) }

/-- A reaction tally changed, on whatever page. The marks are kept, being the viewer's own. -/
def applyReactionsUpdated (q : QueryClient) (roomId : RoomId) (messageId : MessageId) (reactions : Option (List ReactionSummary)) :
    QueryClient :=
  setQueryData q roomId fun t =>
    -- a copy without a tally has no marks to read, and the update throws
    if t.messages.any fun message => message.id = messageId && message.reactions.isNone then t
    else editPages (fun messages => messages.map fun message =>
      if message.id ≠ messageId then message
      else { message with reactions := some (remark (ownIn (message.reactions.getD [])) (reactions.getD [])) }) t

/-! ## Frames -/

/-- The frames that change a transcript. -/
inductive Frame where
  | messageCreated (roomId : RoomId) (message : Message) (reactions : Option (List ReactionSummary))
      (anonymousAuthor : Option RoomAnonymousIdentity)
  | messageUpdated (roomId : RoomId) (message : Message) (reactions : Option (List ReactionSummary))
      (anonymousAuthor : Option RoomAnonymousIdentity)
  | messageDeleted (roomId : RoomId) (messageId : MessageId)
  | reactionsUpdated (roomId : RoomId) (messageId : MessageId) (reactions : Option (List ReactionSummary))
  deriving DecidableEq

/-- `useQueryCacheSync`. -/
def cacheSync (q : QueryClient) : Frame → QueryClient
  | .messageCreated roomId message reactions anonymousAuthor => applyMessageCreated q roomId message reactions anonymousAuthor
  | .messageUpdated roomId message reactions anonymousAuthor => applyMessageUpdated q roomId message reactions anonymousAuthor
  | .messageDeleted roomId messageId => (applyMessageDeleted q roomId messageId).1
  | .reactionsUpdated roomId messageId reactions => applyReactionsUpdated q roomId messageId reactions

/-- How the server sends a message: without a tally of its own. -/
def ofServer (message : Genzh.Domain.Message) : Message := { message with reactions := none, anonymousAuthor := none }

/-- The frame of an event. -/
def frameOf : ChatServerEvent → Option Frame
  | .messageCreated roomId message reactions anonymousAuthor =>
    some (.messageCreated roomId (ofServer message) (some reactions) anonymousAuthor)
  | .messageUpdated roomId message reactions anonymousAuthor =>
    some (.messageUpdated roomId (ofServer message) (some reactions) anonymousAuthor)
  | .messageDeleted roomId messageId => some (.messageDeleted roomId messageId)
  | .reactionsUpdated roomId messageId reactions => some (.reactionsUpdated roomId messageId (some reactions))
  | _ => none

/-! ## The newest state delivered -/

/-- A frame, and whose doing it tells of. -/
structure Delivery where
  frame : Frame
  causedBy : UserId

/-- The state in which each message of a room was last delivered. -/
abbrev Newest := MessageId → Option Message

def Message.own (m : Message) : List String := ownIn (m.reactions.getD [])

/-- What a frame delivers. An edit by someone else and a tally say nothing about what the viewer has reacted with. -/
def deliver (viewer : UserId) (roomId : RoomId) (n : Newest) (causedBy : UserId) : Frame → Newest
  | .messageCreated r m reactions anonymousAuthor =>
    if r = roomId then Function.update n m.id (some { m with
      reactions := some (m.reactions.getD (reactions.getD []))
      anonymousAuthor := m.anonymousAuthor.or anonymousAuthor })
    else n
  | .messageUpdated r m reactions anonymousAuthor =>
    if r = roomId then Function.update n m.id ((n m.id).map fun held => { m with
      reactions :=
        let tally := m.reactions.getD (reactions.getD [])
        some (if causedBy = viewer then tally else remark held.own tally)
      anonymousAuthor := (m.anonymousAuthor.or anonymousAuthor).or held.anonymousAuthor })
    else n
  | .messageDeleted r id => if r = roomId then Function.update n id none else n
  | .reactionsUpdated r id reactions =>
    if r = roomId then Function.update n id ((n id).map fun held => { held with
      reactions := some (remark held.own (reactions.getD [])) })
    else n

/-- A frame that tells of a change to a message that was there. -/
def Frame.isChange : Frame → Bool
  | .messageUpdated .. | .reactionsUpdated .. => true
  | _ => false

/-- A transcript that is kept, and what was delivered. -/
structure Reader where
  cache : QueryClient
  newest : Newest

section Reading

variable (c : Collation) (viewer : UserId) (roomId : RoomId)

/-- A reader whose transcript is as it was fetched. -/
def Reader.start (q : QueryClient) : Reader := ⟨q, fun id => (q roomId).bind fun t => t.shown id⟩

def Reader.step (s : Reader) (d : Delivery) : Reader :=
  ⟨cacheSync s.cache d.frame, deliver viewer roomId s.newest d.causedBy d.frame⟩

/-- The list shown has each message once, and as it was last delivered. -/
def Reader.ShowsNewest (s : Reader) : Prop :=
  ∃ t, s.cache roomId = some t ∧ ((t.items c).map (·.id)).Nodup ∧ ∀ m : Message, m ∈ t.items c ↔ s.newest m.id = some m

/-- The reactions to a message that are shown as the viewer's own. -/
def QueryClient.own (q : QueryClient) (id : MessageId) : List String :=
  (((q roomId).bind fun t => t.shown id).map Message.own).getD []

/-- An edit or a reaction of someone else leaves the marks as they are. -/
def Reader.KeepsMarks (s : Reader) (d : Delivery) : Prop :=
  d.causedBy ≠ viewer → d.frame.isChange = true → ∀ id reaction,
    reaction ∈ QueryClient.own roomId (s.step viewer roomId d).cache id ↔ reaction ∈ QueryClient.own roomId s.cache id

/-- The frame can be written to the pages and show: a new message or an edit of one that is held is of a message no older
page holds; of someone else's edit, the tally is marked as the copy shown is, and of someone else's reaction, it has what
is marked there; and every copy of a message whose tally changed has one. -/
def Lands (t : Transcript) (causedBy : UserId) : Frame → Prop
  | .messageCreated r m _ _ => r = roomId → t.pages ≠ [] ∧ ∀ older ∈ t.olderMessages, older.id ≠ m.id
  | .messageUpdated r m reactions _ => r = roomId → ∀ held, t.shown m.id = some held →
    (∀ older ∈ t.olderMessages, older.id ≠ m.id) ∧
    (causedBy ≠ viewer → let tally := m.reactions.getD (reactions.getD [])
      remark held.own tally = tally ∧ ∀ reaction ∈ held.own, reaction ∈ tally.map (·.reaction))
  | .messageDeleted _ _ => True
  | .reactionsUpdated r id reactions => r = roomId → ∀ held, t.shown id = some held →
    (∀ copy ∈ t.messages, copy.id = id → copy.reactions.isSome = true) ∧
    (causedBy ≠ viewer → ∀ reaction ∈ held.own, reaction ∈ (reactions.getD []).map (·.reaction))

def Reader.Lands (s : Reader) (d : Delivery) : Prop :=
  ∀ t, s.cache roomId = some t → Cache.Lands viewer roomId t d.causedBy d.frame

end Reading

/-! ## The merge -/

section Merge

variable {c : Collation} {t : Transcript} {id : MessageId} {m : Message}

/-- The copies of a message, page after page. -/
def Transcript.copies (t : Transcript) (id : MessageId) : List Message := t.messages.filter fun m => m.id = id

theorem shown_eq (t : Transcript) (id : MessageId) :
    t.shown id = (t.copies id).foldl (fun previous m => some (absorb previous m)) none :=
  Map.get_foldl_set (fun m : Message => m.id) absorb t.messages Map.empty id

theorem shown_of_copies_eq_nil (h : t.copies id = []) : t.shown id = none := by rw [shown_eq, h]; rfl

/-- The last copy stands. -/
theorem shown_of_copies_eq_append {l : List Message} (h : t.copies id = l ++ [m]) :
    ∃ previous, t.shown id = some (absorb previous m) := by
  rw [shown_eq, h, List.foldl_append]
  exact ⟨_, rfl⟩

theorem absorb_of_isSome (previous : Option Message) (h : m.reactions.isSome = true) : absorb previous m = m := by
  obtain ⟨tally, htally⟩ := Option.isSome_iff_exists.1 h
  unfold absorb
  rw [htally]
  cases m
  cases htally
  rfl

theorem or_some {α : Type} (o : Option α) (a : α) : o.or (some a) = some (o.getD a) := by cases o <;> rfl

/-- What a list writes, one after the other, is there unless it writes nothing. -/
theorem foldl_some_cases {α β : Type} (f : Option β → α → β) (l : List α) (v : Option β) :
    (l = [] ∧ l.foldl (fun v a => some (f v a)) v = v) ∨ ∃ a ∈ l, ∃ v', l.foldl (fun v a => some (f v a)) v = some (f v' a) := by
  rcases List.eq_nil_or_concat l with rfl | ⟨init, a, happend⟩
  · exact .inl ⟨rfl, rfl⟩
  · rw [List.concat_eq_append] at happend
    subst happend
    rw [List.foldl_append]
    exact .inr ⟨a, List.mem_append_right _ List.mem_cons_self, _, rfl⟩

section Merged

variable {existing incoming : List Message}

theorem get_byId (existing incoming : List Message) (id : MessageId) :
    (byId existing incoming).get id =
      (incoming.filter fun m => m.id = id).foldl (fun previous m => some (absorb previous m))
        ((existing.filter fun m => m.id = id).foldl (fun _ m => some m) none) := by
  unfold byId
  rw [Map.get_foldl_set (fun m : Message => m.id) absorb, Map.get_foldl_set (fun m : Message => m.id) fun _ m => m]
  rfl

/-- What is known of a message is what one of the lists has of it, up to the tally. -/
theorem of_byId (h : (byId existing incoming).get id = some m) :
    m.id = id ∧ ∃ x ∈ existing ++ incoming, x.toMessage = m.toMessage := by
  rw [get_byId] at h
  rcases foldl_some_cases absorb (incoming.filter fun m => m.id = id) _ with ⟨-, hnone⟩ | ⟨x, hx, previous, hsome⟩
  · rw [hnone] at h
    rcases foldl_some_cases (fun _ m => m) (existing.filter fun m => m.id = id) (none : Option Message) with
      ⟨-, hnone⟩ | ⟨x, hx, -, hsome⟩
    · rw [hnone] at h
      cases h
    · rw [hsome] at h
      cases h
      obtain ⟨hmem, hid⟩ := List.mem_filter.1 hx
      exact ⟨of_decide_eq_true hid, _, List.mem_append_left _ hmem, rfl⟩
  · rw [hsome] at h
    cases h
    obtain ⟨hmem, hid⟩ := List.mem_filter.1 hx
    exact ⟨of_decide_eq_true hid, x, List.mem_append_right _ hmem, rfl⟩

theorem byId_isSome : ((byId existing incoming).get id).isSome = true ↔ ∃ x ∈ existing ++ incoming, x.id = id := by
  constructor
  · intro h
    obtain ⟨m, hm⟩ := Option.isSome_iff_exists.1 h
    obtain ⟨hid, x, hx, heq⟩ := of_byId hm
    exact ⟨x, hx, by rw [← hid, heq]⟩
  · rintro ⟨x, hx, hid⟩
    rw [get_byId]
    rcases foldl_some_cases absorb (incoming.filter fun m => m.id = id)
      ((existing.filter fun m => m.id = id).foldl (fun _ m => some m) none) with ⟨hnil, hnone⟩ | ⟨_, _, _, hsome⟩
    · rw [hnone]
      rcases foldl_some_cases (fun _ m => m) (existing.filter fun m => m.id = id) (none : Option Message) with
        ⟨hnil', -⟩ | ⟨_, _, _, hsome⟩
      · rcases List.mem_append.1 hx with hx | hx
        · have hmem : x ∈ existing.filter fun m => m.id = id := List.mem_filter.2 ⟨hx, decide_eq_true hid⟩
          rw [hnil'] at hmem
          cases hmem
        · have hmem : x ∈ incoming.filter fun m => m.id = id := List.mem_filter.2 ⟨hx, decide_eq_true hid⟩
          rw [hnil] at hmem
          cases hmem
      · rw [hsome]
        rfl
    · rw [hsome]
      rfl

theorem mem_merge : m ∈ mergeMessages c existing incoming ↔ (byId existing incoming).get m.id = some m := by
  unfold mergeMessages
  rw [List.mem_mergeSort, Map.mem_values]
  constructor
  · rintro ⟨id, hid⟩
    rw [(of_byId hid).1]
    exact hid
  · exact fun h => ⟨m.id, h⟩

/-- A merge has the messages of both lists. -/
theorem mem_ids_merge : id ∈ (mergeMessages c existing incoming).map (·.id) ↔ ∃ x ∈ existing ++ incoming, x.id = id := by
  rw [← byId_isSome, Option.isSome_iff_exists, List.mem_map]
  constructor
  · rintro ⟨m, hm, rfl⟩
    exact ⟨m, mem_merge.1 hm⟩
  · rintro ⟨m, hm⟩
    obtain rfl := (of_byId hm).1
    exact ⟨m, mem_merge.2 hm, rfl⟩

/-- No two messages of a merge are copies of one another. -/
theorem nodup_merge (c : Collation) (existing incoming : List Message) : ((mergeMessages c existing incoming).map (·.id)).Nodup := by
  have hperm : ((mergeMessages c existing incoming).map (·.id)).Perm ((byId existing incoming).values.map (·.id)) :=
    (List.mergeSort_perm _ _).map _
  have hkeys : (byId existing incoming).values.map (·.id) = (byId existing incoming).rows.map Entry.key := by
    unfold Map.values
    rw [List.map_map]
    exact List.map_congr_left fun e he => (of_byId (Map.mem_rows.1 he)).1
  rw [hperm.nodup_iff, hkeys]
  exact (byId existing incoming).nodup

end Merged

theorem id_of_shown (h : t.shown id = some m) : m.id = id := (of_byId h).1

theorem mem_items : m ∈ t.items c ↔ t.shown m.id = some m := mem_merge

theorem nodup_items (c : Collation) (t : Transcript) : ((t.items c).map (·.id)).Nodup := nodup_merge c [] t.messages

theorem copies_eq_nil : t.copies id = [] ↔ ∀ m ∈ t.messages, m.id ≠ id := by
  unfold Transcript.copies
  simp [List.filter_eq_nil_iff]

end Merge

/-! ## Each frame -/

section Frames

variable {t : Transcript} {id : MessageId} {m : Message} {newest : MessagePage} {older : List MessagePage}

theorem messages_editPages_filter (p : Message → Bool) : (editPages (·.filter p) t).messages = t.messages.filter p := by
  unfold Transcript.messages editPages
  rw [List.flatMap_map, List.filter_flatMap]

theorem messages_editPages_map (f : Message → Message) : (editPages (·.map f) t).messages = t.messages.map f := by
  unfold Transcript.messages editPages
  rw [List.flatMap_map, List.map_flatMap]

/-- The copies after a write to the newest page. -/
theorem copies_editTranscript (edit : List Message → List Message) (h : t.pages = newest :: older) :
    (editTranscript edit t).copies id =
      (edit newest.messages).filter (fun m => m.id = id) ++ t.olderMessages.filter fun m => m.id = id := by
  unfold editTranscript Transcript.copies Transcript.messages Transcript.olderMessages
  rw [h]
  exact List.filter_append _ _

theorem copies_eq_append (h : t.pages = newest :: older) :
    t.copies id = newest.messages.filter (fun m => m.id = id) ++ t.olderMessages.filter fun m => m.id = id := by
  rw [← copies_editTranscript (fun messages => messages) h]
  unfold editTranscript
  rw [h]
  unfold Transcript.copies Transcript.messages
  rw [h]

theorem filter_older (h : ∀ older ∈ t.olderMessages, older.id ≠ id) : (t.olderMessages.filter fun m => m.id = id) = [] := by
  simpa [List.filter_eq_nil_iff] using h

/-- A message written to the front of the newest page shows, where no older page holds it. -/
theorem shown_created (hpages : t.pages ≠ []) (hm : m.reactions.isSome = true) (h : ∀ older ∈ t.olderMessages, older.id ≠ m.id) :
    (editTranscript (fun messages => m :: messages.filter fun existing => existing.id ≠ m.id) t).shown =
      Function.update t.shown m.id (some m) := by
  obtain ⟨newest, older, hp⟩ := List.exists_cons_of_ne_nil hpages
  funext id
  by_cases hid : id = m.id
  · subst hid
    have hcopies : (editTranscript (fun messages => m :: messages.filter fun existing => existing.id ≠ m.id) t).copies m.id = [m] := by
      rw [copies_editTranscript _ hp, filter_older h, List.filter_cons, if_pos (decide_eq_true rfl), List.filter_filter,
        List.append_nil]
      simp
    obtain ⟨previous, hshown⟩ := shown_of_copies_eq_append (l := []) hcopies
    rw [Function.update_self, hshown, absorb_of_isSome previous hm]
  · rw [Function.update_of_ne hid, shown_eq, shown_eq, copies_editTranscript _ hp, copies_eq_append hp, List.filter_cons,
      if_neg (by simpa using Ne.symm hid), List.filter_filter]
    congr 3
    funext existing
    by_cases he : existing.id = id
    · simp [he, hid]
    · simp [he]

/-- Every copy of a message changed the same way, to one with a tally. -/
theorem shown_map {t' : Transcript} (f : Message → Message) (hcopies : t'.copies id = (t.copies id).map f)
    (hf : ∀ m ∈ t.copies id, (f m).reactions.isSome = true)
    (habsorb : ∀ m ∈ t.copies id, ∀ previous, f (absorb previous m) = f m) : t'.shown id = (t.shown id).map f := by
  rcases List.eq_nil_or_concat (t.copies id) with hnil | ⟨l, x, happend⟩
  · rw [shown_of_copies_eq_nil hnil, shown_of_copies_eq_nil (by rw [hcopies, hnil]; rfl)]
    rfl
  · rw [List.concat_eq_append] at happend
    have hmem : x ∈ t.copies id := happend ▸ List.mem_append_right l List.mem_cons_self
    have hcopies' : t'.copies id = l.map f ++ [f x] := by rw [hcopies, happend, List.map_append, List.map_singleton]
    obtain ⟨previous, hshown⟩ := shown_of_copies_eq_append happend
    obtain ⟨previous', hshown'⟩ := shown_of_copies_eq_append hcopies'
    rw [hshown, hshown', absorb_of_isSome previous' (hf x hmem), Option.map_some, habsorb x hmem]

theorem shown_congr {t' : Transcript} (h : t'.copies id = t.copies id) : t'.shown id = t.shown id := by
  rw [shown_eq, shown_eq, h]

theorem filter_map_id (f : Message → Message) (hid : ∀ m, (f m).id = m.id) (l : List Message) :
    (l.map f).filter (fun m => m.id = id) = (l.filter fun m => m.id = id).map f := by
  rw [List.filter_map]
  have hcomp : ((fun m : Message => decide (m.id = id)) ∘ f) = fun m => decide (m.id = id) := by
    funext m
    exact congrArg (fun i => decide (i = id)) (hid m)
  rw [hcomp]

/-- A change to the copies of another message. -/
theorem filter_map_other (f : Message → Message) (hid : ∀ m, (f m).id = m.id) (l : List Message)
    (hother : ∀ m, m.id = id → f m = m) : (l.map f).filter (fun m => m.id = id) = l.filter fun m => m.id = id := by
  rw [filter_map_id f hid]
  conv_rhs => rw [← List.map_id (l.filter fun m => m.id = id)]
  exact List.map_congr_left fun m hm => hother m (of_decide_eq_true (List.mem_filter.1 hm).2)

theorem shown_eq_none : t.shown id = none ↔ t.copies id = [] := by
  constructor
  · intro h
    rcases List.eq_nil_or_concat (t.copies id) with hnil | ⟨l, x, happend⟩
    · exact hnil
    · rw [List.concat_eq_append] at happend
      obtain ⟨previous, hshown⟩ := shown_of_copies_eq_append happend
      rw [h] at hshown
      cases hshown
  · exact shown_of_copies_eq_nil

theorem setQueryData_self (q : QueryClient) (roomId : RoomId) (update : Transcript → Transcript) :
    setQueryData q roomId update roomId = (q roomId).map update := Function.update_self ..

theorem setQueryData_other {r roomId : RoomId} (q : QueryClient) (update : Transcript → Transcript) (h : r ≠ roomId) :
    setQueryData q r update roomId = q roomId := Function.update_of_ne (Ne.symm h) ..

/-- An edit of the newest page shows, where no older page holds the message. -/
theorem shown_edited (f : Message → Message) (hid : ∀ m, (f m).id = m.id) (hother : ∀ m, m.id ≠ id → f m = m)
    (hf : ∀ m, m.id = id → (f m).reactions.isSome = true ∧ ∀ previous, f (absorb previous m) = f m)
    (h : ∀ held, t.shown id = some held → ∀ older ∈ t.olderMessages, older.id ≠ id) :
    (editTranscript (·.map f) t).shown = Function.update t.shown id ((t.shown id).map f) := by
  rcases hp : t.pages with _ | ⟨newest, older⟩
  · have hsame : editTranscript (·.map f) t = t := by
      unfold editTranscript
      rw [hp]
    have hnone : t.shown id = none := shown_eq_none.2 (by unfold Transcript.copies Transcript.messages; rw [hp]; rfl)
    rw [hsame, hnone, Option.map_none, ← hnone, Function.update_eq_self]
  funext i
  by_cases hi : i = id
  · subst hi
    rw [Function.update_self]
    have hold : (t.olderMessages.filter fun m => m.id = i) = [] := by
      rcases hshown : t.shown i with _ | held
      · rw [shown_eq_none, copies_eq_append hp] at hshown
        exact (List.append_eq_nil_iff.1 hshown).2
      · exact filter_older (h held hshown)
    refine shown_map f ?_ (fun m hm => (hf m ?_).1) fun m hm => (hf m ?_).2
    · rw [copies_editTranscript _ hp, copies_eq_append hp, hold, List.append_nil, List.append_nil, filter_map_id f hid]
    all_goals exact of_decide_eq_true (List.mem_filter.1 hm).2
  · rw [Function.update_of_ne hi]
    refine shown_congr ?_
    rw [copies_editTranscript _ hp, copies_eq_append hp, filter_map_other f hid _ fun m hm => hother m (hm ▸ hi)]

theorem shown_deleted : (editPages (·.filter fun m => m.id ≠ id) t).shown = Function.update t.shown id none := by
  funext i
  by_cases hi : i = id
  · subst hi
    rw [Function.update_self, shown_eq_none, copies_eq_nil, messages_editPages_filter]
    intro m hm
    exact of_decide_eq_true (List.mem_filter.1 hm).2
  · rw [Function.update_of_ne hi]
    refine shown_congr ?_
    unfold Transcript.copies
    rw [messages_editPages_filter, List.filter_filter]
    refine List.filter_congr fun m _ => ?_
    by_cases hm : m.id = i
    · simp [hm, hi]
    · simp [hm]

/-- A change to every copy of a message, on whatever page. -/
theorem shown_retallied (f : Message → Message) (hid : ∀ m, (f m).id = m.id) (hother : ∀ m, m.id ≠ id → f m = m)
    (hf : ∀ m ∈ t.copies id, (f m).reactions.isSome = true ∧ ∀ previous, f (absorb previous m) = f m) :
    (editPages (·.map f) t).shown = Function.update t.shown id ((t.shown id).map f) := by
  funext i
  by_cases hi : i = id
  · subst hi
    rw [Function.update_self]
    refine shown_map f ?_ (fun m hm => (hf m hm).1) fun m hm => (hf m hm).2
    unfold Transcript.copies
    rw [messages_editPages_map, filter_map_id f hid]
  · rw [Function.update_of_ne hi]
    refine shown_congr ?_
    unfold Transcript.copies
    rw [messages_editPages_map, filter_map_other f hid _ fun m hm => hother m (hm ▸ hi)]

end Frames

/-! ## The list shown -/

section Shown

variable {viewer : UserId} {roomId : RoomId} {q : QueryClient} {t : Transcript} {causedBy : UserId} {frame : Frame}

/-- A frame that lands leaves the transcript showing what it delivers. -/
theorem shown_of_lands (hq : q roomId = some t) (h : Lands viewer roomId t causedBy frame) :
    ∃ t', cacheSync q frame roomId = some t' ∧ t'.shown = deliver viewer roomId t.shown causedBy frame := by
  -- every frame is a write to the transcript of the room it names, if that is the one on screen
  have hwrite : ∀ (r : RoomId) (update : Transcript → Transcript) (n : Newest),
      (r = roomId → (update t).shown = n) →
      ∃ t', setQueryData q r update roomId = some t' ∧ t'.shown = if r = roomId then n else t.shown := by
    intro r update n hshown
    by_cases hr : r = roomId
    · subst hr
      rw [setQueryData_self, hq, if_pos rfl]
      exact ⟨update t, rfl, hshown rfl⟩
    · rw [setQueryData_other q update hr, if_neg hr]
      exact ⟨t, hq, rfl⟩
  cases frame with
  | messageCreated r m reactions anonymousAuthor =>
    refine hwrite r _ _ fun hr => ?_
    obtain ⟨hpages, holder⟩ := h hr
    have hshown := shown_created (m := { m with
      reactions := m.reactions.or (some (reactions.getD []))
      anonymousAuthor := m.anonymousAuthor.or anonymousAuthor }) hpages (by rw [or_some]; rfl) holder
    rw [hshown, or_some]
  | messageUpdated r m reactions anonymousAuthor =>
    refine hwrite r _ _ fun hr => ?_
    have hland := h hr
    rw [shown_edited _ (fun x => ?_) (fun x (hx : x.id ≠ m.id) => if_neg hx) (fun x hx => ⟨?_, fun previous => ?_⟩)
      fun held hheld => (hland held hheld).1]
    · refine congrArg _ (Option.map_congr fun held hheld => ?_)
      rw [if_pos (id_of_shown hheld), or_some, Option.some_or]
      by_cases hcaused : causedBy = viewer
      · simp only [if_pos hcaused]
      · simp only [if_neg hcaused, ((hland held hheld).2 hcaused).1]
    · split
      · rename_i hx
        exact hx.symm
      · rfl
    · rw [if_pos hx, or_some]
      rfl
    · rw [if_pos hx, if_pos (show (absorb previous x).id = m.id from hx), or_some]
      rfl
  | messageDeleted r id => exact hwrite r _ _ fun _ => shown_deleted
  | reactionsUpdated r id reactions =>
    refine hwrite r _ _ fun hr => ?_
    have hland := h hr
    have htally : ∀ x ∈ t.copies id, x.id = id ∧ x.reactions.isSome = true := by
      intro x hx
      obtain ⟨hmem, hid⟩ := List.mem_filter.1 hx
      obtain ⟨held, hheld⟩ := Option.ne_none_iff_exists'.1 fun hnone => List.ne_nil_of_mem hx (shown_eq_none.1 hnone)
      exact ⟨of_decide_eq_true hid, (hland held hheld).1 x hmem (of_decide_eq_true hid)⟩
    -- no copy lacks a tally, for the sake of which the frame would be passed over
    have hany : ¬ (t.messages.any fun message => message.id = id && message.reactions.isNone) = true := by
      rw [List.any_eq_true]
      rintro ⟨x, hx, hboth⟩
      obtain ⟨hid, hnone⟩ := Bool.and_eq_true_iff.1 hboth
      have hsome := (htally x (List.mem_filter.2 ⟨hx, hid⟩)).2
      rw [Option.isNone_iff_eq_none.1 hnone] at hsome
      cases hsome
    rw [if_neg hany, shown_retallied _ (fun x => ?_) (fun x (hx : x.id ≠ id) => if_pos hx) fun x hx => ⟨?_, fun previous => ?_⟩]
    · refine congrArg _ (Option.map_congr fun held hheld => ?_)
      rw [if_neg (not_not_intro (id_of_shown hheld))]
      rfl
    · split <;> rfl
    · rw [if_neg (not_not_intro (htally x hx).1)]
      rfl
    · rw [absorb_of_isSome previous (htally x hx).2]

/-! ### Marks -/

theorem own_eq (hq : q roomId = some t) (id : MessageId) :
    QueryClient.own roomId q id = ((t.shown id).map Message.own).getD [] := by
  unfold QueryClient.own
  rw [hq]
  rfl

theorem mem_ownIn_remark {mine : List String} {tally : List ReactionSummary} {reaction : String} :
    reaction ∈ ownIn (remark mine tally) ↔ reaction ∈ mine ∧ reaction ∈ tally.map (·.reaction) := by
  unfold ownIn remark
  simp only [List.mem_map, List.mem_filter]
  constructor
  · rintro ⟨_, ⟨⟨entry, hentry, rfl⟩, hme⟩, rfl⟩
    exact ⟨of_decide_eq_true hme, entry, hentry, rfl⟩
  · rintro ⟨hmine, entry, hentry, rfl⟩
    exact ⟨_, ⟨⟨entry, hentry, rfl⟩, decide_eq_true hmine⟩, rfl⟩

/-- Of someone else's edit or reaction, what is delivered is marked as before. -/
theorem own_delivered (h : Lands viewer roomId t causedBy frame) (hcaused : causedBy ≠ viewer) (hchange : frame.isChange = true)
    (id : MessageId) (reaction : String) :
    reaction ∈ (((deliver viewer roomId t.shown causedBy frame id).map Message.own).getD [] : List String) ↔
      reaction ∈ ((t.shown id).map Message.own).getD [] := by
  have hsame : ∀ (r : RoomId) (i : MessageId) (change : Message → Message),
      (r = roomId → ∀ held, t.shown i = some held → (reaction ∈ (change held).own ↔ reaction ∈ held.own)) →
      (reaction ∈ ((((if r = roomId then Function.update t.shown i ((t.shown i).map change) else t.shown) id).map Message.own).getD []
        : List String) ↔ reaction ∈ ((t.shown id).map Message.own).getD []) := by
    intro r i change hown
    split
    · rename_i hr
      by_cases hi : id = i
      · subst hi
        rw [Function.update_self]
        rcases hheld : t.shown id with _ | held
        · rfl
        · exact hown hr held hheld
      · rw [Function.update_of_ne hi]
    · rfl
  cases frame with
  | messageCreated r m reactions anonymousAuthor => cases hchange
  | messageUpdated r m reactions anonymousAuthor =>
    refine hsame r m.id _ fun hr held hheld => ?_
    have hkeys := ((h hr held hheld).2 hcaused).2 reaction
    simp only [if_neg hcaused]
    exact mem_ownIn_remark.trans (and_iff_left_of_imp hkeys)
  | messageDeleted r id => cases hchange
  | reactionsUpdated r i reactions =>
    refine hsame r i _ fun hr held hheld => ?_
    exact mem_ownIn_remark.trans (and_iff_left_of_imp ((h hr held hheld).2 hcaused reaction))

/-! ### Runs -/

/-- The transcript shows what was delivered. -/
def Reader.InStep (roomId : RoomId) (s : Reader) : Prop := ∃ t, s.cache roomId = some t ∧ t.shown = s.newest

theorem Reader.InStep.showsNewest {s : Reader} (c : Collation) (h : s.InStep roomId) : s.ShowsNewest c roomId := by
  obtain ⟨t, hcache, hshown⟩ := h
  exact ⟨t, hcache, nodup_items c t, fun m => by rw [mem_items, hshown]⟩

theorem Reader.InStep.step {s : Reader} {d : Delivery} (h : s.InStep roomId) (hd : s.Lands viewer roomId d) :
    (s.step viewer roomId d).InStep roomId ∧ s.KeepsMarks viewer roomId d := by
  obtain ⟨t, hcache, hshown⟩ := h
  have hland := hd t hcache
  obtain ⟨t', hcache', hshown'⟩ := shown_of_lands hcache hland
  refine ⟨⟨t', hcache', by rw [hshown', hshown]; rfl⟩, fun hcaused hchange id reaction => ?_⟩
  rw [own_eq hcache, own_eq (q := (s.step viewer roomId d).cache) (t := t') hcache', hshown']
  exact own_delivered hland hcaused hchange id reaction

/-- In every run whose frames land, the list shown has each message once, in the state it was last delivered in, and no
edit or reaction of someone else changes what is marked as the viewer's own. -/
theorem shown_newest (c : Collation) (viewer : UserId) (hq : q roomId = some t) (ds : List Delivery)
    (h : Along (Reader.step viewer roomId) (Reader.Lands viewer roomId) (Reader.start roomId q) ds) :
    Always (Reader.step viewer roomId) (Reader.ShowsNewest c roomId) (Reader.start roomId q) ds ∧
      Along (Reader.step viewer roomId) (Reader.KeepsMarks viewer roomId) (Reader.start roomId q) ds := by
  have hstart : (Reader.start roomId q).InStep roomId := by
    refine ⟨t, hq, ?_⟩
    unfold Reader.start
    rw [hq]
    rfl
  constructor
  · exact (always_of_along (fun s d hs hd => (hs.step hd).1) hstart h).mono fun s hs => hs.showsNewest c
  · exact along_of_along (fun s d hs hd => hs.step hd) hstart h

end Shown

/-! ## Whose marks an edit carries -/

section Edited

variable {id : MessageId} {u : UserId} {content : String} {db db' : Messages.ChatDb} {e : Messages.Edited}

theorem me_of_mem_summaries {db : ReactionDb} {s : ReactionSummary} (h : s ∈ reactionSummaries db id u) :
    s.me = db.messageReactions.contains (id, u, s.reaction) := by
  unfold reactionSummaries at h
  rw [List.mem_insertionSort] at h
  obtain ⟨reaction, -, rfl⟩ := List.mem_map.1 h
  rw [Bool.eq_iff_iff, List.any_eq_true, Table.contains_iff]
  constructor
  · rintro ⟨row, hrow, hboth⟩
    obtain ⟨hmem, hid⟩ := List.mem_filter.1 hrow
    obtain ⟨hreaction, huser⟩ := Bool.and_eq_true_iff.1 hboth
    refine ⟨row, Table.find_eq_some.2 ⟨hmem, ?_⟩⟩
    rw [← of_decide_eq_true hid, ← of_decide_eq_true hreaction, ← of_decide_eq_true huser]
    rfl
  · rintro ⟨row, hfind⟩
    obtain ⟨hmem, hkey⟩ := Table.find_eq_some.1 hfind
    obtain ⟨hid, huser, hreaction⟩ : row.messageId = id ∧ row.userId = u ∧ row.reaction = reaction := by
      simpa [key] using hkey
    refine ⟨row, List.mem_filter.2 ⟨hmem, decide_eq_true hid⟩, ?_⟩
    rw [hreaction, huser]
    simp

theorem mem_of_get_summariesFor {db : ReactionDb} {summaries : List ReactionSummary} {s : ReactionSummary}
    (h : (reactionSummariesFor db [id] u).get id = some summaries) (hs : s ∈ summaries) : s ∈ reactionSummaries db id u := by
  unfold reactionSummariesFor at h
  rw [List.filter_cons] at h
  split at h
  · rw [List.filter_nil, List.foldl_cons, List.foldl_nil, Map.get_set_self] at h
    cases h
    exact hs
  · rw [List.filter_nil, List.foldl_nil, Map.get_empty] at h
    cases h

/-- The event of an edit marks what its author has reacted with. -/
theorem edited_marks (h : (Messages.edit id u content).exec db = (.ok e, db')) :
    ∃ roomId m tally identity, e.event = .messageUpdated roomId m tally identity ∧
      ∀ s ∈ tally, s.me = db.messageReactions.contains (id, u, s.reaction) := by
  unfold Messages.edit at h
  rw [Prog.exec_query_bind] at h
  rcases hcheck : checkEdit db.toDb id u content with error | text
  · rw [hcheck] at h
    cases h
  rw [hcheck] at h
  obtain ⟨updated, db₁, hupdated, h⟩ := Prog.bind_ok h
  rw [Prog.exec_read_bind, Prog.exec_read_bind, Prog.exec_pure] at h
  have hreactions : db₁.messageReactions = db.messageReactions := by
    unfold Messages.updateContent at hupdated
    rw [Prog.exec_modify_bind, Prog.exec_query] at hupdated
    rw [← (Prod.mk.inj hupdated).2]
  cases (Prod.mk.inj h).1
  refine ⟨_, _, _, _, rfl, fun s hs => ?_⟩
  rw [← hreactions]
  obtain ⟨summaries, hsummaries, hs⟩ : ∃ summaries : List ReactionSummary,
      ((reactionsFor updated.roomId u [id]).exec db₁.toReactionDb).1.toOption.bind (fun tallies => tallies.get id) = some summaries ∧
        s ∈ summaries := by
    rcases hget : ((reactionsFor updated.roomId u [id]).exec db₁.toReactionDb).1.toOption.bind (fun tallies => tallies.get id)
      with _ | summaries
    · rw [hget] at hs
      cases hs
    · exact ⟨summaries, rfl, by rwa [hget] at hs⟩
  have hsummary : s ∈ reactionSummaries db₁.toReactionDb id u := by
    unfold reactionsFor at hsummaries
    rw [Prog.exec_query_bind] at hsummaries
    rcases haccess : visibleAccess db₁.toDb updated.roomId u with error | a <;> rw [haccess] at hsummaries
    · cases hsummaries
    · rw [Prog.exec_read] at hsummaries
      exact mem_of_get_summariesFor hsummaries hs
  exact me_of_mem_summaries hsummary

end Edited

/-! ### An edit by someone else -/

/-- `ben` wrote in the den, and `ana` reacted. -/
def den : Messages.ChatDb where
  toDb := run Room.step (Infrastructure.Db.empty 0)
    [.register (account ⟨1⟩ "ana"), .register (account ⟨2⟩ "ben"), .create ⟨10⟩ none ⟨2⟩ { name := "den", roomType := .text },
      .join ⟨10⟩ ⟨1⟩, .post ⟨20⟩ ⟨10⟩ ⟨2⟩ "helo" false none none]
  messageReactions := Table.empty.insert ⟨⟨20⟩, ⟨1⟩, "+1", 0⟩
  communityEmojis := .empty
  pinnedMessages := .empty

/-- What he wrote, as `ana` was sent it, and as it reads when he has put it right. -/
def helo : Message where
  id := ⟨20⟩
  roomId := ⟨10⟩
  authorId := ⟨2⟩
  content := "helo"
  replyToId := none
  isAnonymous := false
  editedAt := none
  createdAt := 0
  reactions := some [⟨"+1", 1, true⟩]
  anonymousAuthor := none

def hello : Message := { helo with content := "hello", editedAt := some 0 }

/-- The frame his edit is told with. -/
def corrected : Option Frame := ((Messages.edit ⟨20⟩ ⟨2⟩ "hello").exec den).1.toOption.bind fun e => frameOf e.event

/-- The edit, as it is told when `ben` has reacted as well, and when not. -/
def edited (both : Bool) : Frame :=
  .messageUpdated ⟨10⟩ { hello with reactions := none } (some [⟨"+1", if both then 2 else 1, both⟩]) none

def later : Message := { helo with id := ⟨21⟩, content := "anyone?", createdAt := 1, reactions := some [] }

/-- `ana`'s transcript of the den, with what `ben` wrote on the newest page, or on the one before. -/
def transcript (older : Bool) : Transcript :=
  ⟨if older then [⟨[later], some 1, some ⟨21⟩⟩, ⟨[helo], none, none⟩] else [⟨[helo], none, none⟩]⟩

def held (older : Bool) : QueryClient := fun r => if r = ⟨10⟩ then some (transcript older) else none

def byCodePoint : Collation where
  localeCompare a b := if a < b then -1 else if a = b then 0 else 1
  timestampText := toString

/-- As the server tells it, the edit takes `ana`'s mark from her reaction; and from the newest page it does not get to what
`ben` wrote on the page before. -/
theorem edit_mistold :
    corrected = some (edited false) ∧
    (¬ ∀ (c : Collation) (viewer : UserId) (roomId : RoomId) (q : QueryClient) (t : Transcript) (ds : List Delivery),
      q roomId = some t → Always (Reader.step viewer roomId) (Reader.ShowsNewest c roomId) (Reader.start roomId q) ds) ∧
    ¬ ∀ (viewer : UserId) (roomId : RoomId) (q : QueryClient) (t : Transcript) (ds : List Delivery),
      q roomId = some t → Along (Reader.step viewer roomId) (Reader.KeepsMarks viewer roomId) (Reader.start roomId q) ds := by
  refine ⟨by decide +kernel, fun h => ?_, fun h => ?_⟩
  · obtain ⟨t, ht, -, hmem⟩ := (h byCodePoint ⟨1⟩ ⟨10⟩ (held true) _ [⟨edited false, ⟨2⟩⟩] rfl).last
    have hitem : hello ∈ t.items byCodePoint := (hmem hello).2 (by decide +kernel)
    rw [mem_items] at hitem
    have hnot : ((cacheSync (held true) (edited false) ⟨10⟩).bind fun t => t.shown hello.id) ≠ some hello := by decide +kernel
    have ht' : cacheSync (held true) (edited false) ⟨10⟩ = some t := ht
    rw [ht'] at hnot
    exact hnot hitem
  · have hkeeps := (h ⟨1⟩ ⟨10⟩ (held false) _ [⟨edited false, ⟨2⟩⟩] rfl).1 (by decide) rfl ⟨20⟩ "+1"
    have hbefore : "+1" ∈ QueryClient.own ⟨10⟩ (held false) ⟨20⟩ := by decide +kernel
    have hafter : "+1" ∉ QueryClient.own ⟨10⟩ (cacheSync (held false) (edited false)) ⟨20⟩ := by decide +kernel
    exact hafter (hkeeps.2 hbefore)

/-- The same edit of a message on the newest page, when both have reacted. -/
theorem edit_told :
    Always (Reader.step ⟨1⟩ ⟨10⟩) (Reader.ShowsNewest byCodePoint ⟨10⟩) (Reader.start ⟨10⟩ (held false)) [⟨edited true, ⟨2⟩⟩] ∧
      Along (Reader.step ⟨1⟩ ⟨10⟩) (Reader.KeepsMarks ⟨1⟩ ⟨10⟩) (Reader.start ⟨10⟩ (held false)) [⟨edited true, ⟨2⟩⟩] := by
  refine shown_newest (t := transcript false) byCodePoint ⟨1⟩ rfl _ ⟨?_, trivial⟩
  rintro t ⟨⟩ - m hm
  have hshown : (transcript false).shown hello.id = some helo := by decide +kernel
  obtain rfl : helo = m := Option.some.inj (hshown.symm.trans hm)
  refine ⟨fun older hold => (by cases hold), fun _ => ⟨by decide +kernel, by decide +kernel⟩⟩

end Genzh.Client.Cache
