/-
Two worlds that differ in who of two participants wrote an anonymous message, seen by somebody else. Every view of the
message is its row, and its row names the account that wrote it; the alias stands beside it. So what shows the message tells
the two apart, and what does not show it does not; a notification and the audit of posting and editing name nobody, and the
audit of a deletion names whoever deleted it.

`authorship_shown` says so view by view.
-/
import Genzh.Api.Messages

namespace Genzh.Api.Messages

open Genzh.Lib Genzh.Domain Genzh.Infrastructure Genzh.Room Genzh.Messaging Genzh.Notification

/-! ## Up to the alias -/

/-- An identity, less what the alias is made of. -/
def withoutAlias (identity : RoomAnonymousIdentity) : RoomAnonymousIdentity :=
  { identity with aliasName := "", avatarSeed := "", accentColor := "", createdAt := 0 }

def MessageView.withoutAlias (v : MessageView) : MessageView :=
  { v with anonymousAuthor := v.anonymousAuthor.map Messages.withoutAlias }

def HistoryResponse.withoutAlias (page : HistoryResponse) : HistoryResponse :=
  { page with messages := page.messages.map MessageView.withoutAlias }

def eventWithoutAlias : ChatServerEvent → ChatServerEvent
  | .messageCreated r m reactions identity => .messageCreated r m reactions (identity.map withoutAlias)
  | .messageUpdated r m reactions identity => .messageUpdated r m reactions (identity.map withoutAlias)
  | e => e

/-! ## What may be read -/

/-- What a participant may ask for. -/
inductive Reading where
  | history (r : RoomId) (before : Option Timestamp) (beforeId : Option MessageId) (limit : Option Int)
  | pins (r : RoomId)
  | search (query : String) (r : Option RoomId) (limit : Option Int)
  deriving DecidableEq, Repr

inductive Reply where
  | page (page : HistoryResponse)
  | messages (messages : List Message)
  deriving DecidableEq, Repr

def Reply.withoutAlias : Reply → Reply
  | page p => page p.withoutAlias
  | messages ms => messages ms

/-- The answer of the API. -/
def answer (engine : TextSearch) (u : UserId) (db : ChatDb) : Reading → Except ServiceError Reply
  | .history r before beforeId limit => (list db r u before beforeId limit).map .page
  | .pins r => (pins db r u).map .messages
  | .search query r limit => (search engine db.toDb u query r limit).map .messages

/-- The messages an answer is made of. -/
def selected (engine : TextSearch) (u : UserId) (db : ChatDb) : Reading → List Message
  | .history r before beforeId limit =>
    if (visibleAccess db.toDb r u).isOk then (listMessages db.toDb r before beforeId (clampPageSize limit).toNat).messages else []
  | .pins r => if (visibleAccess db.toDb r u).isOk then pinnedMessages db r else []
  | .search query r limit => ((search engine db.toDb u query r limit).toOption).getD []

/-- The answers of two worlds to the same question are the same, up to the alias. -/
def SameAnswer (engine : TextSearch) (u : UserId) (db db' : ChatDb) (o : Reading) : Prop :=
  (answer engine u db o).map Reply.withoutAlias = (answer engine u db' o).map Reply.withoutAlias

/-! ## The other author -/

section Reauthored

variable (id : MessageId) (b : UserId)

/-- The row, had `b` written the message. -/
def byAuthor (m : Message) : Message := if m.id = id then { m with authorId := b } else m

/-- The same world, had `b` written the message. -/
def ChatDb.reauthored (db : ChatDb) : ChatDb :=
  { db with messages := db.messages.update id (fun m => { m with authorId := b }) fun _ => rfl }

variable {id b} {db : ChatDb}

theorem rows_reauthored : (db.reauthored id b).messages.rows = db.messages.rows.map (byAuthor id b) := by
  refine List.map_congr_left fun m _ => ?_
  unfold byAuthor
  by_cases h : m.id = id <;> simp [key, h]

theorem find_reauthored (k : MessageId) : (db.reauthored id b).messages.find k = (db.messages.find k).map (byAuthor id b) := by
  refine (Table.find_update db.messages id k (fun m => { m with authorId := b }) fun _ => rfl).trans ?_
  rcases hfind : db.messages.find k with _ | m
  · simp
  · obtain rfl := Table.find_key hfind
    by_cases h : id = key m
    · have hm : m.id = id := h.symm
      simp [byAuthor, hm, h]
    · have hm : m.id ≠ id := fun hm => h hm.symm
      simp [byAuthor, hm, h]

/-- What asks for nothing of the author finds the same rows in both worlds. -/
theorem select_reauthored {p : Message → Bool} (hp : ∀ m, p (byAuthor id b m) = p m) :
    (db.reauthored id b).messages.select p = (db.messages.select p).map (byAuthor id b) := by
  unfold Table.select
  rw [rows_reauthored, List.filter_map]
  congr 2
  funext m
  exact hp m

theorem byAuthor_fields (id : MessageId) (b : UserId) (m : Message) : (byAuthor id b m).id = m.id ∧ (byAuthor id b m).roomId = m.roomId ∧
    (byAuthor id b m).content = m.content ∧ (byAuthor id b m).createdAt = m.createdAt := by
  unfold byAuthor
  split <;> exact ⟨rfl, rfl, rfl, rfl⟩

theorem listMessages_reauthored (r : RoomId) (before : Option Timestamp) (beforeId : Option MessageId) (limit : Nat) :
    listMessages (db.reauthored id b).toDb r before beforeId limit =
      { listMessages db.toDb r before beforeId limit with
        messages := (listMessages db.toDb r before beforeId limit).messages.map (byAuthor id b) } := by
  have hrows : ((db.reauthored id b).messages.select fun m => m.roomId = r && beforeCursor before beforeId m).insertionSort
      (fun m n => newestFirst m n) = ((db.messages.select fun m => m.roomId = r && beforeCursor before beforeId m).insertionSort
        fun m n => newestFirst m n).map (byAuthor id b) := by
    rw [select_reauthored]
    · refine (List.map_insertionSort _ _ (byAuthor id b) _ fun m _ n _ => ?_).symm
      obtain ⟨hmid, -, -, hmat⟩ := byAuthor_fields id b m
      obtain ⟨hnid, -, -, hnat⟩ := byAuthor_fields id b n
      unfold newestFirst
      rw [hmid, hmat, hnid, hnat]
    · intro m
      obtain ⟨hmid, hroom, -, hmat⟩ := byAuthor_fields id b m
      unfold beforeCursor
      rw [hmid, hroom, hmat]
  have hlast : ∀ (last : Option Message) (α : Type) (g : Message → α), (∀ m, g (byAuthor id b m) = g m) →
      (last.map (byAuthor id b)).map g = last.map g := by
    intro last α g hg
    rw [Option.map_map]
    exact congrArg (fun f => last.map f) (funext hg)
  unfold listMessages
  simp only [hrows, ← List.map_take, List.length_map, List.getLast?_map]
  split
  · rw [hlast _ _ _ fun m => (byAuthor_fields id b m).2.2.2, hlast _ _ _ fun m => (byAuthor_fields id b m).1]
  · rfl

theorem pinnedMessages_reauthored (r : RoomId) :
    pinnedMessages (db.reauthored id b) r = (pinnedMessages db r).map (byAuthor id b) := by
  unfold pinnedMessages
  rw [List.map_take, List.map_filterMap]
  refine congrArg (List.take 100) (List.filterMap_congr fun pin _ => ?_)
  exact find_reauthored pin.messageId

theorem searchMessages_reauthored (engine : TextSearch) (u : UserId) (query : String) (r : Option RoomId) (limit : Int) :
    searchMessages engine (db.reauthored id b).toDb u query r limit =
      (searchMessages engine db.toDb u query r limit).map (byAuthor id b) := by
  unfold searchMessages
  rw [List.map_take]
  refine congrArg (List.take limit.toNat) ?_
  rw [select_reauthored]
  · refine (List.map_insertionSort _ _ (byAuthor id b) _ fun m _ n _ => ?_).symm
    obtain ⟨-, -, hmtext, hmat⟩ := byAuthor_fields id b m
    obtain ⟨-, -, hntext, hnat⟩ := byAuthor_fields id b n
    unfold ranksFirst
    rw [hmtext, hmat, hntext, hnat]
  · intro m
    obtain ⟨-, hroom, htext, -⟩ := byAuthor_fields id b m
    unfold found
    rw [hroom, htext]

theorem visibleAccess_reauthored (r : RoomId) (u : UserId) :
    visibleAccess (db.reauthored id b).toDb r u = visibleAccess db.toDb r u := rfl

theorem search_reauthored (engine : TextSearch) (u : UserId) (query : String) (r : Option RoomId) (limit : Option Int) :
    search engine (db.reauthored id b).toDb u query r limit =
      (search engine db.toDb u query r limit).map (List.map (byAuthor id b)) := by
  unfold search
  simp only [searchMessages_reauthored]
  by_cases hempty : (trim query).isEmpty = true
  · rw [if_pos hempty, if_pos hempty]
    rfl
  · rw [if_neg hempty, if_neg hempty]
    cases r with
    | none => rfl
    | some r =>
      simp only [visibleAccess_reauthored]
      rcases visibleAccess db.toDb r u with e | a <;> rfl

/-- The messages an answer is made of are rows of the table. -/
theorem mem_selected {engine : TextSearch} {u : UserId} {o : Reading} {m : Message} (h : m ∈ selected engine u db o) :
    m ∈ db.messages.rows := by
  cases o with
  | history r before beforeId limit =>
    simp only [selected] at h
    split at h
    · exact (Table.mem_select.1 ((List.mem_insertionSort _).1 (List.mem_of_mem_take (List.mem_of_mem_take h)))).1
    · cases h
  | pins r =>
    simp only [selected] at h
    split at h
    · obtain ⟨pin, -, hpin⟩ := List.mem_filterMap.1 (List.mem_of_mem_take h)
      exact (Table.find_eq_some.1 hpin).1
    · cases h
  | search query r limit =>
    simp only [selected] at h
    rcases search_cases engine db.toDb u query r limit with ⟨-, hnone⟩ | ⟨r', e, -, -, hrefused⟩ | ⟨-, hasked⟩
    · rw [hnone] at h
      cases h
    · rw [hrefused] at h
      cases h
    · rw [hasked] at h
      exact (mem_searchMessages h).1

/-- A list of rows is the same in both worlds if the message is not in it. -/
theorem map_byAuthor_eq_iff {m : Message} (hm : db.messages.find id = some m) (hb : m.authorId ≠ b) {l : List Message}
    (hl : ∀ m' ∈ l, m' ∈ db.messages.rows) : l.map (byAuthor id b) = l ↔ ∀ m' ∈ l, m'.id ≠ id := by
  obtain ⟨hmem, hid⟩ := Table.find_eq_some.1 hm
  have heach : l.map (byAuthor id b) = l ↔ ∀ m' ∈ l, byAuthor id b m' = m' := by
    have hmap := List.map_inj_left (f := byAuthor id b) (g := fun m' => m') (l := l)
    rwa [List.map_id'] at hmap
  rw [heach]
  refine forall₂_congr fun m' hm' => ?_
  unfold byAuthor
  constructor
  · intro h hid'
    rw [if_pos hid'] at h
    obtain rfl : m' = m := List.inj_on_of_nodup_map db.messages.nodup (hl m' hm') hmem (hid'.trans hid.symm)
    exact hb (congrArg Message.authorId h).symm
  · intro h
    rw [if_neg h]

/-- A page of history is refused where the room is not visible, and otherwise shows what the repository reads. -/
theorem list_eq (r : RoomId) (u : UserId) (before : Option Timestamp) (beforeId : Option MessageId) (limit : Option Int) :
    list db r u before beforeId limit = (visibleAccess db.toDb r u).map fun _ =>
      historyResponse db.toDb r (listMessages db.toDb r before beforeId (clampPageSize limit).toNat)
        (reactionSummariesFor db.toReactionDb
          ((listMessages db.toDb r before beforeId (clampPageSize limit).toNat).messages.map (·.id)) u) := by
  unfold list history reactionsFor
  simp only [Prog.exec_query_bind]
  rcases visibleAccess db.toDb r u with e | a <;> rfl

/-- Taking the alias away leaves the rows. -/
theorem messages_withoutAlias (db : Db) (r : RoomId) (page : MessagePage) (reactions : Map MessageId (List ReactionSummary)) :
    (historyResponse db r page reactions).withoutAlias.messages.map (·.message) = page.messages := by
  simp only [historyResponse, HistoryResponse.withoutAlias, List.map_map]
  exact List.map_id' page.messages

/-- An answer is the same in both worlds, up to the alias, exactly if it does not show the message. -/
theorem sameAnswer_iff {m : Message} (hm : db.messages.find id = some m) (hb : m.authorId ≠ b) (engine : TextSearch) (u : UserId)
    (o : Reading) : SameAnswer engine u db (db.reauthored id b) o ↔ ∀ m' ∈ selected engine u db o, m'.id ≠ id := by
  rw [← map_byAuthor_eq_iff hm hb fun m' => mem_selected]
  unfold SameAnswer
  cases o with
  | history r before beforeId limit =>
    simp only [answer, selected, list_eq, visibleAccess_reauthored, listMessages_reauthored]
    rcases visibleAccess db.toDb r u with e | a
    · exact iff_of_true rfl rfl
    generalize listMessages db.toDb r before beforeId (clampPageSize limit).toNat = page
    constructor
    · intro h
      have hpages := congrArg (fun page : HistoryResponse => page.messages.map (·.message)) (Reply.page.inj (Except.ok.inj h))
      simp only [messages_withoutAlias] at hpages
      exact hpages.symm
    · intro h
      have h : page.messages.map (byAuthor id b) = page.messages := h
      rw [h]
      rfl
  | pins r =>
    simp only [answer, selected, pins, visibleAccess_reauthored, pinnedMessages_reauthored]
    rcases visibleAccess db.toDb r u with e | a
    · exact iff_of_true rfl rfl
    · constructor
      · intro h
        exact (Reply.messages.inj (Except.ok.inj h)).symm
      · intro h
        exact congrArg (fun l => Except.ok (Reply.messages l)) (Eq.symm h)
  | search query r limit =>
    simp only [answer, selected, search_reauthored]
    rcases search engine db.toDb u query r limit with e | ms
    · exact iff_of_true rfl rfl
    · constructor
      · intro h
        exact (Reply.messages.inj (Except.ok.inj h)).symm
      · intro h
        exact congrArg (fun l => Except.ok (Reply.messages l)) (Eq.symm h)

end Reauthored

/-! ## Posting -/

/-- A message may be sent over the API or over a socket. -/
inductive Sending where
  | request (isAnonymous : Option Bool) (replyTo : Option MessageId)
  | socket (isAnonymous : Option Bool)
  deriving DecidableEq, Repr

/-- What it answers, where it does. -/
def Sending.replyTo : Sending → Option MessageId
  | request _ replyTo => replyTo
  | socket _ => none

/-- The message is sent by a user. -/
def Sending.by (s : Sending) (env : Surroundings) (id : MessageId) (r : RoomId) (u : UserId) (content : String)
    (verdict : Option FloodVerdict) : ChatM Posted :=
  match s with
  | request isAnonymous replyTo => post env id r u content isAnonymous verdict replyTo
  | socket isAnonymous => sendMessage env id r u content isAnonymous verdict

/-- The audit log keeps a message that was posted over the API. -/
def Sending.audit (s : Sending) (masked : Bool) (u : UserId) (r : RoomId) (message : Message) : Option AuditRecord :=
  match s with
  | request .. => some (createdAudit masked u r message)
  | socket _ => none

section Posting

variable {env : Surroundings} {id : MessageId} {r : RoomId} {u a b : UserId} {content : String} {replyTo : Option MessageId}
  {verdict : Option FloodVerdict} {db db' : ChatDb} {masked : Bool} {p : Posted}

/-- The row of a message that was just posted. -/
def storedMessage (id : MessageId) (r : RoomId) (u : UserId) (content : String) (masked : Bool) (replyTo : Option MessageId)
    (now : Timestamp) : Message where
  id := id
  roomId := r
  authorId := u
  content := trim content
  replyToId := replyTo
  isAnonymous := masked
  editedAt := none
  createdAt := now

theorem overDb_ok {α : Type} {m : SqlM α} {x : α} (h : (overDb m).exec db = (.ok x, db')) :
    m.exec db.toDb = (.ok x, db'.toDb) := by
  obtain ⟨houtcome, rfl⟩ := Prod.mk.inj h
  exact Prod.ext houtcome rfl

/-- What a post stores is the text, trimmed. -/
theorem checkPost_text {rest : Db} {text : String} (h : checkPost rest r u content verdict replyTo = .ok text) :
    text = trim content := by
  unfold checkPost at h
  obtain ⟨a, -, h⟩ := Prog.bind_eq_ok h
  obtain ⟨-, -, h⟩ := Prog.bind_eq_ok h
  obtain ⟨valid, hvalid, h⟩ := Prog.bind_eq_ok h
  obtain ⟨-, -, h⟩ := Prog.bind_eq_ok h
  obtain ⟨-, -, h⟩ := Prog.bind_eq_ok h
  obtain ⟨-, -, h⟩ := Prog.bind_eq_ok h
  cases h
  rcases hcontent : validateMessageContent content with e | valid'
  · rw [hcontent] at hvalid
    cases hvalid
  · rw [hcontent] at hvalid
    cases hvalid
    exact (validateMessageContent_ok hcontent).1

/-- A post is of somebody who sees the room, and touches nothing but the messages. -/
theorem post_stored {message : Message} {rest rest' : Db}
    (h : (Messaging.post id r u content masked verdict replyTo).exec rest = (.ok message, rest')) :
    message = storedMessage id r u content masked replyTo rest.now ∧ core rest' = core rest ∧
      ∃ access, visibleAccess rest r u = .ok access := by
  unfold Messaging.post at h
  rw [Prog.exec_query_bind] at h
  rcases hcheck : checkPost rest r u content verdict replyTo with e | text
  · rw [hcheck] at h
    cases h
  rw [hcheck] at h
  unfold insertMessage at h
  simp only [Prog.exec_read_bind, SqlM.exec_check_bind] at h
  split at h
  · split at h
    · simp only [Prog.exec_modify_bind, Prog.exec_pure, Prod.mk.injEq, Except.ok.injEq] at h
      obtain ⟨rfl, rfl⟩ := h
      obtain ⟨access, haccess, -⟩ := Prog.bind_eq_ok hcheck
      rw [checkPost_text hcheck]
      exact ⟨rfl, rfl, access, haccess⟩
    · cases h
  · cases h

theorem core_identityFor (masked : Bool) (r : RoomId) (u : UserId) :
    Prog.Frames (fun db : ChatDb => core db.toDb) (identityFor masked r u) := by
  unfold identityFor
  split
  · exact fun db => frames_identity (fun _ _ => rfl) r u db.toDb
  · exact Prog.Frames.pure _

/-- What leaves the server about a message that was posted. -/
structure Published (env : Surroundings) (id : MessageId) (r : RoomId) (u : UserId) (content : String) (replyTo : Option MessageId)
    (db : ChatDb) (p : Posted) : Prop where
  message : p.message = storedMessage id r u content p.message.isAnonymous replyTo db.now
  event : ∃ identity, p.event = createdEvent p.message identity
  notifications : ∃ row, db.room r = some row ∧
    p.notifications = planned env (core db.toDb) row.toRoom p.message (publicActor p.message.isAnonymous u)

theorem post_published {isAnonymous : Option Bool}
    (h : (post env id r u content isAnonymous verdict replyTo).exec db = (.ok p, db')) :
    Published env id r u content replyTo db p ∧ p.audit = some (createdAudit p.message.isAnonymous u r p.message) := by
  unfold post at h
  rw [Prog.exec_query_bind] at h
  rcases haccess : visibleAccess db.toDb r u with e | access
  · rw [haccess] at h
    cases h
  rw [haccess] at h
  simp only [Prog.exec_read_bind] at h
  obtain ⟨message, db₁, hpost, h⟩ := Prog.bind_ok h
  obtain ⟨hmessage, hcore, -⟩ := post_stored (overDb_ok hpost)
  obtain ⟨identity, db₂, hidentity, h⟩ := Prog.bind_ok h
  have hcore₂ : core db₂.toDb = core db.toDb := (Prog.Leads.exec (core_identityFor _ r u) hidentity).trans hcore
  rw [Prog.exec_read_bind, Prog.exec_pure] at h
  cases (Prod.mk.inj h).1
  have hmasked := congrArg Message.isAnonymous hmessage
  obtain ⟨row, hrow, hroom⟩ := access_room (visibleAccess_ok.1 haccess).1
  refine ⟨⟨?_, ⟨identity, rfl⟩, row, hrow, ?_⟩, ?_⟩
  · rw [hmasked]
    exact hmessage
  · rw [hmasked, ← hroom, ← hcore₂]
    rfl
  · rw [hmasked]
    rfl

theorem sendMessage_published {isAnonymous : Option Bool}
    (h : (sendMessage env id r u content isAnonymous verdict).exec db = (.ok p, db')) :
    Published env id r u content none db p ∧ p.audit = none := by
  unfold sendMessage at h
  rw [Prog.exec_read_bind] at h
  obtain ⟨message, db₁, hpost, h⟩ := Prog.bind_ok h
  obtain ⟨hmessage, hcore, access, haccess⟩ := post_stored (overDb_ok hpost)
  obtain ⟨identity, db₂, hidentity, h⟩ := Prog.bind_ok h
  have hcore₂ : core db₂.toDb = core db.toDb := (Prog.Leads.exec (core_identityFor _ r u) hidentity).trans hcore
  -- the room is looked up once more, and is what it was
  have hagain : visibleAccess db₂.toDb r u = .ok access := by
    change visibleAccess (core db₂.toDb) r u = .ok access
    rw [hcore₂]
    exact haccess
  have hget : (tried (overDb (Room.get r u))).exec db₂ = (.ok (some access.room), db₂) := by
    have hexec : (Room.get r u).exec db₂.toDb = (.ok access.room, db₂.toDb) := by
      unfold Room.get
      rw [Prog.exec_query_bind, hagain]
      rfl
    change (Except.ok ((Room.get r u).exec db₂.toDb).1.toOption, { db₂ with toDb := ((Room.get r u).exec db₂.toDb).2 }) = _
    rw [hexec]
    rfl
  rw [Prog.exec_bind_ok hget, Prog.exec_read_bind, Prog.exec_pure] at h
  cases (Prod.mk.inj h).1
  have hmasked := congrArg Message.isAnonymous hmessage
  obtain ⟨row, hrow, hroom⟩ := access_room (visibleAccess_ok.1 haccess).1
  refine ⟨⟨?_, ⟨identity, rfl⟩, row, hrow, ?_⟩, rfl⟩
  · rw [hmasked]
    exact hmessage
  · rw [hmasked, ← hroom, ← hcore₂]
    rfl

theorem Sending.published (s : Sending) (h : (s.by env id r u content verdict).exec db = (.ok p, db')) :
    Published env id r u content s.replyTo db p ∧ p.audit = s.audit p.message.isAnonymous u r p.message := by
  cases s with
  | request isAnonymous replyTo => exact post_published h
  | socket isAnonymous => exact sendMessage_published h

theorem length_others {rest : Db} {room : Domain.Room} (h : rest.participates room.id u = true) :
    (others rest room u).length + 1 = (rest.participants room.id).length := by
  have hmem : u ∈ rest.participants room.id := Db.mem_participants.2 h
  have herase : others rest room u = (rest.participants room.id).erase u := by
    rw [(Db.nodup_participants rest room.id).erase_eq_filter u]
    unfold others
    refine List.filter_congr fun v _ => ?_
    by_cases hv : v = u <;> simp [hv]
  have hpos := List.length_pos_of_mem hmem
  rw [herase, List.length_erase_of_mem hmem]
  omega

/-- Who else has a reason to be told, and which, is the same whoever of two participants wrote the message. -/
theorem intendedFor_other {rest : Db} {room : Domain.Room} {m m' : Message} (hcontent : m'.content = m.content)
    (ha : rest.participates room.id m.authorId = true) (hb : rest.participates room.id m'.authorId = true)
    (hua : u ≠ m.authorId) (hub : u ≠ m'.authorId) :
    (intendedFor env rest room m').get u = (intendedFor env rest room m).get u := by
  classical
  have hnamed : Named env rest m' u ↔ Named env rest m u := by
    unfold Named
    rw [hcontent]
    exact and_congr_right fun _ => and_congr_left fun _ => iff_of_true hub hua
  have hlength : (others rest room m'.authorId).length = (others rest room m.authorId).length := by
    have h := length_others ha
    have h' := length_others hb
    omega
  have haddressed : Addressed env rest room m' u ↔ Addressed env rest room m u := by
    unfold Addressed
    rw [hcontent, hlength]
    refine and_congr_right fun _ => and_congr_left fun _ => ?_
    unfold others
    simp [hua, hub]
  rw [get_intendedFor, get_intendedFor]
  exact if_congr hnamed rfl (if_congr haddressed rfl rfl)

theorem planned_other {rest : Db} {room : Domain.Room} {m m' : Message} (hcontent : m'.content = m.content) (hid : m'.id = m.id)
    (ha : rest.participates room.id m.authorId = true) (hb : rest.participates room.id m'.authorId = true)
    (hua : u ≠ m.authorId) (hub : u ≠ m'.authorId) {new : NewNotification} (hnew : new.userId = u) :
    new ∈ planned env rest room m' none ↔ new ∈ planned env rest room m none := by
  have hplanned : ∀ message : Message, new ∈ planned env rest room message none ↔
      ∃ u kind, (intendedFor env rest room message).get u = some kind ∧ isReading env room u = false ∧
        (kind = .mention ∨ hasMuted env u = false) ∧ new = newFor room message none u kind := fun message =>
    @mem_planned env room message none { toDb := rest, notifications := .empty } new
  have hfor : ∀ v kind, newFor room m' none v kind = newFor room m none v kind := by
    intro v kind
    unfold newFor
    rw [hcontent, hid]
  rw [hplanned, hplanned]
  refine exists_congr fun v => exists_congr fun kind => ?_
  rw [hfor]
  constructor
  · rintro ⟨hget, hread, hmuted, rfl⟩
    obtain rfl : v = u := hnew
    exact ⟨by rwa [← intendedFor_other hcontent ha hb hua hub], hread, hmuted, rfl⟩
  · rintro ⟨hget, hread, hmuted, rfl⟩
    obtain rfl : v = u := hnew
    exact ⟨by rwa [intendedFor_other hcontent ha hb hua hub], hread, hmuted, rfl⟩

theorem eventWithoutAlias_created (message : Message) (identity : Option RoomAnonymousIdentity) :
    eventWithoutAlias (createdEvent message identity) = .messageCreated message.roomId message [] (identity.map withoutAlias) := rfl

/-- Of two posts of the same anonymous message, the event names the author, and the notifications of the others and the audit
do not. -/
theorem posted_by_either (s : Sending) {verdict' : Option FloodVerdict} {q : Posted} {dbA dbB : ChatDb} (hab : a ≠ b) (hua : u ≠ a)
    (hub : u ≠ b) (ha : db.participates r a = true) (hb : db.participates r b = true)
    (hp : (s.by env id r a content verdict).exec db = (.ok p, dbA)) (hq : (s.by env id r b content verdict').exec db = (.ok q, dbB))
    (hmasked : p.message.isAnonymous = true) (hmasked' : q.message.isAnonymous = true) :
    eventWithoutAlias p.event ≠ eventWithoutAlias q.event ∧
      (∀ new, new.userId = u → (new ∈ q.notifications ↔ new ∈ p.notifications)) ∧ q.audit = p.audit := by
  obtain ⟨⟨hmessage, ⟨identity, hevent⟩, row, hrow, hnotified⟩, haudit⟩ := s.published hp
  obtain ⟨⟨hmessage', ⟨identity', hevent'⟩, row', hrow', hnotified'⟩, haudit'⟩ := s.published hq
  rw [hmasked] at hmessage hnotified haudit
  rw [hmasked'] at hmessage' hnotified' haudit'
  obtain rfl : row = row' := Option.some.inj (hrow.symm.trans hrow')
  have hroom : row.toRoom.id = r := Table.find_key hrow
  refine ⟨?_, fun new hnew => ?_, ?_⟩
  · intro h
    rw [hevent, hevent', eventWithoutAlias_created, eventWithoutAlias_created] at h
    have hauthor := congrArg Message.authorId (ChatServerEvent.messageCreated.inj h).2.1
    rw [hmessage, hmessage'] at hauthor
    exact hab hauthor
  · rw [hnotified, hnotified', hmessage, hmessage']
    have hactor : ∀ v, publicActor true v = none := fun _ => rfl
    rw [hactor, hactor]
    have hcontent : (storedMessage id r b content true s.replyTo db.now).content =
        (storedMessage id r a content true s.replyTo db.now).content := rfl
    exact planned_other hcontent rfl (by rw [hroom]; exact ha) (by rw [hroom]; exact hb) hua hub hnew
  · rw [haudit, haudit', hmessage, hmessage']
    cases s <;> simp only [Sending.audit, createdAudit, publicActor, storedMessage, if_true]

end Posting

/-! ## Editing and deleting -/

section Rewriting

variable {id : MessageId} {u a b : UserId} {content : String} {db db' : ChatDb} {m : Message} {e : Edited} {d : Deleted}

/-- An edit changes the text and when it was edited, and the audit names its author unless the message is anonymous. -/
theorem edit_ok (hm : db.messages.find id = some m) (h : (edit id u content).exec db = (.ok e, db')) :
    (∃ text reactions identity, e.event = .messageUpdated m.roomId { m with content := text, editedAt := some db.now } reactions
      identity) ∧
    e.audit = (AuditRecord.new (publicActor m.isAnonymous u) .messageEdited
      s!"Message {uuidText id.uuid} edited in room {uuidText m.roomId.uuid}").about "message" id.uuid := by
  unfold edit at h
  rw [Prog.exec_query_bind] at h
  rcases hcheck : checkEdit db.toDb id u content with error | text
  · rw [hcheck] at h
    cases h
  rw [hcheck] at h
  obtain ⟨updated, db₁, hupdated, h⟩ := Prog.bind_ok h
  rw [Prog.exec_read_bind, Prog.exec_read_bind, Prog.exec_pure] at h
  cases (Prod.mk.inj h).1
  have hrow : updated = { m with content := text, editedAt := some db.now } := by
    unfold updateContent at hupdated
    rw [Prog.exec_modify_bind, Prog.exec_query, Table.find_update, hm, if_pos rfl] at hupdated
    exact (Except.ok.inj (Prod.mk.inj hupdated).1).symm
  subst hrow
  exact ⟨⟨text, _, _, rfl⟩, rfl⟩

/-- A deletion tells the room which message is gone, and the audit who deleted it. -/
theorem delete_ok (hm : db.messages.find id = some m) (h : (delete id u).exec db = (.ok d, db')) :
    d.event = .messageDeleted m.roomId id ∧
      d.audit = (AuditRecord.new (some u) .messageRemoved s!"Message {uuidText id.uuid} removed").about "message" id.uuid := by
  unfold delete at h
  rw [Prog.exec_query_bind, findMessage_ok.2 hm] at h
  simp only [Prog.exec_query_bind] at h
  rcases hcheck : checkDelete db.toDb id u with error | _
  · rw [hcheck] at h
    cases h
  rw [hcheck] at h
  simp only [Prog.exec_modify_bind, Prog.exec_pure] at h
  cases (Prod.mk.inj h).1
  exact ⟨rfl, rfl⟩

/-- Of two edits of the same anonymous message, the event names the author, and the audit does not. -/
theorem edited_by_either {content' : String} {e' : Edited} {dbA dbB : ChatDb} (hm : db.messages.find id = some m)
    (hmasked : m.isAnonymous = true) (hb : m.authorId ≠ b) (he : (edit id m.authorId content).exec db = (.ok e, dbA))
    (he' : (edit id b content').exec (db.reauthored id b) = (.ok e', dbB)) :
    eventWithoutAlias e.event ≠ eventWithoutAlias e'.event ∧ e'.audit = e.audit := by
  have hid : m.id = id := (Table.find_eq_some.1 hm).2
  have hm' : (db.reauthored id b).messages.find id = some { m with authorId := b } := by
    rw [find_reauthored, hm, Option.map_some, byAuthor, if_pos hid]
  obtain ⟨⟨text, reactions, identity, hevent⟩, haudit⟩ := edit_ok hm he
  obtain ⟨⟨text', reactions', identity', hevent'⟩, haudit'⟩ := edit_ok hm' he'
  constructor
  · rw [hevent, hevent']
    intro h
    exact hb (congrArg Message.authorId (ChatServerEvent.messageUpdated.inj h).2.1)
  · have hactor : ∀ v, publicActor m.isAnonymous v = none := fun v => by rw [hmasked]; rfl
    rw [haudit, haudit', hactor, hactor]

/-- Of two deletions of the same message by its author, the audit names who it was, and the event does not. -/
theorem deleted_by_either {d' : Deleted} {dbA dbB : ChatDb} (hm : db.messages.find id = some m) (hb : m.authorId ≠ b)
    (hd : (delete id m.authorId).exec db = (.ok d, dbA)) (hd' : (delete id b).exec (db.reauthored id b) = (.ok d', dbB)) :
    d'.event = d.event ∧ d'.audit ≠ d.audit := by
  have hid : m.id = id := (Table.find_eq_some.1 hm).2
  have hm' : (db.reauthored id b).messages.find id = some { m with authorId := b } := by
    rw [find_reauthored, hm, Option.map_some, byAuthor, if_pos hid]
  obtain ⟨hevent, haudit⟩ := delete_ok hm hd
  obtain ⟨hevent', haudit'⟩ := delete_ok hm' hd'
  refine ⟨hevent'.trans hevent.symm, ?_⟩
  rw [haudit, haudit']
  intro h
  exact hb (Option.some.inj (congrArg AuditRecord.actorId h)).symm

end Rewriting

/-! ## View by view -/

/-- An anonymous message by one of two participants, and the same by the other, as a third sees it. What may be read is the
same, up to the alias, exactly where it does not show the message. What others are notified of and the audits of posting
and editing are the same; the events that carry the message, and the audit of its deletion, never are. -/
theorem authorship_shown (engine : TextSearch) {db : ChatDb} {id : MessageId} {m : Message} {b u : UserId}
    (hm : db.messages.find id = some m) (hmasked : m.isAnonymous = true) (hb : m.authorId ≠ b) (hu : u ≠ m.authorId) (hub : u ≠ b) :
    (∀ o, SameAnswer engine u db (db.reauthored id b) o ↔ ∀ m' ∈ selected engine u db o, m'.id ≠ id) ∧
    (∀ (env : Surroundings) (s : Sending) (start : ChatDb) (r : RoomId) (content : String) (verdict verdict' : Option FloodVerdict)
        (p q : Posted) (dbA dbB : ChatDb),
      start.participates r m.authorId = true → start.participates r b = true →
      (s.by env id r m.authorId content verdict).exec start = (.ok p, dbA) →
      (s.by env id r b content verdict').exec start = (.ok q, dbB) →
      p.message.isAnonymous = true → q.message.isAnonymous = true →
        eventWithoutAlias p.event ≠ eventWithoutAlias q.event ∧
          (∀ new, new.userId = u → (new ∈ q.notifications ↔ new ∈ p.notifications)) ∧ q.audit = p.audit) ∧
    (∀ (content content' : String) (e e' : Edited) (dbA dbB : ChatDb),
      (edit id m.authorId content).exec db = (.ok e, dbA) → (edit id b content').exec (db.reauthored id b) = (.ok e', dbB) →
        eventWithoutAlias e.event ≠ eventWithoutAlias e'.event ∧ e'.audit = e.audit) ∧
    (∀ (d d' : Deleted) (dbA dbB : ChatDb),
      (delete id m.authorId).exec db = (.ok d, dbA) → (delete id b).exec (db.reauthored id b) = (.ok d', dbB) →
        d'.event = d.event ∧ d'.audit ≠ d.audit) := by
  refine ⟨sameAnswer_iff hm hb engine u, ?_, ?_, ?_⟩
  · intro env s start r content verdict verdict' p q dbA dbB ha hbin hp hq
    exact posted_by_either s hb hu hub ha hbin hp hq
  · intro content content' e e' dbA dbB he he'
    exact edited_by_either hm hmasked hb he he'
  · intro d d' dbA dbB hd hd'
    exact deleted_by_either hm hb hd hd'

/-! ### A message in a room of three -/

/-- `ana`, `ben` and `cleo` meet under aliases, and `ana` writes. -/
def whispers : List Room.Request :=
  [.register (account ⟨1⟩ "ana"), .register (account ⟨2⟩ "ben"), .register (account ⟨3⟩ "cleo"),
    .create ⟨10⟩ none ⟨1⟩ { name := "masks", roomType := .text, isAnonymous := true }, .join ⟨10⟩ ⟨2⟩, .join ⟨10⟩ ⟨3⟩,
    .post ⟨20⟩ ⟨10⟩ ⟨1⟩ "it was me" true none none]

def whispered : ChatDb where
  toDb := run Room.step (Db.empty 0) whispers
  messageReactions := .empty
  communityEmojis := .empty
  pinnedMessages := .empty

/-- What she wrote. -/
def whisper : Message := storedMessage ⟨20⟩ ⟨10⟩ ⟨1⟩ "it was me" true none 0

/-- `cleo` reads the same pins whoever of the two wrote it; the audit of its deletion differs. -/
theorem whisper_shown : SameAnswer asciiSearch ⟨3⟩ whispered (whispered.reauthored ⟨20⟩ ⟨2⟩) (.pins ⟨10⟩) ∧
    ∃ d d' : Deleted, d'.event = d.event ∧ d'.audit ≠ d.audit := by
  have hm : whispered.messages.find ⟨20⟩ = some whisper := by decide +kernel
  have hshown := authorship_shown asciiSearch (b := ⟨2⟩) (u := ⟨3⟩) hm (by decide) (by decide) (by decide) (by decide)
  refine ⟨(hshown.1 (.pins ⟨10⟩)).2 (by decide +kernel), ?_⟩
  have hd : ((delete ⟨20⟩ ⟨1⟩).exec whispered).1.isOk = true := by decide +kernel
  have hd' : ((delete ⟨20⟩ ⟨2⟩).exec (whispered.reauthored ⟨20⟩ ⟨2⟩)).1.isOk = true := by decide +kernel
  rcases h : (delete ⟨20⟩ ⟨1⟩).exec whispered with ⟨e | d, dbA⟩
  · rw [h] at hd
    cases hd
  rcases h' : (delete ⟨20⟩ ⟨2⟩).exec (whispered.reauthored ⟨20⟩ ⟨2⟩) with ⟨e | d', dbB⟩
  · rw [h'] at hd'
    cases hd'
  exact ⟨d, d', hshown.2.2.2 d d' dbA dbB h h'⟩

/-- The history she reads tells her which of the two it was. -/
theorem whisper_unmasked : whispered.messages.find ⟨20⟩ = some whisper ∧ whisper.isAnonymous = true ∧
    (∀ u ∈ [⟨1⟩, ⟨2⟩, ⟨3⟩], whispered.participates ⟨10⟩ u = true) ∧
    ¬ SameAnswer asciiSearch ⟨3⟩ whispered (whispered.reauthored ⟨20⟩ ⟨2⟩) (.history ⟨10⟩ none none none) := by
  refine ⟨by decide +kernel, rfl, by decide +kernel, ?_⟩
  unfold SameAnswer
  decide +kernel

end Genzh.Api.Messages
