/-
The support queue while several people work it. A reply reads the ticket, inserts its message and then writes the status
that says whose turn it is; a status change is one update, which also stamps the ticket when it ends. Each of these is a
statement of its own, and between the read and the write of a reply somebody may end the ticket.

`stamps_and_ended_kept`: the stamp and the status agree in every state, and no reply reopens an ended ticket exactly if
no reply finds, when it writes, that the ticket has ended since it was read.
-/
import Genzh.Domain.Support
import Genzh.Domain.Platform
import Genzh.Infrastructure.Db
import Genzh.Lib.Interleaving

namespace Genzh.Admin

open Genzh.Lib Genzh.Domain Genzh.Infrastructure

/-! ## The queue -/

instance : HasKey Ticket Uuid := ⟨Ticket.id⟩
instance : HasKey TicketMessage Uuid := ⟨TicketMessage.id⟩

/-- The database with the tables of the queue. -/
structure SupportDb extends Db where
  supportTickets : Table Ticket
  supportMessages : Table TicketMessage

/-- What somebody raising a ticket supplies. -/
structure NewTicket where
  kind : TicketKind
  subjectType : Option SubjectType := none
  subjectId : Option Uuid := none
  category : String
  subject : String
  details : String
  deriving DecidableEq, Repr

/-- `write_status` of one ticket: the stamp goes with the status. -/
def withStatus (now : Timestamp) (status : TicketStatus) (t : Ticket) : Ticket :=
  { t with
    status
    resolvedAt := if status = .resolved ∨ status = .closed then some now else none
    updatedAt := now }

def writeStatus (ticketId : Uuid) (status : TicketStatus) (db : SupportDb) : SupportDb :=
  { db with supportTickets := db.supportTickets.update ticketId (withStatus db.now status) fun _ => rfl }

/-- `UPDATE support_tickets SET assignee_id`. -/
def withAssignee (now : Timestamp) (assignee : Option UserId) (t : Ticket) : Ticket :=
  { t with assigneeId := assignee, updatedAt := now }

/-- Was the ticket resolved, and untouched since? -/
def stale (now : Timestamp) (after : Duration) (t : Ticket) : Bool := t.status = .resolved && t.updatedAt < now - after

/-- Close what has been resolved for long. -/
def autoClosed (after : Duration) (db : SupportDb) : SupportDb :=
  let close := fun t : Ticket => { t with status := .closed, updatedAt := db.now }
  { db with supportTickets := db.supportTickets.updateWhere (stale db.now after) close fun _ => rfl }

/-- `std::time::Duration`. -/
structure StdDuration where
  secs : Nat
  nanos : Nat
  secs_lt : secs < 2 ^ 64
  nanos_lt : nanos < 1000000000
  deriving DecidableEq, Repr

/-- `as_secs() as i64`. -/
def StdDuration.asSecs (d : StdDuration) : Int := (BitVec.ofNat 64 d.secs).toInt

/-- `make_interval(secs => ..)`, where PostgreSQL has it and the moment that lies so far back. -/
def staleInterval (now : Timestamp) (staleAfter : StdDuration) : Option Duration :=
  let after := Duration.seconds staleAfter.asSecs
  if |after| < 2 ^ 63 ∧ Timestamp.minColumn ≤ now - after ∧ now - after < 9224318016000 * 1000000 then some after else none

/-- A ticket just raised. -/
def raised (now : Timestamp) (id : Uuid) (reporter : UserId) (input : NewTicket) (category subject details : String) : Ticket where
  id := id
  kind := input.kind
  reporterId := reporter
  subjectType := input.subjectType
  subjectId := input.subjectId
  category := category
  subject := subject
  details := details
  status := .open
  assigneeId := none
  createdAt := now
  updatedAt := now
  resolvedAt := none

/-- One ticket, if this caller is allowed to see it: staff see every ticket, everybody else their own. -/
def findFor (db : SupportDb) (caller : UserId) (role : PlatformRole) (id : Uuid) : Except ServiceError Ticket :=
  match db.supportTickets.find id with
  | none => .error (.notFound "ticket")
  | some ticket => if !role.isStaff && ticket.reporterId ≠ caller then .error (.notFound "ticket") else .ok ticket

def reload (db : SupportDb) (id : Uuid) : Except ServiceError Ticket :=
  match db.supportTickets.find id with
  | none => .error (.notFound "ticket")
  | some ticket => .ok ticket

/-! ## Calls -/

/-- A staff reply puts the ticket back on the reporter, a reporter's reply back in the queue. -/
def nextStatus (role : PlatformRole) : TicketStatus := if role.isStaff then .pending else .open

/-- What is asked of the queue. -/
inductive SupportRequest where
  | open (id : Uuid) (reporter : UserId) (input : NewTicket)
  | reply (id : Uuid) (caller : UserId) (role : PlatformRole) (ticketId : Uuid) (body : String) (staffOnly : Bool)
  | assign (ticketId : Uuid) (assignee : Option UserId)
  | setStatus (ticketId : Uuid) (status : TicketStatus)
  | autoCloseStale (staleAfter : StdDuration)
  deriving DecidableEq, Repr

inductive SupportAnswer where
  | ticket (t : Ticket)
  | message (m : TicketMessage)
  | closed (count : Nat)
  deriving DecidableEq, Repr

/-- How far a call has come. A reply keeps the ticket as it read it. -/
inductive SupportCall where
  | asked (r : SupportRequest)
  | found (ticket : Ticket) (id : Uuid) (caller : UserId) (role : PlatformRole) (body : String) (staffOnly : Bool)
  | posted (ticketId : Uuid) (role : PlatformRole) (message : TicketMessage)
  | moving (ticketId : Uuid) (status : TicketStatus)
  | reloading (ticketId : Uuid)
  | answered (result : Except ServiceError SupportAnswer)

/-- The message a reply inserts. Only staff write notes nobody else reads. -/
def replyMessage (now : Timestamp) (id ticketId : Uuid) (caller : UserId) (role : PlatformRole) (body : String) (staffOnly : Bool) :
    TicketMessage where
  id := id
  ticketId := ticketId
  authorId := some caller
  body := body
  staffOnly := staffOnly && role.isStaff
  createdAt := now

/-- The next statement. -/
def SupportCall.advance (toLowercase : String → String) (call : SupportCall) (db : SupportDb) : SupportCall × SupportDb :=
  match call with
  | asked (.open id reporter input) =>
    let checked : Except DomainError (String × String × String) := do
      let category ← validateCategory toLowercase input.category
      let subject ← validateSubject input.subject
      let details ← validateBody input.details
      pure (category, subject, details)
    match checked with
    | .error e => (answered (.error (.domain e)), db)
    | .ok (category, subject, details) =>
      if db.supportTickets.contains id then (answered (.error (.repository (.conflict "support_tickets_pkey"))), db)
      else if !db.userExists reporter then (answered (.error (.repository .foreignKey)), db)
      else
        let ticket := raised db.now id reporter input category subject details
        (answered (.ok (.ticket ticket)), { db with supportTickets := db.supportTickets.insert ticket })
  | asked (.reply id caller role ticketId body staffOnly) =>
    match findFor db caller role ticketId with
    | .error e => (answered (.error e), db)
    | .ok ticket =>
      match validateBody body with
      | .error e => (answered (.error (.domain e)), db)
      | .ok body => (found ticket id caller role body staffOnly, db)
  | asked (.assign ticketId assignee) =>
    if db.supportTickets.contains ticketId && !assignee.all db.userExists then
      (answered (.error (.repository .foreignKey)), db)
    else
      (reloading ticketId,
        { db with supportTickets := db.supportTickets.update ticketId (withAssignee db.now assignee) fun _ => rfl })
  | asked (.setStatus ticketId status) =>
    match reload db ticketId with
    | .error e => (answered (.error e), db)
    | .ok _ => (moving ticketId status, db)
  | asked (.autoCloseStale staleAfter) =>
    match staleInterval db.now staleAfter with
    | none => (answered (.error (.repository .database)), db)
    | some after => (answered (.ok (.closed (db.supportTickets.count (stale db.now after)))), autoClosed after db)
  | found ticket id caller role body staffOnly =>
    let message := replyMessage db.now id ticket.id caller role body staffOnly
    if db.supportMessages.contains id then (answered (.error (.repository (.conflict "support_messages_pkey"))), db)
    else if !db.userExists caller then (answered (.error (.repository .foreignKey)), db)
    else
      -- a note changes nothing, since nobody has been answered
      (if !message.staffOnly && !ticket.status.isTerminal then posted ticket.id role message
        else answered (.ok (.message message)),
        { db with supportMessages := db.supportMessages.insert message })
  | posted ticketId role message => (answered (.ok (.message message)), writeStatus ticketId (nextStatus role) db)
  | moving ticketId status => (reloading ticketId, writeStatus ticketId status db)
  | reloading ticketId => (answered ((reload db ticketId).map .ticket), db)
  | answered result => (answered result, db)

/-! ## What happens to a ticket -/

inductive ActivityKind where
  | reply
  /-- A status change or an assignment. -/
  | change
  deriving DecidableEq, Repr

structure Activity where
  ticket : Uuid
  kind : ActivityKind
  time : Timestamp
  deriving DecidableEq, Repr

/-- What the next statement does to a ticket. A note that only staff read is no reply. -/
def SupportCall.activity (call : SupportCall) (db : SupportDb) : Option Activity :=
  match call with
  | asked (.assign ticketId assignee) =>
    if db.supportTickets.contains ticketId && !assignee.all db.userExists then none else some ⟨ticketId, .change, db.now⟩
  | found ticket id caller role _ staffOnly =>
    if db.supportMessages.contains id || !db.userExists caller || (staffOnly && role.isStaff) then none
    else some ⟨ticket.id, .reply, db.now⟩
  | posted ticketId _ _ => some ⟨ticketId, .change, db.now⟩
  | moving ticketId _ => some ⟨ticketId, .change, db.now⟩
  | _ => none

section System

variable {I : Type} [DecidableEq I]

abbrev SupportSystem (I : Type) := System SupportDb I SupportCall

/-- An empty queue, and everything yet to be asked. -/
def SupportSystem.start (db : Db) (requests : I → SupportRequest) : SupportSystem I :=
  { store := { db with supportTickets := .empty, supportMessages := .empty }, calls := fun i => .asked (requests i) }

/-- A statement of a call, or whatever happens to the other tables and the clock. -/
def supportStep (toLowercase : String → String) : SupportSystem I → Event I Db → SupportSystem I :=
  System.step (fun _ => SupportCall.advance toLowercase) fun db s => { s with toDb := db }

end System

/-! ## What a statement does to the tickets -/

/-- The stamp is set exactly when the status is terminal. -/
def Stamped (db : SupportDb) : Prop := ∀ t ∈ db.supportTickets.rows, t.resolvedAt.isSome = t.status.isTerminal

/-- Has the ticket ended? -/
def ended (db : SupportDb) (id : Uuid) : Bool := (db.supportTickets.find id).any (·.status.isTerminal)

section Statements

variable {toLowercase : String → String} {db : SupportDb} {call : SupportCall} {id : Uuid}

theorem findFor_ok {caller : UserId} {role : PlatformRole} {ticket : Ticket} (h : findFor db caller role id = .ok ticket) :
    db.supportTickets.find id = some ticket := by
  unfold findFor at h
  split at h
  · cases h
  · rename_i t ht
    split at h
    · cases h
    · rw [ht, Except.ok.inj h]

/-- Only a resolved ticket is stale. -/
theorem resolved_of_stale {now : Timestamp} {after : Duration} {t : Ticket} (h : stale now after t = true) : t.status = .resolved := by
  unfold stale at h
  rw [Bool.and_eq_true, decide_eq_true_eq] at h
  exact h.1

theorem stamp_withStatus (now : Timestamp) (status : TicketStatus) (t : Ticket) :
    (withStatus now status t).resolvedAt.isSome = (withStatus now status t).status.isTerminal := by
  unfold withStatus
  cases status <;> rfl

theorem nextStatus_live (role : PlatformRole) : (nextStatus role).isTerminal = false := by
  cases role <;> rfl

theorem stamped_writeStatus (ticketId : Uuid) (status : TicketStatus) (h : Stamped db) : Stamped (writeStatus ticketId status db) := by
  intro t ht
  rcases (Table.mem_update db.supportTickets ticketId (withStatus db.now status) fun _ => rfl).1 ht with ⟨t, -, -, rfl⟩ | ⟨ht, -⟩
  · exact stamp_withStatus db.now status t
  · exact h t ht

theorem find_writeStatus (ticketId : Uuid) (status : TicketStatus) (db : SupportDb) (id : Uuid) :
    (writeStatus ticketId status db).supportTickets.find id =
      if ticketId = id then (db.supportTickets.find id).map (withStatus db.now status) else db.supportTickets.find id :=
  Table.find_update db.supportTickets ticketId id (withStatus db.now status) fun _ => rfl

theorem ended_writeStatus (ticketId : Uuid) (status : TicketStatus) :
    ended (writeStatus ticketId status db) id =
      if ticketId = id then (db.supportTickets.contains id && status.isTerminal) else ended db id := by
  unfold ended
  rw [find_writeStatus]
  split
  · unfold Table.contains
    cases db.supportTickets.find id <;> rfl
  · rfl

/-- Where a statement touches a ticket, and what that is to it: it raises a new one, hands one over, closes the stale ones,
or writes a status. -/
theorem tickets_advance (toLowercase : String → String) (call : SupportCall) (db : SupportDb) :
    ((call.advance toLowercase db).2.supportTickets = db.supportTickets ∧
      ∀ a, call.activity db = some a → a.kind = .reply ∧ a.time = db.now) ∨
    (∃ id reporter input category subject details, db.supportTickets.contains id = false ∧ call.activity db = none ∧
      (call.advance toLowercase db).2.supportTickets =
        db.supportTickets.insert (raised db.now id reporter input category subject details)) ∨
    (∃ id assignee, call.activity db = some ⟨id, .change, db.now⟩ ∧ (call.advance toLowercase db).2.supportTickets =
      db.supportTickets.update id (withAssignee db.now assignee) fun _ => rfl) ∨
    (∃ after, call.activity db = none ∧ (call.advance toLowercase db).2 = autoClosed after db) ∨
    (∃ id status, (call = .moving id status ∨ ∃ role m, call = .posted id role m ∧ status = nextStatus role) ∧
      (call.advance toLowercase db).2 = writeStatus id status db) := by
  have hnone : ∀ {call : SupportCall}, call.activity db = none →
      ∀ a, call.activity db = some a → a.kind = .reply ∧ a.time = db.now := by
    intro call hcall a ha
    rw [hcall] at ha
    cases ha
  cases call with
  | asked r =>
    cases r with
    | «open» id reporter input =>
      simp only [SupportCall.advance]
      split
      · exact .inl ⟨rfl, hnone rfl⟩
      · rename_i category subject details _
        by_cases hid : db.supportTickets.contains id
        · rw [if_pos hid]
          exact .inl ⟨rfl, hnone rfl⟩
        · rw [if_neg hid]
          split
          · exact .inl ⟨rfl, hnone rfl⟩
          · exact .inr (.inl ⟨id, reporter, input, category, subject, details, by simpa using hid, rfl, rfl⟩)
    | reply id caller role ticketId body staffOnly =>
      simp only [SupportCall.advance]
      split
      · exact .inl ⟨rfl, hnone rfl⟩
      · split <;> exact .inl ⟨rfl, hnone rfl⟩
    | assign ticketId assignee =>
      simp only [SupportCall.advance]
      split
      · rename_i hforeign
        exact .inl ⟨rfl, hnone (if_pos hforeign)⟩
      · rename_i hforeign
        exact .inr (.inr (.inl ⟨ticketId, assignee, if_neg hforeign, rfl⟩))
    | setStatus ticketId status =>
      simp only [SupportCall.advance]
      split <;> exact .inl ⟨rfl, hnone rfl⟩
    | autoCloseStale staleAfter =>
      simp only [SupportCall.advance]
      split
      · exact .inl ⟨rfl, hnone rfl⟩
      · rename_i after _
        exact .inr (.inr (.inr (.inl ⟨after, rfl, rfl⟩)))
  | found ticket id caller role body staffOnly =>
    refine .inl ⟨?_, ?_⟩
    · simp only [SupportCall.advance]
      split
      · rfl
      · split <;> rfl
    · intro a ha
      simp only [SupportCall.activity] at ha
      split at ha
      · cases ha
      · obtain rfl := Option.some.inj ha
        exact ⟨rfl, rfl⟩
  | posted ticketId role message => exact .inr (.inr (.inr (.inr ⟨ticketId, _, .inr ⟨role, message, rfl, rfl⟩, rfl⟩)))
  | moving ticketId status => exact .inr (.inr (.inr (.inr ⟨ticketId, status, .inl rfl, rfl⟩)))
  | reloading ticketId => exact .inl ⟨rfl, hnone rfl⟩
  | answered result => exact .inl ⟨rfl, hnone rfl⟩

/-- The stamp and the status agree after every statement. -/
theorem stamped_advance (call : SupportCall) (h : Stamped db) : Stamped (call.advance toLowercase db).2 := by
  rcases tickets_advance toLowercase call db with
    ⟨hsame, -⟩ | ⟨id, reporter, input, category, subject, details, -, -, hins⟩ | ⟨id, assignee, -, hass⟩ | ⟨after, -, hclosed⟩ |
    ⟨id, status, -, hwrite⟩
  · unfold Stamped
    rw [hsame]
    exact h
  · unfold Stamped
    rw [hins]
    intro t ht
    rcases Table.mem_insert.1 ht with ht | ⟨rfl, -⟩
    · exact h t ht
    · rfl
  · unfold Stamped
    rw [hass]
    intro t ht
    rcases (Table.mem_update db.supportTickets id (withAssignee db.now assignee) fun _ => rfl).1 ht with
      ⟨t', ht', -, rfl⟩ | ⟨ht, -⟩
    · exact h t' ht'
    · exact h t ht
  · rw [hclosed]
    intro t ht
    obtain ⟨t', ht', rfl⟩ := List.mem_map.1 ht
    split
    · -- closing leaves the stamp that resolving has set
      rename_i hstale
      refine (h t' ht').trans ?_
      rw [resolved_of_stale hstale]
      rfl
    · exact h t' ht'
  · rw [hwrite]
    exact stamped_writeStatus id status h

/-- A ticket only ends by a status change, and only a reply to it or a status change opens an ended one again. -/
theorem ended_advance (toLowercase : String → String) (call : SupportCall) (db : SupportDb) (id : Uuid) :
    ended (call.advance toLowercase db).2 id = ended db id ∨
    (∃ status, call = .moving id status ∧ ended (call.advance toLowercase db).2 id = (db.supportTickets.contains id && status.isTerminal)) ∨
    (∃ role m, call = .posted id role m ∧ ended (call.advance toLowercase db).2 id = false) := by
  rcases tickets_advance toLowercase call db with
    ⟨hsame, -⟩ | ⟨id', reporter, input, category, subject, details, hid, -, hins⟩ | ⟨id', assignee, -, hass⟩ | ⟨after, -, hclosed⟩ |
    ⟨id', status, hcall, hwrite⟩
  · left
    unfold ended
    rw [hsame]
  · left
    unfold ended
    rw [hins, Table.find_insert]
    rcases hf : db.supportTickets.find id with _ | t
    · by_cases h : id' = id
      · subst h
        simp [raised, key, TicketStatus.isTerminal]
      · simp [raised, key, h]
    · rfl
  · left
    unfold ended
    rw [hass, Table.find_update db.supportTickets id' id (withAssignee db.now assignee) fun _ => rfl]
    split
    · cases db.supportTickets.find id <;> rfl
    · rfl
  · left
    rw [hclosed]
    unfold ended autoClosed
    simp only [Table.find_updateWhere]
    rcases hf : db.supportTickets.find id with _ | t
    · rfl
    · simp only [Option.map_some, Option.any_some]
      split
      · rename_i hstale
        rw [resolved_of_stale hstale]
        rfl
      · rfl
  · rw [hwrite, ended_writeStatus]
    by_cases h : id' = id
    · subst h
      rw [if_pos rfl]
      rcases hcall with hmoving | ⟨role, m, hposted, rfl⟩
      · exact .inr (.inl ⟨status, hmoving, rfl⟩)
      · refine .inr (.inr ⟨role, m, hposted, ?_⟩)
        rw [nextStatus_live, Bool.and_false]
    · rw [if_neg h]
      exact .inl rfl

end Statements

/-! ## Replies -/

namespace SupportCall

/-- Is the call a reply that still has something to write? -/
def isReply : SupportCall → Bool
  | asked (.reply ..) | found .. | posted .. => true
  | _ => false

/-- The ticket whose status a reply writes next. -/
def writing : SupportCall → Option Uuid
  | posted ticketId _ _ => some ticketId
  | _ => none

/-- The ticket a reply read as live, and has not answered yet. -/
def answering : SupportCall → Option Uuid
  | found ticket _ _ role _ staffOnly =>
    if !(staffOnly && role.isStaff) && !ticket.status.isTerminal then some ticket.id else none
  | posted ticketId _ _ => some ticketId
  | _ => none

/-- The ticket a status change ends next. -/
def ending : SupportCall → Option Uuid
  | moving ticketId status => if status.isTerminal then some ticketId else none
  | _ => none

theorem posted_of_writing {call : SupportCall} {id : Uuid} (h : call.writing = some id) : ∃ role m, call = posted id role m := by
  cases call with
  | posted ticketId role m =>
    obtain rfl := Option.some.inj h
    exact ⟨role, m, rfl⟩
  | _ => cases h

end SupportCall

section Runs

variable {I : Type} [DecidableEq I] {toLowercase : String → String} {σ : SupportSystem I} {db : SupportDb}

/-- A reply leaves ended what has ended. -/
def KeepsEnded (toLowercase : String → String) (σ : SupportSystem I) : Event I Db → Prop
  | .turn i => (σ.calls i).isReply = true → ∀ id, ended σ.store id = true →
      ended ((σ.calls i).advance toLowercase σ.store).2 id = true
  | .outside _ => True

/-- A reply that writes a status finds the ticket live, as it was when the reply read it. -/
def FindsLive (σ : SupportSystem I) : Event I Db → Prop
  | .turn i => ∀ id, (σ.calls i).writing = some id → ended σ.store id = false
  | .outside _ => True

/-- Nobody ends a ticket that a reply is answering. -/
def WaitsForReplies (σ : SupportSystem I) : Event I Db → Prop
  | .turn i => ∀ id, (σ.calls i).ending = some id → ∀ j, (σ.calls j).answering ≠ some id
  | .outside _ => True

omit [DecidableEq I] in
/-- Only the write at the end of a reply can open a ticket again. -/
theorem keepsEnded_iff (σ : SupportSystem I) (e : Event I Db) : KeepsEnded toLowercase σ e ↔ FindsLive σ e := by
  cases e with
  | outside a => exact Iff.rfl
  | turn i =>
    unfold KeepsEnded FindsLive
    constructor
    · intro h id hw
      obtain ⟨role, m, hposted⟩ := SupportCall.posted_of_writing hw
      by_contra hended
      have := h (by rw [hposted]; rfl) id (by simpa using hended)
      rw [hposted] at this
      change ended (writeStatus id (nextStatus role) σ.store) id = true at this
      rw [ended_writeStatus, if_pos rfl, nextStatus_live, Bool.and_false] at this
      cases this
    · intro h hreply id hended
      rcases ended_advance toLowercase (σ.calls i) σ.store id with heq | ⟨status, hcall, -⟩ | ⟨role, m, hcall, -⟩
      · rw [heq]
        exact hended
      · rw [hcall] at hreply
        cases hreply
      · rw [h id (by rw [hcall]; rfl)] at hended
        cases hended

/-- What a reply is answering is live. -/
def AnswersLive (σ : SupportSystem I) : Prop := ∀ i id, (σ.calls i).answering = some id → ended σ.store id = false

omit [DecidableEq I] in
/-- A reply that starts to answer a ticket has read it as live. -/
theorem answering_reply {db : SupportDb} {id id' : Uuid} {caller : UserId} {role : PlatformRole} {ticketId : Uuid}
    {body : String} {staffOnly : Bool}
    (h : ((SupportCall.asked (.reply id' caller role ticketId body staffOnly)).advance toLowercase db).1.answering = some id) :
    ((SupportCall.asked (.reply id' caller role ticketId body staffOnly)).advance toLowercase db).2 = db ∧
      ended db id = false := by
  simp only [SupportCall.advance] at h ⊢
  rcases hfind : findFor db caller role ticketId with e | ticket <;> rw [hfind] at h
  · cases h
  rcases hbody : validateBody body with e | body' <;> rw [hbody] at h
  · cases h
  refine ⟨rfl, ?_⟩
  change (if _ then some ticket.id else none) = some id at h
  simp only [Option.ite_none_right_eq_some, Bool.and_eq_true, Bool.not_eq_true'] at h
  obtain ⟨⟨-, hlive⟩, hid⟩ := h
  obtain rfl := Option.some.inj hid
  have hrow := findFor_ok hfind
  obtain rfl : key ticket = ticketId := Table.find_key hrow
  unfold ended
  change (db.supportTickets.find (key ticket)).any _ = false
  rw [hrow]
  exact hlive

omit [DecidableEq I] in
/-- A reply whose message is inserted goes on answering the ticket it has found. -/
theorem answering_found {db : SupportDb} {id id' : Uuid} {ticket : Ticket} {caller : UserId} {role : PlatformRole}
    {body : String} {staffOnly : Bool}
    (h : ((SupportCall.found ticket id' caller role body staffOnly).advance toLowercase db).1.answering = some id) :
    ((SupportCall.found ticket id' caller role body staffOnly).advance toLowercase db).2.supportTickets = db.supportTickets ∧
      (SupportCall.found ticket id' caller role body staffOnly).answering = some id := by
  simp only [SupportCall.advance] at h ⊢
  split at h
  · cases h
  rename_i hnew
  rw [if_neg hnew]
  split at h
  · cases h
  rename_i hauthor
  rw [if_neg hauthor]
  refine ⟨rfl, ?_⟩
  unfold SupportCall.answering
  by_cases hlive : (!(staffOnly && role.isStaff) && !ticket.status.isTerminal) = true
  · simp only [replyMessage, hlive, if_true] at h ⊢
    exact h
  · simp only [replyMessage, hlive, if_false, Bool.false_eq_true] at h
    cases h

omit [DecidableEq I] in
/-- A reply that goes on answering a ticket answers the same one, one that starts has read it as live, and neither
touches the tickets in doing so. -/
theorem answering_advance (call : SupportCall) (db : SupportDb) {id : Uuid}
    (h : (call.advance toLowercase db).1.answering = some id) :
    (call.advance toLowercase db).2.supportTickets = db.supportTickets ∧ (call.answering = some id ∨ ended db id = false) := by
  cases call with
  | asked r =>
    cases r with
    | «open» id' reporter input =>
      simp only [SupportCall.advance] at h
      split at h
      · cases h
      · split at h
        · cases h
        · split at h <;> cases h
    | reply id' caller role ticketId body staffOnly =>
      obtain ⟨hsame, hlive⟩ := answering_reply h
      exact ⟨congrArg (·.supportTickets) hsame, .inr hlive⟩
    | assign ticketId assignee =>
      simp only [SupportCall.advance] at h
      split at h <;> cases h
    | setStatus ticketId status =>
      simp only [SupportCall.advance] at h
      split at h <;> cases h
    | autoCloseStale staleAfter =>
      simp only [SupportCall.advance] at h
      split at h <;> cases h
  | found ticket id' caller role body staffOnly =>
    obtain ⟨hsame, hanswering⟩ := answering_found h
    exact ⟨hsame, .inl hanswering⟩
  | posted ticketId role message => cases h
  | moving ticketId status => cases h
  | reloading ticketId => cases h
  | answered result => cases h

theorem answersLive_step (σ : SupportSystem I) (e : Event I Db) (h : AnswersLive σ) (hw : WaitsForReplies σ e) :
    AnswersLive (supportStep toLowercase σ e) ∧ FindsLive σ e := by
  cases e with
  | outside a => exact ⟨h, trivial⟩
  | turn i =>
    have hfinds : FindsLive σ (.turn i) := by
      intro id hwriting
      obtain ⟨role, m, hposted⟩ := SupportCall.posted_of_writing hwriting
      exact h i id (by rw [hposted]; rfl)
    have hkeeps : ∀ j id, (σ.calls j).answering = some id → ended σ.store id = false →
        ended ((σ.calls i).advance toLowercase σ.store).2 id = false := by
      intro j id hj hlive
      rcases ended_advance toLowercase (σ.calls i) σ.store id with heq | ⟨status, hcall, hended⟩ | ⟨role, m, -, hended⟩
      · rw [heq]
        exact hlive
      · rw [hended]
        -- the change would end a ticket that `j` is answering
        rcases hterminal : status.isTerminal with _ | _
        · exact Bool.and_false _
        · refine absurd hj (hw id ?_ j)
          rw [hcall]
          simp [SupportCall.ending, hterminal]
      · exact hended
    refine ⟨fun j id hj => ?_, hfinds⟩
    by_cases hji : j = i
    · subst hji
      change ((Function.update σ.calls j _) j).answering = some id at hj
      rw [Function.update_self] at hj
      obtain ⟨htickets, hlive⟩ := answering_advance (σ.calls j) σ.store hj
      change (Table.find ((σ.calls j).advance toLowercase σ.store).2.supportTickets id).any _ = false
      rw [htickets]
      exact hlive.elim (h j id) fun hlive => hlive
    · change ((Function.update σ.calls i _) j).answering = some id at hj
      rw [Function.update_of_ne hji] at hj
      exact hkeeps j id hj (h j id hj)

/-- However replies, status changes and assignments overlap: in every state the stamp is set exactly when the status is
terminal. No reply opens an ended ticket again exactly if every reply that writes a status finds the ticket live, as it
was when the reply read it; where nobody ends a ticket that a reply is answering, every reply does. -/
theorem stamps_and_ended_kept (toLowercase : String → String) (db : Db) (requests : I → SupportRequest) (es : List (Event I Db)) :
    Always (supportStep toLowercase) (fun σ => Stamped σ.store) (SupportSystem.start db requests) es ∧
    (Along (supportStep toLowercase) (KeepsEnded toLowercase) (SupportSystem.start db requests) es ↔
      Along (supportStep toLowercase) FindsLive (SupportSystem.start db requests) es) ∧
    (Along (supportStep toLowercase) WaitsForReplies (SupportSystem.start db requests) es →
      Along (supportStep toLowercase) FindsLive (SupportSystem.start db requests) es) := by
  refine ⟨always_of_step (fun σ e h => ?_) fun t ht => (by cases ht), ?_, ?_⟩
  · cases e with
    | turn i => exact stamped_advance (σ.calls i) h
    | outside a => exact h
  · exact along_congr (J := fun _ => True) (fun _ _ _ => trivial) (fun σ e _ => keepsEnded_iff σ e) trivial
  · exact along_of_along (I := AnswersLive) (fun σ e h hw => answersLive_step σ e h hw) fun i id h => by cases h

end Runs

/-! ### A ticket resolved while it is being answered -/

/-- `ana`, who raised a ticket, replies to it, and `root` resolves it. -/
def answeredTicket : Option Bool → SupportRequest
  | none => .open 7 ⟨2⟩ { kind := .help, category := "billing", subject := "a refund", details := "please" }
  | some false => .reply 8 ⟨2⟩ .user 7 "anybody?" false
  | some true => .setStatus 7 .resolved

/-- The reply has read the ticket before it is resolved, and writes its status afterwards. -/
def resolvedMeanwhile : List (Event (Option Bool) Db) :=
  [.turn none, .turn (some false), .turn (some false), .turn (some true), .turn (some true), .turn (some false)]

/-- An account that may raise tickets. -/
def reporterOnly : Db :=
  { Db.empty 0 with users := Table.empty.insert { id := ⟨2⟩, handle := "ana", email := "ana@genzh.test", isActive := true } }

/-- The ticket is open again. -/
theorem reopened_by_reply :
    ((run (supportStep id) (SupportSystem.start reporterOnly answeredTicket) (resolvedMeanwhile.take 5)).store.supportTickets.find 7).map
      (fun t => (t.status, t.resolvedAt)) = some (.resolved, some 0) ∧
    ((run (supportStep id) (SupportSystem.start reporterOnly answeredTicket) resolvedMeanwhile).store.supportTickets.find 7).map
      (fun t => (t.status, t.resolvedAt)) = some (.open, none) ∧
    ¬ Along (supportStep id) (KeepsEnded id) (SupportSystem.start reporterOnly answeredTicket) resolvedMeanwhile := by
  refine ⟨by decide +kernel, by decide +kernel, fun h => ?_⟩
  have hsplit : resolvedMeanwhile = resolvedMeanwhile.take 5 ++ [.turn (some false)] := rfl
  rw [hsplit, along_append] at h
  have := h.2.1 (by decide +kernel) 7 (by decide +kernel)
  revert this
  decide +kernel

end Genzh.Admin
